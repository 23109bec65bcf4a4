import ExchangeLoad.Proofs.Trader.Conversation

/-!
The books of a trader: what it holds and knows is told by what its client was answered. A buyer's coins
never change, and a seller parts with the amount of an order once the order was accepted. Where the cursor
stands, and the price seen last, come from the looks at the market that succeeded.
-/

namespace ExchangeLoad.Investor

/-- Everything that the client of an investor was answered, with what it answers, oldest first. -/
def talk (v : Investor) : List (Request × Reply) := v.client.answers.toList

/-- Everything that the client of an investor asked, oldest first. -/
def asked (v : Investor) : List Request := v.client.asked.toList

/-- Whether a trader takes a trade of its own to be handed out. -/
def busy (v : Investor) : Bool :=
  match v.manner with
  | .trader busy _ _ => busy
  | .scripted _ => false

/-- How many orders of an investor were accepted. -/
def sold (v : Investor) : Nat := succeeded v.talk .order

/-- What a trader holds and knows agrees with what it was answered. -/
structure Books (v : Investor) : Prop where
  trader : v.IsTrader
  conversation : Conversation v.params v.talk
  cursor : v.cursor = cursorAfter v.talk
  price : v.price = priceAfter v.talk
  buyer : v.params.kind = .creditHeavy → v.coins = v.params.coins
  seller : v.params.kind = .coinHeavy → Word.Fits v.params.coins →
    v.coins = Word.wrap (v.params.coins - v.params.unit * v.sold)
  solvent : v.params.kind = .coinHeavy → Word.Fits v.params.coins → 0 < v.params.unit →
    0 ≤ v.params.coins → v.params.unit * v.sold ≤ v.params.coins

variable {v w : Investor} {p : Point} {request : Request} {reply : Reply} {aborted : Bool} {gain : Int}
  {progress : Progress} {m : Market}

theorem talk_heard : (v.heard p reply).talk = v.talk ++ [(v.request p, reply)] := by
  simp [heard, talk, Client.hear]

theorem asked_askAt : (v.askAt p).1.asked = v.asked ++ [v.request p] := by
  simp [askAt, asked, Client.ask]

@[simp]
theorem heard_keeps : (v.heard p reply).coins = v.coins ∧ (v.heard p reply).stage = v.stage ∧
    (v.heard p reply).params = v.params ∧ (v.heard p reply).busy = v.busy ∧
    (v.heard p reply).asked = v.asked ∧ (v.heard p reply).client.retired = v.client.retired := by
  simp [heard, coins, busy, asked, Client.hear]

@[simp]
theorem askAt_keeps : (v.askAt p).1.coins = v.coins ∧ (v.askAt p).1.stage = v.stage ∧
    (v.askAt p).1.params = v.params ∧ (v.askAt p).1.busy = v.busy ∧ (v.askAt p).1.talk = v.talk ∧
    (v.askAt p).1.client.retired = v.client.retired := by
  simp [askAt, coins, busy, talk, Client.ask]

@[simp]
theorem free_keeps : v.free.coins = v.coins ∧ v.free.cursor = v.cursor ∧ v.free.price = v.price ∧
    v.free.stage = v.stage ∧ v.free.params = v.params := by
  cases hmanner : v.manner <;> simp [free, coins, cursor, hmanner]

@[simp]
theorem busy_free : v.free.busy = false := by
  cases hmanner : v.manner <;> simp [free, busy, hmanner]

@[simp]
theorem learn_keeps : (v.learn m).coins = v.coins ∧ (v.learn m).stage = v.stage ∧
    (v.learn m).params = v.params ∧ (v.learn m).busy = v.busy := by
  cases hmanner : v.manner <;> simp [learn, coins, busy, hmanner]

theorem learn_knows (hv : v.IsTrader) :
    (v.learn m).cursor = m.cursor ∧ (v.learn m).price = m.latest?.getD v.price := by
  obtain ⟨busy, coins, cursor, hmanner⟩ := hv
  simp [learn, Investor.cursor, hmanner]

@[simp]
theorem settle_keeps : v.settle.cursor = v.cursor ∧ v.settle.price = v.price ∧ v.settle.stage = v.stage ∧
    v.settle.params = v.params := by
  unfold settle
  split
  · next hmanner _ => simp [cursor, hmanner]
  · simp

theorem coins_settle_buyer (hkind : v.params.kind = .creditHeavy) : v.settle.coins = v.coins := by
  cases hmanner : v.manner <;> simp [settle, coins, hmanner, hkind]

theorem coins_settle_seller (hv : v.IsTrader) (hkind : v.params.kind = .coinHeavy) :
    v.settle.coins = Word.wrap (v.coins - v.params.unit) := by
  obtain ⟨busy, coins, cursor, hmanner⟩ := hv
  simp [settle, Investor.coins, hmanner, hkind]

theorem succeeded_snoc {talk : List (Request × Reply)} {service : Service} :
    succeeded (talk ++ [(request, reply)]) service =
      succeeded talk service + if request.service? = some service ∧ reply.refused = false then 1 else 0 := by
  simp [succeeded, List.countP_append, List.countP_singleton]

namespace Books

/-- Where an investor is in its life and whether it is busy stands in no books, and neither does what its
    client asks. -/
theorem of_eq (h : v.Books) (hw : w.IsTrader) (hsame : (w.talk, w.params, w.price, w.coins, w.cursor) =
    (v.talk, v.params, v.price, v.coins, v.cursor)) : w.Books := by
  simp only [Prod.mk.injEq] at hsame
  obtain ⟨htalk, hparams, hprice, hcoins, hcursor⟩ := hsame
  obtain ⟨_, hconversation, hc, hp, hbuyer, hseller, hsolvent⟩ := h
  have hsold : w.sold = v.sold := congrArg (succeeded · Service.order) htalk
  refine ⟨hw, ?_, ?_, ?_, ?_, ?_, ?_⟩
  · rwa [hparams, htalk]
  · rwa [hcursor, htalk]
  · rwa [hprice, htalk]
  · rwa [hparams, hcoins]
  · rwa [hparams, hcoins, hsold]
  · rwa [hparams, hsold]

theorem free (h : v.Books) : v.free.Books := h.of_eq h.trader.free (by simp [talk])

theorem ask (h : v.Books) (p : Point) : (v.askAt p).1.Books := h.of_eq h.trader rfl

/-- An answer that neither shows the market nor accepts an order is only noted down. -/
theorem heard (h : v.Books) (hallows : Allows v.params v.talk (v.request p))
    (hunseen : seen? (v.request p, reply) = none)
    (hunsold : ¬((v.request p).service? = some .order ∧ reply.refused = false)) :
    (v.heard p reply).Books := by
  have hsold : (v.heard p reply).sold = v.sold := by
    rw [sold, talk_heard, succeeded_snoc, if_neg hunsold]
    rfl
  obtain ⟨htrader, hconversation, hcursor, hprice, hbuyer, hseller, hsolvent⟩ := h
  refine ⟨htrader, ?_, ?_, ?_, hbuyer, ?_, ?_⟩
  · rw [talk_heard]
    exact .snoc reply hconversation hallows
  · rw [cursorAfter, talk_heard, looks_snoc_of_unseen hunseen]
    exact hcursor
  · rw [priceAfter, talk_heard, looks_snoc_of_unseen hunseen]
    exact hprice
  · rw [hsold]
    exact hseller
  · rw [hsold]
    exact hsolvent

/-- What a look at the market showed is learnt. -/
theorem learn {price cursor : Int} (h : v.Books)
    (hallows : Allows v.params v.talk (v.request (.asking price cursor))) (m : Market) :
    ((v.heard (.asking price cursor) (.market m)).learn m).Books := by
  have hheard : (v.heard (.asking price cursor) (.market m)).IsTrader := h.trader
  obtain ⟨hcoins, _, hparams, _⟩ := (v.heard (.asking price cursor) (.market m)).learn_keeps (m := m)
  obtain ⟨hcursor, hprice⟩ := learn_knows (m := m) hheard
  have htalk : ((v.heard (.asking price cursor) (.market m)).learn m).talk =
      v.talk ++ [(.info cursor, .market m)] := by
    rw [talk, learn_client]
    exact talk_heard
  have hsold : ((v.heard (.asking price cursor) (.market m)).learn m).sold = v.sold := by
    rw [sold, htalk, succeeded_snoc]
    rfl
  obtain ⟨_, hconversation, _, hseen, hbuyer, hseller, hsolvent⟩ := h
  refine ⟨hheard.learn m, ?_, ?_, ?_, ?_, ?_, ?_⟩
  · rw [hparams, htalk]
    exact .snoc _ hconversation hallows
  · rw [hcursor, htalk, cursorAfter_snoc_info]
  · rw [hprice, htalk, priceAfter_snoc_info, ← hseen]
    rfl
  · rw [hparams, hcoins]
    exact hbuyer
  · rw [hparams, hcoins, hsold]
    exact hseller
  · rw [hparams, hsold]
    exact hsolvent

/-- A seller that is solvent has in its books just what it has sold less than it began with. -/
theorem coins_eq (h : v.Books) (hkind : v.params.kind = .coinHeavy) (hfits : Word.Fits v.params.coins)
    (hunit : 0 < v.params.unit) (hcoins : 0 ≤ v.params.coins) :
    v.coins = v.params.coins - v.params.unit * v.sold := by
  have hsolvent := h.solvent hkind hfits hunit hcoins
  have hsold : 0 ≤ v.params.unit * v.sold := Int.mul_nonneg (Int.le_of_lt hunit) (Int.natCast_nonneg _)
  rw [h.seller hkind hfits, Word.wrap_of_fits]
  unfold Word.Fits Word.smallest Word.largest at hfits ⊢
  omega

/-- Parting with the amount of one order more, as far as a counter goes. -/
theorem wrap_sub_unit (coins unit : Int) (sold : Nat) :
    Word.wrap (Word.wrap (coins - unit * sold) - unit) = Word.wrap (coins - unit * (sold + 1 : Nat)) := by
  have hsum : coins - unit * sold + -unit = coins - unit * (sold + 1 : Nat) := by
    push_cast
    rw [Int.mul_add, Int.mul_one]
    omega
  rw [Int.sub_eq_add_neg, Word.wrap_wrap_add, hsum]

/-- A seller that is solvent and has stock can part with the amount of one order more. -/
theorem solvent_succ (h : v.Books) (hkind : v.params.kind = .coinHeavy) (hfits : Word.Fits v.params.coins)
    (hunit : 0 < v.params.unit) (hcoins : 0 ≤ v.params.coins) (hstock : v.hasStock = true) :
    v.params.unit * (v.sold + 1 : Nat) ≤ v.params.coins := by
  have heq := h.coins_eq hkind hfits hunit hcoins
  have henough : v.params.unit ≤ v.coins := by simpa [hasStock, hkind] using hstock
  push_cast
  rw [Int.mul_add, Int.mul_one]
  omega

/-- An order that was accepted is paid for, out of what is there. -/
theorem settle {price order : Int} (h : v.Books)
    (hallows : Allows v.params v.talk (v.request (.ordering price))) (hstock : v.hasStock = true) :
    (v.heard (.ordering price) (.placed order)).settle.Books := by
  have hheard : (v.heard (.ordering price) (.placed order)).IsTrader := h.trader
  obtain ⟨hcursor, hprice, _, hparams⟩ := (v.heard (.ordering price) (.placed order)).settle_keeps
  have htalk : (v.heard (.ordering price) (.placed order)).settle.talk =
      v.talk ++ [(v.request (.ordering price), .placed order)] := by
    rw [talk, settle_client]
    exact talk_heard
  have hunseen : seen? (v.request (.ordering price), .placed order) = none := rfl
  have hsold : (v.heard (.ordering price) (.placed order)).settle.sold = v.sold + 1 := by
    rw [sold, htalk, succeeded_snoc]
    rfl
  refine ⟨hheard.settle, ?_, ?_, ?_, ?_, ?_, ?_⟩
  · rw [hparams, htalk]
    exact .snoc _ h.conversation hallows
  · rw [hcursor, htalk, cursorAfter, looks_snoc_of_unseen hunseen]
    exact h.cursor
  · rw [hprice, htalk, priceAfter, looks_snoc_of_unseen hunseen]
    exact h.price
  · rw [hparams]
    intro hkind
    rw [coins_settle_buyer hkind]
    exact h.buyer hkind
  · rw [hparams, hsold]
    intro hkind hfits
    rw [coins_settle_seller hheard hkind]
    change Word.wrap (v.coins - v.params.unit) = Word.wrap (v.params.coins - v.params.unit * (v.sold + 1 : Nat))
    rw [h.seller hkind hfits, wrap_sub_unit]
  · rw [hparams, hsold]
    intro hkind hfits hunit hcoins
    exact h.solvent_succ hkind hfits hunit hcoins hstock

/-- The stretch after an answer keeps the books, if what was asked was allowed, and if there was stock
    when an order was placed. -/
theorem resumed (h : v.Books) (hallows : Allows v.params v.talk (v.request p))
    (hstock : v.hasStock = true ∨ p.trades = false) (hresumed : Resumed v aborted p reply w gain progress) :
    w.Books := by
  have hfailed (why : Fault) : (v.heard p (.failed why)).Books := by
    refine h.heard hallows ?_ (by simp [Reply.refused])
    cases p <;> rfl
  cases hresumed with
  | trouble p why => exact hfailed why
  | setback p why => exact (hfailed why).free
  | signedUp => exact (h.heard hallows rfl (by simp [request, Request.service?])).ask _
  | signedIn =>
    have hheard : (v.heard .signingIn .done).Books :=
      h.heard hallows rfl (by simp [request, Request.service?])
    exact hheard.of_eq hheard.trader rfl
  | desisted price cursor m => exact (h.learn hallows m).free
  | ordered price cursor m => exact (h.learn hallows m).ask _
  | placed price order =>
    obtain hstock | htrades := hstock
    · exact (h.settle hallows hstock).free
    · cases htrades

end Books

end ExchangeLoad.Investor
