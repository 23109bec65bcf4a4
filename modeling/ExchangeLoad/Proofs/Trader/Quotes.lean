import ExchangeLoad.Proofs.Trader.Stock

/-!
The prices of orders. The price of a trade is drawn when the trade is handed out, near the base price of the
trader and never below one. The order is placed later, by what the market quotes then: a buyer goes down to
the lowest ask, and a seller up to the highest bid. A trade carries its price to the look at the market of
its own job, so that whatever happens in between, an order keeps to the base price and to the quotes that
its job saw.
-/

namespace ExchangeLoad

open Investor

/-- The price of an order keeps to what the market quotes: nobody buys above the lowest ask or sells below the
    highest bid. -/
def Uncrossed (m : Market) (price : Int) : OrderKind → Prop
  | .buy => ∀ ask, m.lowestAsk = some ask → price ≤ ask
  | .sell => ∀ bid, m.highestBid = some bid → bid ≤ price

/-- The price of an order keeps to the base price of its trader, unless it was moved to a quote. -/
inductive Near (base : Int) (m : Market) (price : Int) : OrderKind → Prop where
  | buy (hmost : price ≤ max 1 (base + 2))
      (hleast : max 1 (base - 2) ≤ price ∨ m.lowestAsk = some price) : Near base m price .buy
  | sell (hleast : max 1 (base - 2) ≤ price)
      (hmost : price ≤ max 1 (base + 2) ∨ m.highestBid = some price) : Near base m price .sell

section Prices

variable {base price : Int}

/-- Wherever the sum wraps around, no price below one is drawn. -/
theorem Draw.one_le_price (draw : Draw) (base : Int) : 1 ≤ draw.price base := Int.le_max_right ..

/-- Where no sum leaves the range of counters, the price is drawn near the base price. -/
theorem Draw.price_near (draw : Draw) (hleast : Word.Fits (base - 2)) (hmost : Word.Fits (base + 2)) :
    max 1 (base - 2) ≤ draw.price base ∧ draw.price base ≤ max 1 (base + 2) := by
  have hshift := draw.shift.isLt
  have hsum : Word.Fits (base + ((draw.shift.val : Int) - 2)) := by
    obtain ⟨hsmallest, -⟩ := hleast
    obtain ⟨-, hlargest⟩ := hmost
    constructor <;> omega
  rw [Draw.price, Word.wrap_of_fits hsum]
  omega

theorem bookPrice_uncrossed (kind : OrderKind) (price : Int) (m : Market) :
    Uncrossed m (bookPrice kind price m) kind := by
  cases kind with
  | buy =>
    intro ask hask
    rw [bookPrice, hask, Option.elim_some]
    exact Int.min_le_right ..
  | sell =>
    intro bid hbid
    rw [bookPrice, hbid, Option.elim_some]
    exact Int.le_max_right ..

/-- What is near the base price stays near it but for the quotes. -/
theorem bookPrice_near (kind : OrderKind) (m : Market) (hleast : max 1 (base - 2) ≤ price)
    (hmost : price ≤ max 1 (base + 2)) : Near base m (bookPrice kind price m) kind := by
  cases kind with
  | buy =>
    rw [bookPrice]
    cases hask : m.lowestAsk with
    | none => exact .buy hmost (.inl hleast)
    | some ask =>
      rw [Option.elim_some]
      refine .buy (Int.le_trans (Int.min_le_left ..) hmost) ?_
      rw [hask, Option.some.injEq]
      omega
  | sell =>
    rw [bookPrice]
    cases hbid : m.highestBid with
    | none => exact .sell hleast (.inl hmost)
    | some bid =>
      rw [Option.elim_some]
      refine .sell (Int.le_trans hleast (Int.le_max_left ..)) ?_
      rw [hbid, Option.some.injEq]
      omega

/-- Only an ask below one brings a price below one. -/
theorem one_le_bookPrice (kind : OrderKind) (m : Market) (hprice : 1 ≤ price)
    (hask : kind = .buy → ∀ ask, m.lowestAsk = some ask → 1 ≤ ask) : 1 ≤ bookPrice kind price m := by
  cases kind with
  | buy =>
    rw [bookPrice]
    cases hquote : m.lowestAsk with
    | none => exact hprice
    | some ask => exact Int.le_min.mpr ⟨hprice, hask rfl ask hquote⟩
  | sell =>
    rw [bookPrice]
    cases m.highestBid with
    | none => exact hprice
    | some bid => exact Int.le_trans hprice (Int.le_max_left ..)

/-- Whatever is drawn and whatever the market quotes, a price keeps to the quotes, and to the base price where
    no sum leaves the range of counters. -/
structure Quoted (base : Int) (m : Market) (price : Int) (kind : OrderKind) : Prop where
  uncrossed : Uncrossed m price kind
  near : Word.Fits (base - 2) → Word.Fits (base + 2) → Near base m price kind
  positive : (kind = .buy → ∀ ask, m.lowestAsk = some ask → 1 ≤ ask) → 1 ≤ price

theorem quoted_bookPrice (kind : OrderKind) (draw : Draw) (base : Int) (m : Market) :
    Quoted base m (bookPrice kind (draw.price base) m) kind where
  uncrossed := bookPrice_uncrossed kind _ m
  near hleast hmost :=
    have hnear := draw.price_near hleast hmost
    bookPrice_near kind m hnear.1 hnear.2
  positive := one_le_bookPrice kind m (draw.one_le_price base)

end Prices

/-- A trade has a price that was drawn around a base price, and while its job looks at the market it is that
    price which the order is to be placed near. -/
def Duty.Aimed (base : Int) (d : Duty) : Prop :=
  ∀ label delay i price, d.task = .exec label delay (.trade i price) →
    (∃ draw : Draw, price = draw.price base) ∧
      ∀ aim cursor, d.point = some (.asking aim cursor) → aim = price

namespace Investor

/-- An order that a trader may place once it was answered so far: the last answer is that to a look, and the
    price was drawn and then moved by what the look showed. -/
def MayOrder (params : Params) (talk : List (Request × Reply)) (kind : OrderKind) (price : Int) : Prop :=
  ∃ (draw : Draw) (earlier : List (Request × Reply)) (cursor : Int) (m : Market),
    talk = earlier ++ [(.info cursor, .market m)] ∧ kind = params.kind.orderKind ∧
      price = bookPrice kind (draw.price params.base) m

/-- Each order that a trader placed could be placed after what it was answered by then. -/
def OrdersFairly (v : Investor) : Prop :=
  ∀ (n : Nat) (kind : OrderKind) (unit price : Int), v.asked[n]? = some (.order kind unit price) →
    MayOrder v.params (v.talk.take n) kind price

variable {v w : Investor} {i : Nat} {p : Point} {reply : Reply} {aborted : Bool} {gain : Int}
  {progress : Progress} {task : Task} {d : Duty}

/-- More answers leave the orders as they were. -/
theorem OrdersFairly.of_answers (h : v.OrdersFairly) (hparams : w.params = v.params)
    (hasked : w.asked = v.asked) (hwaiting : v.asked.length ≤ v.talk.length + 1) (htalk : v.talk <+: w.talk) :
    w.OrdersFairly := by
  intro n kind unit price hn
  obtain ⟨later, hlater⟩ := htalk
  rw [hasked] at hn
  obtain ⟨hbound, -⟩ := List.getElem?_eq_some_iff.mp hn
  rw [hparams, ← hlater, List.take_append_of_le_length (by omega)]
  exact h n kind unit price hn

theorem OrdersFairly.of_client (h : v.OrdersFairly) (hparams : w.params = v.params)
    (hclient : w.client = v.client) : w.OrdersFairly := by
  intro n kind unit price hn
  rw [asked, hclient] at hn
  rw [hparams, talk, hclient]
  exact h n kind unit price hn

/-- Once everything has been answered, asking keeps to this as long as an order does. -/
theorem OrdersFairly.ask (h : v.OrdersFairly) (hanswered : v.Answered)
    (hprice : ∀ kind unit price, v.request p = .order kind unit price →
      MayOrder v.params v.talk kind price) : (v.askAt p).1.OrdersFairly := by
  intro n kind unit price hn
  have hlength : v.asked.length = v.talk.length := by
    rw [show v.asked = v.talk.map Prod.fst from hanswered, List.length_map]
  change MayOrder v.params (v.talk.take n) kind price
  rw [asked_askAt] at hn
  by_cases hold : n < v.asked.length
  · rw [List.getElem?_append_left hold] at hn
    exact h n kind unit price hn
  · obtain ⟨hbound, -⟩ := List.getElem?_eq_some_iff.mp hn
    rw [List.length_append, List.length_singleton] at hbound
    obtain rfl : n = v.talk.length := by omega
    rw [List.take_length]
    rw [← hlength, List.getElem?_concat_length] at hn
    exact hprice kind unit price (Option.some.inj hn)

/-- What a trader is to do has prices that were drawn for it, and its orders keep to what it was answered. -/
structure Priced (v : Investor) (duties : Multiset Duty) : Prop where
  aims : ∀ d ∈ duties, d.Aimed v.params.base
  orders : v.OrdersFairly

theorem OrdersFairly.opening (h : v.OrdersFairly) (hanswered : v.Answered)
    (hopening : v.opening? aborted task = some (w, progress)) : w.OrdersFairly := by
  cases opened_of_opening hopening with
  | quit => exact h
  | signUp => exact h.ask hanswered (by simp [request])
  | look => exact h.ask hanswered (by simp [request])

/-- A job that looks at the market has the price that was drawn for its trade. -/
theorem Engaged.aim {aim cursor : Int} (h : v.Engaged i ⟨task, some (.asking aim cursor)⟩)
    (haimed : Duty.Aimed v.params.base ⟨task, some (.asking aim cursor)⟩) :
    ∃ label delay, ∃ draw : Draw, task = .exec label delay (.trade i aim) ∧ aim = draw.price v.params.base := by
  cases h with
  | asking label delay price =>
    obtain ⟨⟨draw, hdraw⟩, haim⟩ := haimed label delay i price rfl
    obtain rfl := haim aim v.cursor rfl
    exact ⟨label, delay, draw, rfl, hdraw⟩

theorem OrdersFairly.resumed (h : v.OrdersFairly) (hengaged : v.Engaged i ⟨task, some p⟩)
    (hasked : v.asked = v.talk.map Prod.fst ++ [v.request p]) (haimed : Duty.Aimed v.params.base ⟨task, some p⟩)
    (hresumed : Resumed v aborted p reply w gain progress) : w.OrdersFairly := by
  have hheard : (v.heard p reply).OrdersFairly := by
    refine h.of_answers rfl rfl ?_ (talk_heard ▸ List.prefix_append ..)
    rw [hasked, List.length_append, List.length_map, List.length_singleton]
  have hanswered : (v.heard p reply).Answered := .heard hasked
  cases hresumed with
  | trouble => exact hheard
  | setback => exact hheard.of_client (by simp) free_client
  | signedUp => exact hheard.ask hanswered (by simp [request])
  | signedIn => exact hheard.of_client rfl rfl
  | desisted => exact hheard.of_client (by simp) (by simp)
  | ordered aim cursor m =>
    have hlearnt : ((v.heard (.asking aim cursor) (.market m)).learn m).OrdersFairly :=
      hheard.of_client (by simp) learn_client
    refine hlearnt.ask (hanswered.of_client learn_client) ?_
    rintro kind unit price ⟨⟩
    obtain ⟨label, delay, draw, -, hdraw⟩ := hengaged.aim haimed
    refine ⟨draw, v.talk, cursor, m, ?_, rfl, ?_⟩
    · rw [talk, learn_client]
      exact talk_heard
    · simp [hdraw]
  | placed => exact hheard.of_client (by simp) (by simp)

end Investor

namespace Run

variable {scene : Scene} {i : Nat} {r r₀ s t : Run} {a : Step} {v w : Investor} {kind : OrderKind}
  {unit price : Int}

/-- The stretch of a job in which the trader `v` with number `i` places an order. The job has heard of its
    own look at the market, and moves the price that was drawn for its trade by what this look showed. -/
inductive Places (a : Step) (r : Run) (i : Nat) (v : Investor) (kind : OrderKind) (price : Int) : Prop where
  | mk (e : Nat) (x : Execution) (label : String) (delay : Nat) (draw : Draw) (cursor : Int) (m : Market)
      (ha : a = .hear e (.market m)) (hx : r.executions[e]? = some x)
      (htask : x.task = .exec label delay (.trade i (draw.price v.params.base)))
      (hlooks : x.phase = .asking (.asking (draw.price v.params.base) cursor))
      (hkind : kind = v.params.kind.orderKind) (hprice : price = bookPrice kind (draw.price v.params.base) m)
      (hquoted : Quoted v.params.base m price kind)

/-- An order that was not there before has been placed by a job of the trader's own. -/
theorem Share.places (h : Share a r t i v w) (hstanding : Standing i v (r.duties i))
    (hpriced : v.Priced (r.duties i)) (hplaced : .order kind unit price ∈ w.asked.drop v.asked.length) :
    Places a r i v kind price := by
  have hnew : w.asked ≠ v.asked := by
    intro hsame
    rw [hsame, List.drop_length] at hplaced
    cases hplaced
  cases h with
  | aside => exact absurd rfl hnew
  | retired => exact absurd rfl hnew
  | started => exact absurd rfl hnew
  | handed draw w task hnext => exact absurd (by rw [asked, next_client hnext, asked]) hnew
  | opened task rest w progress _ hopening =>
    cases opened_of_opening hopening with
    | quit => exact absurd rfl hnew
    | signUp => simp [asked_askAt, request] at hplaced
    | look => simp [asked_askAt, request] at hplaced
  | heard e x _ p reply _ _ _ rest ha hx hphase _ _ _ hbefore hresumed =>
    obtain ⟨haims, -⟩ := hpriced
    rw [hbefore] at hstanding haims
    have haimed := haims ⟨x.task, some p⟩ (by simp)
    obtain ⟨-, hengaged, -⟩ := hstanding.engaged_of_add
    have hheard : (v.heard p reply).client.asked = v.client.asked := rfl
    cases hresumed with
    | trouble => exact absurd rfl hnew
    | setback => exact absurd (by simp [asked, hheard]) hnew
    | signedUp => simp [asked_askAt, request] at hplaced
    | signedIn => exact absurd rfl hnew
    | desisted => exact absurd (by simp [asked, hheard]) hnew
    | ordered aim cursor m =>
      obtain ⟨label, delay, draw, htask, rfl⟩ := hengaged.aim haimed
      have hlearnt : ((v.heard (.asking (draw.price v.params.base) cursor) (.market m)).learn m).asked =
          v.asked := by simp [asked, hheard]
      rw [asked_askAt, hlearnt, List.drop_left, List.mem_singleton] at hplaced
      simp only [request, learn_keeps, heard_keeps, Request.order.injEq] at hplaced
      obtain ⟨rfl, -, rfl⟩ := hplaced
      exact .mk e x label delay draw cursor m ha hx htask hphase rfl rfl (quoted_bookPrice _ draw _ m)
    | placed => exact absurd (by simp [asked, hheard]) hnew

end Run

end ExchangeLoad
