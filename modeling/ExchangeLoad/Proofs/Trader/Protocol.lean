import ExchangeLoad.Proofs.Trader.Flight

/-!
The protocol of a trader. Nothing in a client keeps it from asking for anything at any time; that a trader
signs up, then in, and then goes round with looks and orders comes from where it stands with its work.
-/

namespace ExchangeLoad

open Investor

namespace Investor

/-- What a trader has asked follows the protocol, and its price is what the market showed it. -/
structure Protocol (v : Investor) : Prop where
  completes : ∃ rest, services v.asked ++ rest ∈ Service.protocol
  /-- Requests are answered in the order in which they are made. -/
  answered : v.talk.map Prod.fst = v.asked.take v.talk.length
  /-- No request is made while another waits for its answer. -/
  waiting : v.asked.length ≤ v.talk.length + 1
  /-- What was answered before a request allows it. -/
  allowed : ∀ (n : Nat) (request : Request), v.asked[n]? = some request →
    Allows v.params (v.talk.take n) request
  signUp : ∀ n : Nat, v.asked[n]? = some .signUp → n = 0
  signIn : ∀ n : Nat, v.asked[n]? = some .signIn → n = 1
  price : v.price = priceAfter v.talk

variable {i : Nat} {v : Investor} {duties : Multiset Duty} {task : Task} {p : Point}

theorem Engaged.isTradeOf (h : v.Engaged i ⟨task, some p⟩) (htrades : p.trades = true) :
    task.IsTradeOf i := by
  cases h with
  | signingUp => cases htrades
  | signingIn => cases htrades
  | asking => exact rfl
  | ordering => exact rfl

/-- What a trader has asked is what a conversation asked that goes on for one answer at most after what the
    trader has been answered. -/
theorem Standing.conversation (h : Standing i v duties) (hv : v.Books) : ∃ waiting,
    Conversation v.params (v.talk ++ waiting) ∧ v.asked = (v.talk ++ waiting).map Prod.fst ∧
    waiting.length ≤ 1 := by
  cases h with
  | resting _ hasked =>
    exact ⟨[], by simpa using hv.conversation, by simpa [Answered] using hasked, Nat.zero_le 1⟩
  | engaged d h hasked =>
    obtain ⟨task, point⟩ := d
    cases point with
    | none => exact ⟨[], by simpa using hv.conversation, by simpa using hasked, Nat.zero_le 1⟩
    | some p =>
      refine ⟨[(v.request p, .done)], .snoc _ hv.conversation (h.allows hv).1, ?_, Nat.le_refl 1⟩
      rw [hasked, List.map_append]
      rfl

theorem Standing.protocol (h : Standing i v duties) (hv : v.Books) : v.Protocol := by
  obtain ⟨waiting, hconversation, hasked, hwaiting⟩ := h.conversation hv
  have hlength : v.asked.length = v.talk.length + waiting.length := by
    rw [hasked, List.length_map, List.length_append]
  have hallowed (n : Nat) (request : Request) (hn : v.asked[n]? = some request) :
      Allows v.params (v.talk.take n) request ∧ n ≤ v.talk.length := by
    obtain ⟨hbound, -⟩ := List.getElem?_eq_some_iff.mp hn
    -- At most the last request waits, so that all answers before it are in.
    have hle : n ≤ v.talk.length := by omega
    rw [hasked, List.getElem?_map] at hn
    obtain ⟨x, hx, rfl⟩ := Option.map_eq_some_iff.mp hn
    have hallows := hconversation.allows hx
    rw [List.take_append_of_le_length hle] at hallows
    exact ⟨hallows, hle⟩
  have hplace {n : Nat} {earlier : List (Request × Reply)} (hn : n ≤ v.talk.length)
      (htake : v.talk.take n = earlier) : n = earlier.length := by
    rw [← htake, List.length_take, Nat.min_eq_left hn]
  refine ⟨?_, ?_, by omega, fun n request hn => (hallowed n request hn).1, ?_, ?_, hv.price⟩
  · rw [hasked]
    exact hconversation.completes
  · rw [hasked, List.map_append, List.take_left' (List.length_map ..)]
  · intro n hn
    obtain ⟨hallows, hle⟩ := hallowed n _ hn
    cases hallows with
    | signUp hfirst => exact hplace hle hfirst
  · intro n hn
    obtain ⟨hallows, hle⟩ := hallowed n _ hn
    cases hallows with
    | signIn hsignedUp => exact hplace hle hsignedUp

end Investor

namespace Run

variable {scene : Scene} {i : Nat} {r r₀ t : Run} {a : Step} {v w : Investor}

/-- What the trader with number `i` asks in a step. An order is placed only in the stretch of the job of a
    trade that learns that the look at the market of this job succeeded. -/
inductive Asks (a : Step) (r t : Run) (i : Nat) (v w : Investor) : Prop where
  | nothing (h : w.asked = v.asked)
  | signUp (h : w.asked = v.asked ++ [.signUp])
  | signIn (h : w.asked = v.asked ++ [.signIn])
  | info (cursor : Int) (h : w.asked = v.asked ++ [.info cursor])
  | order (e : Nat) (m : Market) (x y : Execution) (base cursor price : Int) (ha : a = .hear e (.market m))
      (hx : r.executions[e]? = some x) (htrade : x.task.IsTradeOf i)
      (hlooks : x.phase = .asking (.asking base cursor))
      (hlooked : w.talk = v.talk ++ [(.info cursor, .market m)]) (hy : t.executions[e]? = some y)
      (htask : y.task = x.task) (horders : y.phase = .asking (.ordering price))
      (h : w.asked = v.asked ++ [.order v.params.kind.orderKind v.params.unit price])

theorem Share.asks (h : Share a r t i v w) (hstanding : Standing i v (r.duties i)) : Asks a r t i v w := by
  cases h with
  | aside => exact .nothing rfl
  | retired => exact .nothing rfl
  | started => exact .nothing rfl
  | handed draw w task hnext => exact .nothing (by rw [asked, next_client hnext, asked])
  | opened task rest w progress _ hopening =>
    cases opened_of_opening hopening with
    | quit => exact .nothing rfl
    | signUp => exact .signUp asked_askAt
    | look => exact .info v.cursor asked_askAt
  | heard e x y p reply w gain progress rest ha hx hphase hy htask hphase' hbefore hresumed =>
    have hheard : (v.heard p reply).client.asked = v.client.asked := rfl
    cases hresumed with
    | trouble => exact .nothing (by simp)
    | setback => exact .nothing (by simp [asked, hheard])
    | signedUp => exact .signIn (asked_askAt.trans (by simp [request]))
    | signedIn => exact .nothing rfl
    | desisted => exact .nothing (by simp [asked, hheard])
    | ordered base cursor m =>
      rw [hbefore] at hstanding
      have htrade := hstanding.engaged_of_add.2.1.isTradeOf rfl
      have hlearnt : ((v.heard (.asking base cursor) (.market m)).learn m).client =
          (v.heard (.asking base cursor) (.market m)).client := learn_client
      refine .order e m x y base cursor _ ha hx htrade hphase ?_ hy htask hphase' ?_
      · rw [talk, askAt, Client.ask, hlearnt]
        exact talk_heard
      · rw [asked_askAt, asked, hlearnt]
        simp [request, asked, hheard]
    | placed => exact .nothing (by simp [asked, hheard])

/-- In every history of a run of traders, whatever calls fail, whatever work is thrown away, whoever
    retires, and whenever it is aborted: what the client of a trader asks follows the protocol of signing
    up, signing in, and rounds of a look with perhaps an order. Each request is made when the answers before
    it allow it, a look with the cursor that the latest look told, and an order by the job whose look has
    just succeeded. The price of a trader is the last one that a look showed it. -/
theorem asked_follows_protocol (hscene : scene.TradersOnly) (h₀ : r₀.Unbegun)
    (h : Becomes scene Step.SparesInvestors r₀ r) (hv : r.investors[i]? = some v) :
    v.Protocol ∧ ∀ (a : Step) (t : Run), a.SparesInvestors → r.step scene a = some t →
      ∃ w, t.investors[i]? = some w ∧ Asks a r t i v w := by
  have hr := h.disciplined hscene h₀.disciplined
  have hstanding := hr.standing i v hv
  refine ⟨hstanding.protocol (hr.books i v hv), fun a t ha hstep => ?_⟩
  obtain ⟨w, hw, hshare⟩ := step_share hr ha hstep hv
  exact ⟨w, hw, hshare.asks hstanding⟩

/-- A seller whose first order fails goes on with the cursor that its first look told. -/
theorem asked_follows_protocol_of_failed_order :
    let scene := Scene.plain 1 0
    let steps : List Step := [.enter .tick, .proceed 0 none, .execute 0, .look 0, .hear 0 .done, .hear 0 .done,
      .enter .tick, .proceed 1 none, .execute 0, .look 1, .hear 1 (.market ⟨7, none, none, [12]⟩),
      .hear 1 (.failed (.plain "no")), .enter .tick, .proceed 2 none, .execute 0, .look 2]
    ∃ r v t w, ofSeller.play scene steps = some r ∧ r.investors[0]? = some v ∧
      v.asked = [.signUp, .signIn, .info 0, .order .sell 2 10, .info 7] ∧ v.price = 12 ∧ v.Protocol ∧
      r.step scene (.hear 2 (.market .blank)) = some t ∧ t.investors[0]? = some w ∧
      Asks (.hear 2 (.market .blank)) r t 0 v w := by
  intro scene steps
  have hplayed : (ofSeller.play scene steps).bind (fun r => (r.investors[0]?).bind fun v =>
      (r.step scene (.hear 2 (.market .blank))).map fun _ => (v.asked, v.price)) =
      some ([.signUp, .signIn, .info 0, .order .sell 2 10, .info 7], 12) := by
    decide +kernel
  obtain ⟨r, hr, hplayed⟩ := Option.bind_eq_some_iff.mp hplayed
  obtain ⟨v, hv, hplayed⟩ := Option.bind_eq_some_iff.mp hplayed
  obtain ⟨t, ht, hvalues⟩ := Option.map_eq_some_iff.mp hplayed
  obtain ⟨hasked, hprice⟩ := Prod.mk.inj hvalues
  have hsteps : ∀ a ∈ steps, a.SparesInvestors := by simp [steps, Step.SparesInvestors]
  obtain ⟨hprotocol, hasks⟩ := asked_follows_protocol (fun _ _ => rfl) ofSeller_unbegun
    (becomes_of_play hsteps hr) hv
  obtain ⟨w, hw, hasks⟩ := hasks _ t (by simp [Step.SparesInvestors]) ht
  exact ⟨r, v, t, w, hr, hv, hasked, hprice, hprotocol, ht, hw, hasks⟩

end Run

end ExchangeLoad
