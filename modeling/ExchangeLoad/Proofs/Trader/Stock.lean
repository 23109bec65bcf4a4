import ExchangeLoad.Proofs.Trader.Discipline

/-!
The stock of a trader. Whether there is stock for an order is looked at when the trade is handed out, and
the stock is gone only when the order has been accepted, perhaps much later. In between nothing else of the
trader is under way, so that a seller never sells what it does not have.
-/

namespace ExchangeLoad

open Investor

namespace Investor

variable {v w : Investor} {p : Point} {reply : Reply} {aborted : Bool} {gain : Int} {progress : Progress}
  {task : Task} {draw : Draw} {number : Nat}

/-- Only an order that is accepted changes the coins. -/
theorem Resumed.coins_eq (h : Resumed v aborted p reply w gain progress) :
    w.coins = v.coins ∨ (∃ price, p = .ordering price) ∧ ∃ order, reply = .placed order := by
  cases h with
  | signedIn => exact .inl rfl
  | placed price order => exact .inr ⟨⟨price, rfl⟩, order, rfl⟩
  | _ => simp

theorem Resumed.params_eq (h : Resumed v aborted p reply w gain progress) : w.params = v.params := by
  cases h <;> simp

theorem next_keeps (hv : v.IsTrader) (h : v.next number draw = some (w, task)) :
    w.params = v.params ∧ w.coins = v.coins := by
  obtain ⟨_, rfl, _⟩ := traded_of_next hv h
  exact ⟨rfl, rfl⟩

theorem opening_keeps (h : v.opening? aborted task = some (w, progress)) :
    w.params = v.params ∧ w.coins = v.coins := by
  cases opened_of_opening h <;> exact ⟨rfl, rfl⟩

theorem next_of_no_stock (hv : v.IsTrader) (hstock : v.hasStock = false) : v.next number draw = none := by
  rw [next_trader hv, hstock]
  simp

end Investor

namespace Run

variable {scene : Scene} {i : Nat} {r r₀ s t : Run} {a : Step} {v w : Investor}

theorem Share.params_eq (h : Share a r t i v w) (hv : v.IsTrader) : w.params = v.params := by
  cases h with
  | aside => rfl
  | retired => rfl
  | started => rfl
  | handed draw w task hnext => exact (next_keeps hv hnext).1
  | opened task rest w progress _ hopening => exact (opening_keeps hopening).1
  | heard _ _ _ _ _ _ _ _ _ _ _ _ _ _ _ _ hresumed => exact hresumed.params_eq

/-- Coins change only with the answer that accepts an order, and with stock for the order. -/
theorem Share.coins_eq (h : Share a r t i v w) (hv : v.Books) (hstanding : Standing i v (r.duties i)) :
    w.coins = v.coins ∨ (∃ e order, a = .hear e (.placed order)) ∧ v.hasStock = true := by
  cases h with
  | aside => exact .inl rfl
  | retired => exact .inl rfl
  | started => exact .inl rfl
  | handed draw w task hnext => exact .inl (next_keeps hv.trader hnext).2
  | opened task rest w progress _ hopening => exact .inl (opening_keeps hopening).2
  | heard e x _ p reply _ _ _ _ ha _ _ _ _ _ hbefore hresumed =>
    rw [hbefore] at hstanding
    obtain hcoins | ⟨⟨price, rfl⟩, order, rfl⟩ := hresumed.coins_eq
    · exact .inl hcoins
    -- The duty has been a trade since it was handed out, when there was stock.
    · obtain hstock | htrades := (hstanding.engaged_of_add.2.1.allows hv).2
      · exact .inr ⟨⟨e, order, ha⟩, hstock⟩
      · cases htrades

/-- A trader without stock stays without. -/
theorem Becomes.no_stock (hscene : scene.TradersOnly) (h : Becomes scene Step.SparesInvestors r t)
    (hr : r.Disciplined) (hv : r.investors[i]? = some v) (hstock : v.hasStock = false) :
    ∃ w, t.investors[i]? = some w ∧ w.hasStock = false := by
  refine h.shares (fun _ w => w.hasStock = false) hscene ?_ hr hv hstock
  intro r a t i _ v w hr hstock hv hshare
  have hbooks := hr.books i v hv
  obtain hcoins | ⟨_, hstock'⟩ := hshare.coins_eq hbooks (hr.standing i v hv)
  · exact (hasStock_congr (hshare.params_eq hbooks.trader) hcoins).trans hstock
  · cases hstock.symm.trans hstock'

/-- In every history of a run of traders, whatever calls fail, whatever work is thrown away, whoever
    retires, and whenever it is aborted: a buyer keeps the coins that it began with, and a seller has those
    that it began with less what it sold, as far as a counter goes. If it sells anything in an order and
    began with no debt, it never comes to have less than none, so that no more orders of it are accepted
    than its coins allowed. Coins change in no step but that of the answer that accepts an order. Once a
    seller has less than an order takes, it never hands out work again. -/
theorem coins_eq_unsold (hscene : scene.TradersOnly) (h₀ : r₀.Unbegun)
    (h : Becomes scene Step.SparesInvestors r₀ r) (hv : r.investors[i]? = some v) :
    (v.params.kind = .creditHeavy → v.coins = v.params.coins) ∧
    (v.params.kind = .coinHeavy → Word.Fits v.params.coins →
      v.coins = Word.wrap (v.params.coins - v.params.unit * v.sold) ∧
      (0 < v.params.unit → 0 ≤ v.params.coins →
        v.coins = v.params.coins - v.params.unit * v.sold ∧ 0 ≤ v.coins ∧
          v.sold ≤ v.params.coins / v.params.unit)) ∧
    (∀ a t, a.SparesInvestors → r.step scene a = some t → ∃ w, t.investors[i]? = some w ∧
      w.params = v.params ∧ (w.coins ≠ v.coins → ∃ e order, a = .hear e (.placed order))) ∧
    (v.params.kind = .coinHeavy → v.coins < v.params.unit →
      ∀ s, Becomes scene Step.SparesInvestors r s → ∃ w, s.investors[i]? = some w ∧
        ∀ draw, w.next i draw = none) := by
  have hr := h.disciplined hscene h₀.disciplined
  have hbooks := hr.books i v hv
  refine ⟨hbooks.buyer, ?_, ?_, ?_⟩
  · intro hkind hfits
    refine ⟨hbooks.seller hkind hfits, fun hunit hcoins => ?_⟩
    have hsolvent := hbooks.solvent hkind hfits hunit hcoins
    have hexact := hbooks.coins_eq hkind hfits hunit hcoins
    refine ⟨hexact, ?_, (Int.le_ediv_iff_mul_le hunit).mpr ?_⟩
    · rw [hexact]
      exact Int.sub_nonneg_of_le hsolvent
    · rw [Int.mul_comm]
      exact hsolvent
  · intro a t ha hstep
    obtain ⟨w, hw, hshare⟩ := step_share hr ha hstep hv
    refine ⟨w, hw, hshare.params_eq hbooks.trader, fun hne => ?_⟩
    obtain hcoins | ⟨haccepted, _⟩ := hshare.coins_eq hbooks (hr.standing i v hv)
    · exact absurd hcoins hne
    · exact haccepted
  · intro hkind hless s hs
    have hstock : v.hasStock = false := by
      rw [hasStock, hkind]
      exact decide_eq_false (Int.not_le.mpr hless)
    obtain ⟨w, hw, hstock'⟩ := hs.no_stock hscene hr hv hstock
    have htrader := ((hs.disciplined hscene hr).books i w hw).trader
    exact ⟨w, hw, fun draw => next_of_no_stock htrader hstock'⟩

/-- A seller of five coins places three orders of two: one is accepted, the next turned down, and the last
    accepted. -/
theorem coins_eq_unsold_of_turned_down_order :
    let scene := Scene.plain 1 0
    let order (e : Nat) (reply : Reply) : List Step := [.enter .tick, .proceed e none, .execute 0, .look e,
      .hear e (.market default), .hear e reply]
    let steps : List Step := [.enter .tick, .proceed 0 none, .execute 0, .look 0, .hear 0 .done, .hear 0 .done] ++
      order 1 (.placed 1) ++ order 2 (.failed (.plain "no")) ++ order 3 (.placed 2)
    ∃ r v, ofSeller.play scene steps = some r ∧ r.investors[0]? = some v ∧ v.sold = 2 ∧
      v.coins = 5 - 2 * 2 ∧ (2 : Int) ≤ 5 / 2 ∧ ∀ s, Becomes scene Step.SparesInvestors r s →
        ∃ w, s.investors[0]? = some w ∧ ∀ draw, w.next 0 draw = none := by
  intro scene order steps
  have hplayed : (ofSeller.play scene steps).bind (fun r => (r.investors[0]?).map fun v => (v.params, v.sold)) =
      some (.coinHeavy 0 5 2 10, 2) := by decide +kernel
  obtain ⟨r, hr, hinvestor⟩ := Option.bind_eq_some_iff.mp hplayed
  obtain ⟨v, hv, hvalues⟩ := Option.map_eq_some_iff.mp hinvestor
  obtain ⟨hparams, hsold⟩ := Prod.mk.inj hvalues
  have hsteps : ∀ a ∈ steps, a.SparesInvestors := by simp [steps, order, Step.SparesInvestors]
  obtain ⟨_, hseller, _, hspent⟩ := coins_eq_unsold (fun _ _ => rfl) ofSeller_unbegun
    (becomes_of_play hsteps hr) hv
  rw [hparams, hsold] at hseller
  obtain ⟨_, hexact⟩ := hseller rfl (by decide)
  obtain ⟨hcoins, _, hbound⟩ := hexact (by decide) (by decide)
  refine ⟨r, v, hr, hv, hsold, hcoins, hbound, hspent (by rw [hparams]; rfl) ?_⟩
  rw [hcoins, hparams]
  decide

end Run

end ExchangeLoad
