import ExchangeLoad.Proofs.Trader.Share

/-!
Discipline lasts. Whatever becomes of a trader in a step, its books stay in order and it stands where its
duties say; so they do in every history of a run of traders that begins with none of them started, unless
somebody outside changes an investor.
-/

namespace ExchangeLoad

open Investor

namespace Investor

variable {v w : Investor} {task : Task} {aborted : Bool} {progress : Progress} {draw : Draw} {number : Nat}

theorem IsNew.isTrader (h : v.IsNew) : v.IsTrader := by
  obtain ⟨client, params, _, _, rfl⟩ := h
  exact ⟨false, params.coins, 0, rfl⟩

theorem IsNew.books (h : v.IsNew) : v.Books := by
  have htrader := h.isTrader
  obtain ⟨client, params, _, hanswers, rfl⟩ := h
  have htalk : talk (fresh client params (.newTrader params)) = [] := by simp [talk, fresh, hanswers]
  have hsold : sold (fresh client params (.newTrader params)) = 0 := by rw [sold, htalk]; rfl
  refine ⟨htrader, ?_, ?_, ?_, fun _ => rfl, ?_, ?_⟩
  · rw [htalk]
    exact .nil
  · rw [htalk]
    rfl
  · rw [htalk]
    rfl
  · intro _ hfits
    rw [hsold, Int.natCast_zero, Int.mul_zero, Int.sub_zero]
    exact (Word.wrap_of_fits hfits).symm
  · intro _ _ _ hcoins
    rw [hsold, Int.natCast_zero, Int.mul_zero]
    exact hcoins

theorem IsNew.standing (h : v.IsNew) : Standing number v 0 := by
  obtain ⟨client, params, hasked, hanswers, rfl⟩ := h
  have htalk : talk (fresh client params (.newTrader params)) = [] := by simp [talk, fresh, hanswers]
  refine .resting (.unstarted rfl htalk) ?_
  rw [Answered, htalk]
  simp [asked, fresh, hasked]

theorem Books.start (h : v.Books) : (v.start number).1.Books := h.of_eq (start_ofTrader h.trader number).1 rfl

theorem Books.next (h : v.Books) (hnext : v.next number draw = some (w, task)) : w.Books := by
  obtain ⟨_, rfl, _⟩ := traded_of_next h.trader hnext
  exact h.of_eq ⟨true, v.coins, v.cursor, rfl⟩ rfl

theorem Books.opening (h : v.Books) (hopening : v.opening? aborted task = some (w, progress)) : w.Books := by
  cases opened_of_opening hopening with
  | quit => exact h
  | signUp => exact h.ask .signingUp
  | look => exact h.ask _

end Investor

namespace Run

variable {scene : Scene} {c e i : Nat} {r s t : Run} {a : Step} {v w : Investor}

theorem Share.books (h : Share a r t i v w) (hbooks : v.Books) (hstanding : Standing i v (r.duties i)) :
    w.Books := by
  cases h with
  | aside => exact hbooks
  | retired => exact hbooks.of_eq hbooks.trader rfl
  | started => exact hbooks.start
  | handed draw w task hnext => exact hbooks.next hnext
  | opened task rest w progress _ hopening => exact hbooks.opening hopening
  | heard _ x _ p _ _ _ _ _ _ _ _ _ _ _ hbefore hresumed =>
    rw [hbefore] at hstanding
    obtain ⟨hallows, hstock⟩ := hstanding.engaged_of_add.2.1.allows hbooks
    exact hbooks.resumed hallows hstock hresumed

theorem Share.standing (h : Share a r t i v w) (hv : v.IsTrader) (hstanding : Standing i v (r.duties i)) :
    Standing i w (t.duties i) := by
  cases h with
  | aside lost hlost hduties =>
    rw [hduties] at hstanding
    exact hstanding.lose hlost
  | retired _ hduties =>
    rw [hduties]
    exact hstanding.retire
  | started hstage _ hduties =>
    rw [hduties]
    exact hstanding.start hv hstage
  | handed draw w task hnext hduties =>
    rw [hduties]
    exact hstanding.next hv hnext
  | opened task rest w progress hbefore hopening hduties =>
    rw [hbefore] at hstanding
    rw [hduties]
    exact hstanding.opening hopening
  | heard _ x _ p _ _ _ _ _ _ _ _ _ _ _ hbefore hresumed hduties =>
    rw [hbefore] at hstanding
    rw [hduties]
    exact hstanding.resumed hresumed

/-- Only somebody who is in the registry by then is started. -/
theorem Share.unstarted (h : Share a r t i v w) (hv : v.IsTrader) (hstanding : Standing i v (r.duties i))
    (hstage : v.stage = .notStarted) : w.stage = .notStarted ∨ i ∈ t.registry.entries := by
  have hidle {task : Task} {rest : Multiset Duty} {point : Option Point} :
      r.duties i ≠ rest + {⟨task, point⟩} := by
    intro hbefore
    rw [hbefore] at hstanding
    exact hstanding.engaged_of_add.2.1.stage_ne hstage
  cases h with
  | aside => exact .inl hstage
  | retired => exact .inl hstage
  | started _ hentered => exact .inr hentered
  | handed draw w task hnext =>
    obtain ⟨⟨hsignedIn, _⟩, _⟩ := traded_of_next hv hnext
    cases hsignedIn.symm.trans hstage
  | opened _ _ _ _ hbefore => exact absurd hbefore hidle
  | heard _ _ _ _ _ _ _ _ _ _ _ _ _ _ _ hbefore => exact absurd hbefore hidle

/-- Nobody comes to be on the way into the registry but who was so before, or is new. -/
theorem Flow.pending (h : Flow a r t) (hi : i ∈ t.pending) : i ∈ r.pending ∨ i = r.investors.size := by
  rw [Run.pending, Multiset.mem_add] at hi ⊢
  cases h with
  | keep hawaiting hdepositing =>
    rw [hawaiting, hdepositing] at hi
    exact .inl hi
  | lose _ hawaiting hdepositing =>
    obtain hi | hi := hi
    · exact .inl (.inl (Multiset.mem_of_le (Multiset.map_le_map hawaiting) hi))
    · exact .inl (.inr (Multiset.mem_of_le (Multiset.map_le_map hdepositing) hi))
  | recruit id params _ hawaiting hdepositing =>
    rw [hawaiting, hdepositing, Multiset.map_add, Multiset.mem_add, Multiset.map_singleton,
      Multiset.mem_singleton] at hi
    obtain (hi | hi) | hi := hi
    · exact .inl (.inl hi)
    · exact .inr hi
    · exact .inl (.inr hi)
  | fund id params _ hawaiting hdepositing =>
    rw [hawaiting, hdepositing, Multiset.map_add, Multiset.mem_add, Multiset.map_singleton,
      Multiset.mem_singleton] at hi
    obtain hi | hi | hi := hi
    · exact .inl (.inl hi)
    · exact .inl (.inr hi)
    · exact .inr hi
  | deposit j credit hawaiting hdepositing =>
    rw [hdepositing, Multiset.map_add, Multiset.mem_add, Multiset.map_singleton, Multiset.mem_singleton] at hi
    rw [hawaiting, Multiset.map_add, Multiset.mem_add, Multiset.map_singleton, Multiset.mem_singleton]
    obtain hi | hi | hi := hi
    · exact .inl (.inl (.inl hi))
    · exact .inl (.inr hi)
    · exact .inl (.inl (.inr hi))
  | register j deposit _ hawaiting hdepositing =>
    rw [hawaiting] at hi
    rw [hdepositing, Multiset.map_add, Multiset.mem_add]
    obtain hi | hi := hi
    · exact .inl (.inl hi)
    · exact .inl (.inr (.inl hi))

theorem CallMove.unbuilt {x : Control} (hr : r.Disciplined) (hscene : scene.TradersOnly)
    (hx : r.controls[c]? = some x) (h : CallMove scene c r x a t) (hnone : r.investors[i]? = none) :
    t.duties i = 0 ∧ ∀ w, t.investors[i]? = some w → w.IsNew := by
  have hunbuilt := hr.unbuilt i hnone
  obtain ⟨y, hturn⟩ := h.turn hx
  have hsame (hgain : y.stand.outlay.flatMap (Task.unbegun i) = x.stand.outlay.flatMap (Task.unbegun i)) :
      t.duties i = 0 := by
    have hduties := hturn.duties_of_gain (i := i) [] hx (by rw [hgain, List.append_nil])
    rw [hduties, hunbuilt, Multiset.coe_nil, add_zero]
  have hkept (hinvestors : t.investors[i]? = none) (w : Investor) (hw : t.investors[i]? = some w) :
      w.IsNew := by
    cases hinvestors.symm.trans hw
  cases h.muster hx hturn.control with
  | keep hroster houtlay =>
    refine ⟨hsame (by rw [houtlay]), hkept ?_⟩
    rw [show t.investors = r.investors from congrArg Prod.fst hroster, hnone]
  | lose hroster houtlay =>
    have hduties := (hturn.duties_of_loss (i := i) hx houtlay).symm.trans hunbuilt
    refine ⟨Multiset.le_zero.mp ((Multiset.le_add_right _ _).trans_eq hduties), hkept ?_⟩
    rw [show t.investors = r.investors from congrArg Prod.fst hroster, hnone]
  | build u tasks hnew hroster hjobs houtlay =>
    have hgain : tasks.flatMap (Task.unbegun i) = [] :=
      List.flatMap_eq_nil_iff.mpr fun task htask => unbegun_other (by rw [hjobs task htask]; simp)
    refine ⟨hsame (by rw [houtlay, List.flatMap_append, hgain, List.append_nil]), fun w hw => ?_⟩
    have hinvestors : t.investors = r.investors.push u := congrArg Prod.fst hroster
    rw [hinvestors, Array.getElem?_push, hnone] at hw
    split at hw
    · rw [← Option.some.inj hw]
      exact hnew hscene
    · cases hw
  | register slot j deposit tasks accepted hstand hroster houtlay =>
    obtain ⟨hinvestor, hgain⟩ := startInvestor_none hr.traders hnone j
    refine ⟨hsame (by rw [houtlay, List.flatMap_append, hgain, List.append_nil]), hkept ?_⟩
    rw [show t.investors = (r.startInvestor j).1.investors from congrArg Prod.fst hroster, hinvestor]
  | tick hqueued _ hroster houtlay =>
    obtain ⟨hinvestor, hgain⟩ := beginTick_none scene hr.traders hnone
    refine ⟨hsame (by rw [houtlay, hgain, hqueued]; rfl), hkept ?_⟩
    rw [show t.investors = (r.startFirst.1.collectAll scene).1.investors from congrArg Prod.fst hroster,
      hinvestor]

/-- Whoever is built in a step is new. -/
theorem step_none (hr : r.Disciplined) (hscene : scene.TradersOnly) (ha : a.SparesInvestors)
    (h : r.step scene a = some t) (hnone : r.investors[i]? = none) :
    t.duties i = 0 ∧ ∀ w, t.investors[i]? = some w → w.IsNew := by
  have hunbuilt := hr.unbuilt i hnone
  obtain ⟨c, x, hx, hmove⟩ | ⟨e, x, hx, hmove⟩ | hmove := step_cases h
  · exact hmove.unbuilt hr hscene hx hnone
  · have htask : traderOf x.task ≠ some i := by
      -- An execution of its own would be among its duties, and it has none.
      intro htask
      have hle := unfinished_le (i := i) hx
      rw [hunbuilt, unfinished_self htask hmove.unfinished] at hle
      simp at hle
    have hjob := hr.traders.executions x (Array.mem_of_getElem? hx)
    refine ⟨(hmove.duties_other hx hr.prompt htask).trans hunbuilt, fun w hw => ?_⟩
    cases hw.symm.trans ((hmove.investors_other hx hjob htask).trans hnone)
  · obtain ⟨lost, _, hduties⟩ := hmove.duties i
    refine ⟨Multiset.le_zero.mp ((Multiset.le_add_right _ _).trans_eq (hduties.symm.trans hunbuilt)),
      fun w hw => ?_⟩
    obtain hsame | ⟨j, u, hu, _, rfl⟩ := (hmove.outside ha).investors
    · rw [hsame, hnone] at hw
      cases hw
    · have hij : j ≠ i := by
        rintro rfl
        cases hu.symm.trans hnone
      simp [withInvestor, hij, hnone] at hw

/-- Whoever is there after a step is new, or got its share of the step. -/
theorem new_or_share (hr : r.Disciplined) (hscene : scene.TradersOnly) (ha : a.SparesInvestors)
    (h : r.step scene a = some t) (hw : t.investors[i]? = some w) :
    w.IsNew ∧ t.duties i = 0 ∨ ∃ v, r.investors[i]? = some v ∧ Share a r t i v w := by
  cases hv : r.investors[i]? with
  | none =>
    obtain ⟨hduties, hnew⟩ := step_none hr hscene ha h hv
    exact .inl ⟨hnew w hw, hduties⟩
  | some v =>
    obtain ⟨w', hw', hshare⟩ := step_share hr ha h hv
    obtain rfl := Option.some.inj (hw.symm.trans hw')
    exact .inr ⟨v, rfl, hshare⟩

/-- Whoever is on the way into the registry after a step has not been started. -/
theorem step_pending (hr : r.Disciplined) (hscene : scene.TradersOnly) (ha : a.SparesInvestors)
    (h : r.step scene a = some t) (hi : i ∈ t.pending) (hw : t.investors[i]? = some w) :
    w.stage = .notStarted := by
  have hflow := (step_effect hr.prompt h).flow
  obtain ⟨hnew, _⟩ | ⟨v, hv, hshare⟩ := new_or_share hr hscene ha h hw
  · obtain ⟨client, params, _, _, rfl⟩ := hnew
    rfl
  · have hpending : i ∈ r.pending := by
      obtain hpending | rfl := hflow.pending hi
      · exact hpending
      · simp at hv
    have hstage := hr.pending i hpending v hv
    obtain hstage | hentered := hshare.unstarted (hr.traders.investor hv) (hr.standing i v hv) hstage
    · exact hstage
    -- Nobody is in the registry and on the way there at once.
    · exact absurd hi (not_mem_pending (hflow.within hr.within) hentered)

/-- Every step keeps a run disciplined. -/
theorem step_disciplined (hscene : scene.TradersOnly) (ha : a.SparesInvestors) (h : r.step scene a = some t)
    (hr : r.Disciplined) : t.Disciplined := by
  have heffect := step_effect hr.prompt h
  refine ⟨heffect.prompt hr.prompt, step_tradersOnly hscene h hr.traders, heffect.flow.within hr.within,
    fun i hi w hw => step_pending hr hscene ha h hi hw, ?_, ?_, ?_⟩
  · intro i hnone
    cases hv : r.investors[i]? with
    | none => exact (step_none hr hscene ha h hv).1
    | some v =>
      obtain ⟨w, hw, _⟩ := step_share hr ha h hv
      cases hnone.symm.trans hw
  · intro i w hw
    obtain ⟨hnew, _⟩ | ⟨v, hv, hshare⟩ := new_or_share hr hscene ha h hw
    · exact hnew.books
    · exact hshare.books (hr.books i v hv) (hr.standing i v hv)
  · intro i w hw
    obtain ⟨hnew, hduties⟩ | ⟨v, hv, hshare⟩ := new_or_share hr hscene ha h hw
    · rw [hduties]
      exact hnew.standing
    · exact hshare.standing (hr.traders.investor hv) (hr.standing i v hv)

theorem Disciplined.pass (hr : r.Disciplined) (ms : Nat) : { r with now := r.now + ms }.Disciplined :=
  ⟨hr.prompt, hr.traders.of_eq rfl, hr.within, hr.pending, hr.unbuilt, hr.books, hr.standing⟩

theorem Becomes.disciplined (hscene : scene.TradersOnly) (h : Becomes scene Step.SparesInvestors r t)
    (hr : r.Disciplined) : t.Disciplined :=
  h.preserves (fun _ _ _ ha hs hstep => step_disciplined hscene ha hstep hs) (fun _ ms hs => hs.pass ms) hr

/-- What each share of a trader goes with, its whole history goes with. -/
theorem Becomes.shares (Holds : Investor → Investor → Prop) (hscene : scene.TradersOnly)
    (hshare : ∀ r a t i u v w, r.Disciplined → Holds u v → r.investors[i]? = some v → Share a r t i v w →
      Holds u w)
    (h : Becomes scene Step.SparesInvestors r t) (hr : r.Disciplined) (hv : r.investors[i]? = some v)
    (hrefl : Holds v v) : ∃ w, t.investors[i]? = some w ∧ Holds v w := by
  induction h with
  | refl => exact ⟨v, hv, hrefl⟩
  | step a hs ha hstep ih =>
    obtain ⟨u, hu, hholds⟩ := ih
    have hdisciplined := hs.disciplined hscene hr
    obtain ⟨w, hw, hsh⟩ := step_share hdisciplined ha hstep hu
    exact ⟨w, hw, hshare _ a _ i v u w hdisciplined hholds hu hsh⟩
  | pass ms _ ih => exact ih

/-- Nothing has happened in a run: it has traders that nobody has started, perhaps in the registry. -/
structure Unbegun (r : Run) : Prop where
  investors : ∀ v ∈ r.investors, v.IsNew
  registry : r.registry.entries.Nodup ∧ ∀ i ∈ r.registry.entries, i < r.investors.size
  starts : r.starts = #[]
  controls : r.controls = #[]
  held : r.held = []
  executions : r.executions = #[]

theorem fresh_unbegun (floor ceiling : Int) (capacity drawn : Nat) :
    (fresh floor ceiling capacity drawn).Unbegun := by
  constructor <;> simp [fresh, Registry.empty]

namespace Unbegun

variable (hr : r.Unbegun)
include hr

theorem new (hv : r.investors[i]? = some v) : v.IsNew := hr.investors v (Array.mem_of_getElem? hv)

theorem tally {β : Type} (f : Task → List β) (g : Execution → List β) : r.tally f g = 0 := by
  simp [Run.tally, hr.controls, hr.held, hr.executions]

theorem pending : r.pending = 0 := by
  simp [Run.pending, Run.awaiting, Run.depositing, hr.controls, hr.held, hr.executions]

theorem disciplined : r.Disciplined := by
  have hduties (i : Nat) : r.duties i = 0 := hr.tally _ _
  refine ⟨?_, ⟨fun v hv => (hr.investors v hv).isTrader, ?_, ?_, ?_⟩, ?_, ?_, fun i _ => hduties i, ?_, ?_⟩
  · simp [Prompt, hr.executions]
  · simp [hr.held]
  · simp [hr.controls]
  · simp [hr.executions]
  · obtain ⟨hnodup, hbound⟩ := hr.registry
    have hwhereabouts : r.whereabouts = ↑r.registry.entries := by
      rw [whereabouts, ← Run.pending, hr.pending, zero_add]
    rw [hwhereabouts]
    exact (Multiset.le_iff_subset (Multiset.coe_nodup.mpr hnodup)).mpr fun i hi =>
      Multiset.mem_range.mpr (hbound i hi)
  · simp [hr.pending]
  · exact fun i v hv => (hr.new hv).books
  · intro i v hv
    rw [hduties]
    exact (hr.new hv).standing

end Unbegun

/-- A run that has not begun, with a seller in the registry that has five coins and sells two with each
    order. -/
def ofSeller : Run :=
  let seller := .fresh (.fresh "" .guest default) (.coinHeavy 0 5 2 10) (.trader false 5 0)
  { fresh 5 10 1 0 with investors := #[seller], origins := #[.rising 0 0 0 0], registry := ⟨[0]⟩ }

theorem ofSeller_unbegun : ofSeller.Unbegun := by
  refine ⟨?_, by decide, rfl, rfl, rfl, rfl⟩
  intro v hv
  rw [List.mem_singleton.mp (Array.mem_toList_iff.mpr hv)]
  exact ⟨.fresh "" .guest default, .coinHeavy 0 5 2 10, rfl, rfl, rfl⟩

end Run

end ExchangeLoad
