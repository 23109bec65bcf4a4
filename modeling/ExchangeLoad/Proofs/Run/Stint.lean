import ExchangeLoad.Proofs.Run.Census
import ExchangeLoad.Proofs.Run.Onward

/-!
What a stretch of the execution of a task comes to, said in terms of the census. Only enrolments show
there: one makes its deposit when it begins, and registers its investor when the deposit is decided.
-/

namespace ExchangeLoad.Run

/-- What a stretch of the execution `x` does: it leaves it as `y`, and the census as `b`. -/
inductive Errand (r : Run) (x y : Execution) (b : Census) : Prop where
  | job (htask : x.task.enrolment? = none) (hcensus : b = r.census)
  | deposit (i : Nat) (credit : Int) (htask : x.task = .enrol i credit) (hbefore : x.phase = .waiting)
      (hafter : y.phase = .depositing r.deposits.size)
      (hcensus : b = r.census.deposited (r.identity i) credit)
  | register (i deposit : Nat) (credit : Int) (accepted : Bool) (htask : x.task = .enrol i credit)
      (hbefore : x.phase = .depositing deposit) (hafter : y.phase = .ended r.now none)
      (hcensus : b = r.census.registered i deposit accepted)

/-- A stretch of the execution `x` with number `e`, which leaves it as `y`. -/
structure Stint (e : Nat) (r : Run) (x : Execution) (t : Run) (y : Execution) : Prop where
  executions : t.executions.toList = r.executions.toList.set e y
  task : y.task = x.task
  backdrop : t.backdrop = r.backdrop
  errand : Errand r x y t.census

/-- On its way through a stretch, the execution `x` with number `e` is still that of the same task, and
    nothing has been written to the census. -/
structure Midjob (e : Nat) (x : Execution) (r s : Run) : Prop where
  executions : ∃ y, y.task = x.task ∧ s.executions.toList = r.executions.toList.set e y
  census : s.census = r.census

variable {r s t : Run} {e i : Nat} {x : Execution} {a : Step}

theorem toList_modify_eq_set {α : Type} {xs : Array α} {f : α → α} {z : α} (hz : xs[e]? = some z) :
    (xs.modify e f).toList = xs.toList.set e (f z) := by
  obtain ⟨he, rfl⟩ := Array.getElem?_eq_some_iff.mp hz
  refine List.ext_getElem? fun k => ?_
  simp only [Array.toList_modify, List.getElem?_modify, List.getElem?_set]
  by_cases hk : e = k
  · subst hk
    simp [he]
  · simp [hk]

theorem getElem?_of_set {y : Execution} (hx : r.executions[e]? = some x)
    (hset : t.executions.toList = r.executions.toList.set e y) : t.executions[e]? = some y := by
  obtain ⟨he, -⟩ := Array.getElem?_eq_some_iff.mp hx
  rw [← Array.getElem?_toList, hset, List.getElem?_set_self (by simpa using he)]

theorem getElem?_of_set_ne {k : Nat} {y : Execution} (hne : k ≠ e)
    (hset : t.executions.toList = r.executions.toList.set k y) : t.executions[e]? = r.executions[e]? := by
  rw [← Array.getElem?_toList, hset, List.getElem?_set_ne hne, Array.getElem?_toList]

namespace Midjob

theorem refl (hx : r.executions[e]? = some x) : Midjob e x r r := by
  obtain ⟨he, rfl⟩ := Array.getElem?_eq_some_iff.mp hx
  refine ⟨⟨r.executions[e], rfl, ?_⟩, rfl⟩
  rw [← Array.getElem_toList, List.set_getElem_self]

variable (h : Midjob e x r s)
include h

theorem of_eq (hexecutions : t.executions = s.executions) (hcensus : t.census = s.census) :
    Midjob e x r t :=
  ⟨by rw [hexecutions]; exact h.executions, hcensus.trans h.census⟩

/-- The execution may note things down about itself. -/
theorem modifyExecution {f : Execution → Execution} (hf : ∀ y, (f y).task = y.task) :
    Midjob e x r { s with executions := s.executions.modify e f } := by
  obtain ⟨y, htask, hexecutions⟩ := h.executions
  refine ⟨⟨f y, (hf y).trans htask, ?_⟩, (census_of_eq rfl).trans h.census⟩
  refine List.ext_getElem? fun k => ?_
  simp only [Array.toList_modify, hexecutions, List.getElem?_modify, List.getElem?_set]
  by_cases hk : e = k
  · subst hk
    simp only [if_true]
    split <;> rfl
  · simp [hk]

theorem withPhase (phase : Phase) : Midjob e x r (s.withPhase e phase) := h.modifyExecution fun _ => rfl

theorem close (phase : Phase) : Midjob e x r (s.close e phase) := by
  refine Midjob.withPhase ?_ phase
  exact h.of_eq rfl (census_of_eq rfl)

theorem conclude (failure : Option Fault) : Midjob e x r (s.conclude e failure) := by
  cases failure with
  | none => exact h.close _
  | some why => exact (h.close (.ended s.now (some why))).of_eq rfl (census_of_eq rfl)

theorem withInvestor {v w : Investor} (hv : s.investors[i]? = some v) (hcard : w.card = v.card) :
    Midjob e x r (s.withInvestor i w) :=
  h.of_eq rfl (census_withInvestor hv hcard)

theorem advance {v : Investor} {after : Investor × Progress} (hv : s.investors[i]? = some v)
    (hcard : after.1.card = v.card) : Midjob e x r (s.advance e i after) := by
  have hinvestor := h.withInvestor hv hcard
  unfold Run.advance
  cases after.2 with
  | waits point => exact hinvestor.withPhase _
  | ended failure => exact hinvestor.conclude failure

theorem addScore (gain : Int) : Midjob e x r { s with tracker := s.tracker.addScore gain } :=
  h.of_eq rfl (census_of_eq rfl)

theorem note (label what : String) : Midjob e x r (s.note label what) := h.of_eq rfl (census_of_eq rfl)

theorem perform (script : Script) : Midjob e x r (s.perform e script) := by
  have hscored := h.addScore script.score
  unfold Run.perform
  cases script.change with
  | none => exact hscored.conclude _
  | some change =>
    cases hv : s.investors[change.investor]? with
    | none =>
      simp only [hv, Option.elim_none]
      exact hscored.conclude _
    | some v =>
      simp only [hv, Option.elim_some]
      have hchanged := hscored.withInvestor (w := v.change change) hv rfl
      exact hchanged.conclude _

theorem beginScript (label : String) (script : Script) : Midjob e x r (s.beginScript e label script) := by
  have hnoted := h.note label (if s.aborted then "run-cancelled" else "run")
  unfold Run.beginScript
  generalize (if s.aborted then "run-cancelled" else "run") = what at hnoted ⊢
  cases script.work with
  | none => exact hnoted.perform script
  | some ms =>
    simp only
    split
    · exact (hnoted.note label "stopped").conclude none
    · exact hnoted.withPhase _

theorem stint (htask : x.task.enrolment? = none) (hbackdrop : s.backdrop = r.backdrop) :
    ∃ y, Stint e r x s y := by
  obtain ⟨y, hsame, hexecutions⟩ := h.executions
  exact ⟨y, hexecutions, hsame, hbackdrop, .job htask h.census⟩

end Midjob

theorem beginBody_stint (hx : r.executions[e]? = some x) (hbackdrop : (r.beginBody e).backdrop = r.backdrop)
    (hphase : x.task.enrolment? ≠ none → x.phase = .waiting) : ∃ y, Stint e r x (r.beginBody e) y := by
  have hbegun : (r.begun e).executions[e]? = some { x with began := some r.now } := by
    simp [begun, Array.getElem?_modify, hx]
  have hjob : Midjob e x r (r.begun e) := (Midjob.refl hx).modifyExecution fun _ => rfl
  unfold beginBody at hbackdrop ⊢
  rw [← begun] at hbackdrop ⊢
  simp only [hbegun, Option.map_some] at hbackdrop ⊢
  cases htask : x.task with
  | exec label delay job =>
    have hnone : x.task.enrolment? = none := by rw [htask]; rfl
    simp only [htask] at hbackdrop ⊢
    cases job with
    | signIn i =>
      cases hv : (r.begun e).investors[i]? with
      | none =>
        simp only [hv, Option.elim_none] at hbackdrop ⊢
        exact hjob.stint hnone hbackdrop
      | some v =>
        simp only [hv, Option.elim_some] at hbackdrop ⊢
        exact (hjob.advance hv Investor.beginSignIn_card).stint hnone hbackdrop
    | trade i price =>
      cases hv : (r.begun e).investors[i]? with
      | none =>
        simp only [hv, Option.elim_none] at hbackdrop ⊢
        exact hjob.stint hnone hbackdrop
      | some v =>
        simp only [hv, Option.elim_some] at hbackdrop ⊢
        exact (hjob.advance hv Investor.beginTrade_card).stint hnone hbackdrop
    | scripted script => exact (hjob.beginScript label script).stint hnone hbackdrop
  | enrol i credit =>
    simp only [htask] at hbackdrop ⊢
    have hwaiting : x.phase = .waiting := hphase (by simp [htask, Task.enrolment?])
    refine ⟨{ x with began := some r.now, phase := .depositing r.deposits.size }, ?_, rfl, hbackdrop, ?_⟩
    · have hdepositing := toList_modify_eq_set (f := fun z => { z with phase := .depositing r.deposits.size })
        hbegun
      refine hdepositing.trans ?_
      rw [begun, toList_modify_eq_set hx, List.set_set]
    · refine .deposit i credit htask hwaiting rfl ?_
      simp [census, Census.deposited, withPhase, begun, identity]

/-- What a stretch of an execution comes to, provided that no enrolment waits for a delay. -/
theorem TaskMove.stint (hx : r.executions[e]? = some x)
    (hprompt : ∀ wake, x.phase = .delayed wake → x.task.enrolment? = none) (h : TaskMove e r x a t) :
    ∃ y, Stint e r x t y := by
  have hbackdrop := h.backdrop hx
  have hjob := Midjob.refl hx
  have hdelayed (hdelay : x.task.delay ≠ 0) : x.task.enrolment? = none := by
    cases htask : x.task with
    | exec => rfl
    | enrol i credit => simp [htask, Task.delay] at hdelay
  cases h with
  | begin _ hphase =>
    refine beginBody_stint hx hbackdrop fun htask => ?_
    obtain ⟨hwaiting, _⟩ | ⟨wake, _, hwake⟩ := hphase
    · exact hwaiting
    · exact absurd (hprompt wake hwake) htask
  | delay _ hdelay => exact (hjob.withPhase _).stint (hdelayed hdelay) hbackdrop
  | drop _ hphase =>
    refine (hjob.close _).stint ?_ hbackdrop
    obtain ⟨_, hdelay⟩ | ⟨wake, hwake⟩ := hphase
    · exact hdelayed hdelay
    · exact hprompt wake hwake
  | hear point i v w reply gain progress _ htrader hv hresume =>
    refine ((hjob.addScore gain).advance hv (Investor.resume_card hresume)).stint ?_ hbackdrop
    cases htask : x.task with
    | exec => rfl
    | enrol => simp [htask, traderOf] at htrader
  | finish wake label delay script _ htask =>
    exact ((hjob.note label "done").perform script).stint (by rw [htask]; rfl) hbackdrop
  | stop wake label delay script _ htask =>
    exact ((hjob.note label "stopped").conclude none).stint (by rw [htask]; rfl) hbackdrop
  | enrol deposit i credit accepted hphase htask =>
    refine ⟨{ x with phase := .ended r.now none }, toList_modify_eq_set hx, rfl, hbackdrop, ?_⟩
    refine .register i deposit credit accepted htask hphase rfl ?_
    simp [census, Census.registered, endExecution, close, withPhase, registered, settleDeposit, Registry.add]

end ExchangeLoad.Run
