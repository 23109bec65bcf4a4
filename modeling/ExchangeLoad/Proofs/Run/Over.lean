import ExchangeLoad.Proofs.Run.Timetable
import ExchangeLoad.Proofs.Trader.Aftermath
import Mathlib.Data.ENat.Basic

/-!
When the execution of a task is over. It ends, or is dropped, at the moment of the stretch that brings it
there, and nothing happens to it afterwards. In a run that has been aborted, whatever is still in the delay
of its task is dropped before any time passes.
-/

namespace ExchangeLoad

/-- When an execution was over, if it is. -/
def Phase.over? : Phase → Option Nat
  | ended time _ => some time
  | dropped time => some time
  | _ => none

theorem Execution.finished_eq_false_iff {x : Execution} : x.finished = false ↔ x.phase.over? = none := by
  unfold finished Phase.over?
  cases x.phase <;> simp

namespace Run

/-- When the execution with a number was over, if it is. -/
def over? (r : Run) (e : Nat) : Option Nat := (r.executions[e]?).bind (·.phase.over?)

/-- When the execution with a number is over: never, as far as can be told, before it is. -/
def overAt (r : Run) (e : Nat) : ℕ∞ := (r.over? e).elim ⊤ (↑)

/-- The execution with a number is not over, or has just come to its end. -/
def OverNow (e : Nat) (r : Run) : Prop := ∀ time, r.over? e = some time → time = r.now

/-- The delay of the task of the execution with a number is not over. -/
def pausing (r : Run) (e : Nat) : Bool :=
  (r.executions[e]?).any fun x => decide (r.now < x.since + x.task.delay)

variable {scene : Scene} {r s t : Run} {a : Step} {e i time : Nat} {x : Execution} {phase : Phase}

theorem over?_of_getElem? (hx : r.executions[e]? = some x) : r.over? e = x.phase.over? := by
  rw [over?, hx, Option.bind_some]

theorem overAt_of_over? (h : r.over? e = some time) : r.overAt e = time := by
  rw [overAt, h, Option.elim_some]

theorem overAt_of_not_over (h : r.over? e = none) : r.overAt e = ⊤ := by
  rw [overAt, h, Option.elim_none]

section Stretches

theorem withPhase_overNow (hphase : ∀ time, phase.over? = some time → time = s.now) :
    OverNow e (s.withPhase e phase) := by
  intro time htime
  obtain ⟨x, hx, hover⟩ := Option.bind_eq_some_iff.mp htime
  rw [withPhase, Array.getElem?_modify, if_pos rfl] at hx
  obtain ⟨y, -, rfl⟩ := Option.map_eq_some_iff.mp hx
  exact hphase time hover

theorem close_overNow (hphase : phase.over? = some s.now) : OverNow e (s.close e phase) :=
  withPhase_overNow fun _ htime => (Option.some.inj (hphase.symm.trans htime)).symm

theorem conclude_overNow (failure : Option Fault) : OverNow e (s.conclude e failure) := by
  cases failure with
  | none => exact close_overNow rfl
  | some why => exact show OverNow e (s.endExecution e (some why)) from close_overNow rfl

theorem advance_overNow (after : Investor × Progress) : OverNow e (s.advance e i after) := by
  unfold advance
  cases after.2 with
  | waits point => exact withPhase_overNow (by simp [Phase.over?])
  | ended failure => exact conclude_overNow failure

theorem perform_overNow (script : Script) : OverNow e (s.perform e script) := conclude_overNow _

theorem beginScript_overNow (label : String) (script : Script) : OverNow e (s.beginScript e label script) := by
  unfold beginScript
  generalize (if s.aborted then "run-cancelled" else "run") = what
  cases script.work with
  | none => exact perform_overNow script
  | some ms =>
    simp only
    split
    · exact conclude_overNow none
    · exact withPhase_overNow (by simp [Phase.over?])

theorem begun_overNow (hx : r.executions[e]? = some x) (hopen : x.phase.over? = none) :
    OverNow e (r.begun e) := by
  have hbegun : (r.begun e).executions[e]? = some { x with began := some r.now } := by
    simp [begun, Array.getElem?_modify, hx]
  intro time htime
  rw [over?_of_getElem? hbegun] at htime
  cases hopen.symm.trans htime

theorem beginBody_overNow (hx : r.executions[e]? = some x) (hopen : x.phase.over? = none) :
    OverNow e (r.beginBody e) := by
  have hbegun := begun_overNow hx hopen
  unfold beginBody
  rw [← begun]
  simp only
  split
  · next job _ =>
    cases job with
    | signIn i =>
      cases hv : (r.begun e).investors[i]? with
      | none => simpa only [hv, Option.elim_none] using hbegun
      | some v => simpa only [hv, Option.elim_some] using advance_overNow _
    | trade i price =>
      cases hv : (r.begun e).investors[i]? with
      | none => simpa only [hv, Option.elim_none] using hbegun
      | some v => simpa only [hv, Option.elim_some] using advance_overNow _
    | scripted script => exact beginScript_overNow _ script
  · exact withPhase_overNow (by simp [Phase.over?])
  · exact hbegun

theorem TaskMove.overNow (hx : r.executions[e]? = some x) (h : TaskMove e r x a t) : OverNow e t := by
  have hopen := Execution.finished_eq_false_iff.mp h.unfinished
  cases h with
  | begin => exact beginBody_overNow hx hopen
  | delay => exact withPhase_overNow (by simp [Phase.over?])
  | drop => exact close_overNow rfl
  | hear => exact advance_overNow _
  | finish _ _ _ script => exact perform_overNow script
  | stop => exact conclude_overNow none
  | enrol => exact close_overNow rfl

end Stretches

/-- In a step an execution stays over or not over, or it comes to its end at that moment. -/
theorem step_over? (h : r.step scene a = some t) (hx : r.executions[e]? = some x) :
    t.over? e = r.over? e ∨ r.over? e = none ∧ t.over? e = some r.now ∧ t.now = r.now := by
  cases ha : a.execution? with
  | none => exact .inl (by rw [over?_of_getElem? hx, over?_of_getElem? ((step_hands ha h).getElem?_eq hx)])
  | some k =>
    obtain ⟨y, hy, hmove⟩ := step_taskMove ha h
    obtain ⟨z, hset, -⟩ := hmove.leg hy
    by_cases hk : k = e
    · subst hk
      have hnow : t.now = r.now := congrArg Backdrop.now (hmove.backdrop hy)
      have hopen : r.over? k = none := by
        rw [over?_of_getElem? hy, Execution.finished_eq_false_iff.mp hmove.unfinished]
      cases hover : t.over? k with
      | none => exact .inl hopen.symm
      | some time => exact .inr ⟨hopen, by rw [hmove.overNow hy time hover, hnow], hnow⟩
    · exact .inl (by rw [over?, over?, getElem?_of_set_ne hk hset])

/-- What is not over before a step is over no earlier than now after it. -/
theorem step_le_overAt (h : r.step scene a = some t) (hx : r.executions[e]? = some x)
    (hopen : r.over? e = none) : (t.now : ℕ∞) ≤ t.overAt e := by
  obtain hsame | ⟨-, hover, hnow⟩ := step_over? h hx
  · rw [overAt_of_not_over (hsame.trans hopen)]
    exact le_top
  · rw [overAt_of_over? hover, hnow]

theorem Reaches.kept (h : Reaches scene r t) (hx : r.executions[e]? = some x) :
    ∃ y, t.executions[e]? = some y ∧ y.task = x.task ∧ y.submitted = x.submitted := by
  obtain ⟨y, hy, hsame⟩ := h.handing hx
  simp only [Prod.mk.injEq] at hsame
  obtain ⟨htask, hsubmitted, -⟩ := hsame
  exact ⟨y, hy, htask, hsubmitted⟩

/-- What is over stays so, and what was not is over at no moment before. -/
theorem Reaches.over?_cases (h : Reaches scene r t) (hx : r.executions[e]? = some x) :
    t.over? e = r.over? e ∨ r.over? e = none ∧ ∃ time, t.over? e = some time ∧ r.now ≤ time ∧ time ≤ t.now := by
  induction h with
  | refl => exact .inl rfl
  | @step s t a hs hstep ih =>
    obtain ⟨y, hy, -⟩ := hs.kept hx
    have hnow := step_now_le hstep
    obtain hsame | ⟨hopen, hover, hstill⟩ := step_over? hstep hy
    · rw [hsame]
      obtain hsame | ⟨hopen, time, hover, hle, hle'⟩ := ih
      · exact .inl hsame
      · exact .inr ⟨hopen, time, hover, hle, Nat.le_trans hle' hnow⟩
    · obtain hsame | ⟨-, time, hover', -⟩ := ih
      · exact .inr ⟨hsame.symm.trans hopen, s.now, hover, hs.now_le, hnow⟩
      · cases hopen.symm.trans hover'

theorem Reaches.over?_eq (h : Reaches scene r t) (hover : r.over? e = some time) : t.over? e = some time := by
  obtain ⟨x, hx, -⟩ := Option.bind_eq_some_iff.mp hover
  obtain hsame | ⟨hopen, -⟩ := h.over?_cases hx
  · rw [hsame, hover]
  · cases hopen.symm.trans hover

theorem Reaches.le_overAt (h : Reaches scene r t) (hx : r.executions[e]? = some x) (hopen : r.over? e = none) :
    (r.now : ℕ∞) ≤ t.overAt e := by
  obtain hsame | ⟨-, time, hover, hle, -⟩ := h.over?_cases hx
  · rw [overAt_of_not_over (hsame.trans hopen)]
    exact le_top
  · rw [overAt_of_over? hover]
    exact_mod_cast hle

/-- What is in the delay of its task while the run has been aborted is dropped before time passes. -/
theorem Reaches.dropped_at_once (hr : r.Punctual) (haborted : r.aborted = true)
    (hx : r.executions[e]? = some x) (hopen : r.over? e = none) (hpausing : r.pausing e = true)
    (h : Reaches scene r t) : t.now = r.now ∨ t.over? e = some r.now := by
  have hdelay : r.now < x.since + x.task.delay := by simpa [pausing, hx] using hpausing
  have hsince := (hr e x hx).since
  induction h with
  | refl => exact .inl rfl
  | @step s t a hs hstep ih =>
    obtain hnow | hover := ih
    · obtain hstill | ⟨hquiet, -, -⟩ := (step_onward hstep).clock
      · exact .inl (hstill.trans hnow)
      · -- Nothing is in a delay while an aborted run is quiet, so that the drop has come before.
        have hbars : Bars r s :=
          hs.preserves (fun _ _ _ hr hstep => step_bars hr hstep) (hr.bars haborted)
        obtain ⟨y, hy, htask, -⟩ := hs.kept hx
        have hpending : r.Pending e y.task := by
          refine ⟨by rw [htask]; omega, fun z hz => ?_⟩
          obtain rfl := Option.some.inj (hx.symm.trans hz)
          exact hdelay
        obtain ⟨time, hphase⟩ := dropped_of_quiet hquiet hbars.aborted hy (hbars.barred e y hy hpending)
        have hover : s.over? e = some time := by rw [over?_of_getElem? hy, hphase]; rfl
        obtain hsame | ⟨-, time', hover', hle, hle'⟩ := hs.over?_cases hx
        · cases (hsame.trans hopen).symm.trans hover
        · have htime : time' = r.now := by omega
          rw [htime] at hover'
          exact .inr (Reaches.over?_eq (.step a (.refl s) hstep) hover')
    · exact .inr (Reaches.over?_eq (.step a (.refl s) hstep) hover)

end Run

end ExchangeLoad
