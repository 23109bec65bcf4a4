import ExchangeLoad.Proofs.Run.Ending
import ExchangeLoad.Proofs.Run.Opening

/-!
The timetable of a task. The clock stands still while a task is to be looked at or its delay is over, so
that a body begins at the very moment at which its delay ends: neither before nor after. Only an abort
during the delay keeps it from beginning.
-/

namespace ExchangeLoad

/-- Where an execution stands at a time, when time does not pass over what is due. -/
inductive Execution.Timely (now : Nat) (x : Execution) : Prop
  | waiting (hphase : x.phase = .waiting) (hbegan : x.began = none) (hsince : x.since = now)
  | delayed (hphase : x.phase = .delayed (x.since + x.task.delay)) (hbegan : x.began = none)
      (hdelay : x.task.delay ≠ 0) (hsince : x.since ≤ now) (hdue : now ≤ x.since + x.task.delay)
  | launched (hphase : x.phase.launched = true) (hbegan : x.began = some (x.since + x.task.delay))
  | dropped (time : Nat) (hphase : x.phase = .dropped time) (hbegan : x.began = none)
      (hdelay : x.task.delay ≠ 0) (hdue : time ≤ x.since + x.task.delay)

namespace Execution.Timely

variable {now : Nat} {x : Execution}

theorem of_waiting (h : x.Timely now) (hphase : x.phase = .waiting) : x.began = none ∧ x.since = now := by
  cases h with
  | waiting _ hbegan hsince => exact ⟨hbegan, hsince⟩
  | delayed hother => cases hphase.symm.trans hother
  | launched hother => simp [hphase, Phase.launched] at hother
  | dropped _ hother => cases hphase.symm.trans hother

theorem of_delayed {wake : Nat} (h : x.Timely now) (hphase : x.phase = .delayed wake) :
    x.began = none ∧ x.task.delay ≠ 0 ∧ wake = x.since + x.task.delay ∧ x.since ≤ now ∧ now ≤ wake := by
  cases h with
  | waiting hother => cases hphase.symm.trans hother
  | delayed hother hbegan hdelay hsince hdue =>
    obtain rfl := Phase.delayed.inj (hphase.symm.trans hother)
    exact ⟨hbegan, hdelay, rfl, hsince, hdue⟩
  | launched hother => simp [hphase, Phase.launched] at hother
  | dropped _ hother => cases hphase.symm.trans hother

theorem of_launched (h : x.Timely now) (hphase : x.phase.launched = true) :
    x.began = some (x.since + x.task.delay) := by
  cases h with
  | waiting hother => simp [hother, Phase.launched] at hphase
  | delayed hother => simp [hother, Phase.launched] at hphase
  | launched _ hbegan => exact hbegan
  | dropped _ hother => simp [hother, Phase.launched] at hphase

end Execution.Timely

namespace Run

/-- What can be told of the execution with a number, nothing where there is none. -/
def ofExecution {β : Type} (r : Run) (e : Nat) (f : Execution → List β) : List β :=
  (r.executions[e]?).elim [] f

/-- All executions are where they should be at the time. -/
def Timely (r : Run) : Prop := ∀ (e : Nat) (x : Execution), r.executions[e]? = some x → x.Timely r.now

variable {scene : Scene} {r₀ r s t : Run} {a : Step} {e n : Nat} {x y : Execution}

theorem foldl_earlier_all {α : Type} (moment : α → Option Nat) (l : List α) (start : Option Nat) :
    (l.foldl (fun found x => earlier found (moment x)) start).all (n ≤ ·) =
      (start.all (n ≤ ·) && l.all fun x => (moment x).all (n ≤ ·)) := by
  induction l generalizing start with
  | nil => simp
  | cons x rest ih => simp [ih, all_earlier, Bool.and_assoc]

/-- Time stops at every moment for which an execution waits. -/
theorem le_moment_of_horizon {moment : Nat} (h : r.horizon.all (n ≤ ·) = true)
    (hx : r.executions[e]? = some x) (hmoment : x.moment = some moment) : n ≤ moment := by
  simp only [horizon, all_earlier, Bool.and_eq_true, ← Array.foldl_toList, foldl_earlier_all] at h
  obtain ⟨-, -, -, hexecutions⟩ := h
  have hall := List.all_eq_true.mp hexecutions x (Array.mem_toList_iff.mpr (Array.mem_of_getElem? hx))
  simpa [hmoment] using hall

/-- Time passes over nothing that is due. -/
theorem Execution.Timely.later (hx : x.Timely r.now) (hquiet : r.quiet = true) (hle : r.now ≤ n)
    (hhorizon : r.horizon.all (n ≤ ·) = true) (hat : r.executions[e]? = some x) : x.Timely n := by
  cases hx with
  | waiting hphase => simpa [restless, hphase] using not_restless_of_quiet hquiet hat
  | delayed hphase hbegan hdelay hsince =>
    exact .delayed hphase hbegan hdelay (Nat.le_trans hsince hle)
      (le_moment_of_horizon hhorizon hat (by simp [Execution.moment, hphase]))
  | launched hphase hbegan => exact .launched hphase hbegan
  | dropped time hphase hbegan hdelay hdue => exact .dropped time hphase hbegan hdelay hdue

theorem Leg.timely (h : Leg r t x y) (hx : x.Timely r.now)
    (hbuilt : ∀ i, traderOf x.task = some i → r.investors[i]? ≠ none) : y.Timely r.now := by
  cases h with
  | delay hphase _ _ hdelay =>
    obtain ⟨hbegan, hsince⟩ := hx.of_waiting hphase
    exact .delayed (by rw [hsince]) hbegan hdelay (Nat.le_of_eq hsince) (by rw [hsince]; exact Nat.le_add_right _ _)
  | drop hphase =>
    obtain ⟨hphase, hdelay⟩ | ⟨wake, hphase⟩ := hphase
    · obtain ⟨hbegan, hsince⟩ := hx.of_waiting hphase
      exact .dropped _ rfl hbegan hdelay (by rw [hsince]; exact Nat.le_add_right _ _)
    · obtain ⟨hbegan, hdelay, rfl, -, hdue⟩ := hx.of_delayed hphase
      exact .dropped _ rfl hbegan hdelay hdue
  | begin phase hphase _ hbuilt' =>
    have hlaunched : phase.launched = true := by
      obtain hlaunched | ⟨i, htrader, hnone⟩ := hbuilt'
      · exact hlaunched
      · exact absurd hnone (hbuilt i htrader)
    have hnow : r.now = x.since + x.task.delay := by
      obtain ⟨hphase, hzero⟩ | ⟨wake, hwake, hphase⟩ := hphase
      · rw [hzero, (hx.of_waiting hphase).2, Nat.add_zero]
      · obtain ⟨-, -, rfl, -, hdue⟩ := hx.of_delayed hphase
        exact Nat.le_antisymm hdue hwake
    exact .launched hlaunched (by rw [hnow])
  | go phase hbefore hafter => exact .launched hafter (hx.of_launched hbefore)

theorem step_timely (hr : r.Timely) (hmanned : r.Manned) (h : r.step scene a = some t) : t.Timely := by
  intro e y hy
  cases step_executions h hy with
  | same hx =>
    obtain hnow | ⟨hquiet, hle, hhorizon⟩ := (step_onward h).clock
    · rw [hnow]
      exact hr e y hx
    · exact Execution.Timely.later (hr e y hx) hquiet hle hhorizon hx
  | leg x hx hleg hnow => exact hnow ▸ hleg.timely (hr e x hx) fun i => hmanned.built hx
  | handed submitted task _ heq hnow =>
    subst heq
    exact .waiting rfl rfl hnow.symm

/-- Who handed an execution over, what of, and when, does not change. -/
theorem Leg.handing (h : Leg r t x y) :
    (y.task, y.submitted, y.since) = (x.task, x.submitted, x.since) := by
  cases h <;> rfl

theorem step_handing (h : r.step scene a = some t) (hx : r.executions[e]? = some x) :
    ∃ y, t.executions[e]? = some y ∧ (y.task, y.submitted, y.since) = (x.task, x.submitted, x.since) := by
  obtain ⟨y, hy, rfl | ⟨hleg, -⟩⟩ := step_kept h hx
  · exact ⟨y, hy, rfl⟩
  · exact ⟨y, hy, hleg.handing⟩

theorem Reaches.handing (h : Reaches scene r t) (hx : r.executions[e]? = some x) :
    ∃ y, t.executions[e]? = some y ∧ (y.task, y.submitted, y.since) = (x.task, x.submitted, x.since) := by
  induction h with
  | refl => exact ⟨x, hx, rfl⟩
  | step a _ hstep ih =>
    obtain ⟨y, hy, hsame⟩ := ih
    obtain ⟨z, hz, hsame'⟩ := step_handing hstep hy
    exact ⟨z, hz, hsame'.trans hsame⟩

/-- What is dropped was dropped at a moment at which the run had been aborted. -/
theorem Reaches.dropped {time : Nat} (h : Reaches scene r₀ r) (h₀ : r₀.executions = #[])
    (hx : r.executions[e]? = some x) (hphase : x.phase = .dropped time) :
    ∃ s, Reaches scene r₀ s ∧ Reaches scene s r ∧ s.aborted = true ∧ s.now = time := by
  induction h generalizing x with
  | refl => simp [h₀] at hx
  | @step s t a hs hstep ih =>
    have hlast : Reaches scene s t := .step a (.refl s) hstep
    have hearlier {z : Execution} (hz : s.executions[e]? = some z) (hphase : z.phase = .dropped time) :
        ∃ u, Reaches scene r₀ u ∧ Reaches scene u t ∧ u.aborted = true ∧ u.now = time := by
      obtain ⟨u, hu, hus, haborted, hnow⟩ := ih hz hphase
      exact ⟨u, hu, hus.trans hlast, haborted, hnow⟩
    cases step_executions hstep hx with
    | same hz => exact hearlier hz hphase
    | handed _ _ _ heq => simp [heq, Execution.handed] at hphase
    | leg z hz hleg =>
      cases hleg with
      | delay => cases hphase
      | drop _ haborted =>
        obtain rfl := Phase.dropped.inj hphase
        exact ⟨s, hs, hlast, haborted, rfl⟩
      | begin phase hbefore hafter =>
        obtain hlaunched | ⟨rfl, -⟩ := hafter
        · simp [show phase = .dropped time from hphase, Phase.launched] at hlaunched
        · exact hearlier hz hphase
      | go phase _ hafter => simp [show phase = .dropped time from hphase, Phase.launched] at hafter

section OfExecution

variable {β : Type} {f : Execution → List β}

theorem ofExecution_of_hands (hf : ∀ now submitted task, f (.handed now submitted task) = [])
    (h : Hands r t) : t.ofExecution e f = r.ofExecution e f := by
  obtain ⟨new, hexecutions, hnew, -⟩ := h
  unfold ofExecution
  rw [← Array.getElem?_toList, hexecutions, List.getElem?_append, ← Array.getElem?_toList]
  split
  · rfl
  · next hlength =>
    rw [List.getElem?_eq_none (Nat.le_of_not_lt hlength)]
    cases hz : new[e - r.executions.toList.length]? with
    | none => rfl
    | some z =>
      obtain ⟨-, submitted, task, rfl⟩ := hnew z (List.mem_of_getElem? hz)
      exact hf r.now submitted task

/-- Only its own stretches change what can be told of an execution. -/
theorem ofExecution_of_other (hf : ∀ now submitted task, f (.handed now submitted task) = [])
    (ha : a.execution? ≠ some e) (h : r.step scene a = some t) : t.ofExecution e f = r.ofExecution e f := by
  cases hk : a.execution? with
  | none => exact ofExecution_of_hands hf (step_hands hk h)
  | some k =>
    obtain ⟨x, hx, hmove⟩ := step_taskMove hk h
    obtain ⟨y, hset, -⟩ := hmove.leg hx
    have hne : k ≠ e := fun heq => ha (by rw [hk, heq])
    rw [ofExecution, ofExecution, getElem?_of_set_ne hne hset]

theorem ofExecution_of_getElem? (hx : r.executions[e]? = some x) : r.ofExecution e f = f x := by
  rw [ofExecution, hx, Option.elim_some]

end OfExecution

/-- No task was ever executed, and every job of a trader that is held or gathered by a call is for one that
    was built. -/
structure Unworked (r : Run) : Prop where
  executions : r.executions = #[]
  inFlight : r.inFlight = 0
  manned : r.Manned

theorem Unworked.prompt (h : r.Unworked) : r.Prompt := by
  simp [Prompt, h.executions]

theorem Unworked.timely (h : r.Unworked) : r.Timely := by
  simp [Timely, h.executions]

/-- Enrolments never wait, jobs are for traders that were built, and everything is where it should be. -/
structure Scheduled (r : Run) : Prop where
  prompt : r.Prompt
  manned : r.Manned
  timely : r.Timely

theorem Unworked.scheduled (h : r.Unworked) : r.Scheduled := ⟨h.prompt, h.manned, h.timely⟩

theorem step_scheduled (hr : r.Scheduled) (h : r.step scene a = some t) : t.Scheduled :=
  ⟨(step_effect hr.prompt h).prompt hr.prompt, step_manned hr.prompt hr.manned h,
    step_timely hr.timely hr.manned h⟩

theorem Reaches.scheduled (h : Reaches scene r t) (hr : r.Scheduled) : t.Scheduled :=
  h.preserves (fun _ _ _ hs hstep => step_scheduled hs hstep) hr

/-- What began did so in a stretch that did what the body of the task does first. -/
theorem Reaches.opened {time : Nat} (h : Reaches scene r₀ r) (h₀ : r₀.Unworked) (hx : r.executions[e]? = some x)
    (hbegan : x.began = some time) : ∃ s a t, Reaches scene r₀ s ∧ a.execution? = some e ∧
      s.step scene a = some t ∧ Reaches scene t r ∧ s.now = time ∧ s.begins t e x.task = true := by
  induction h generalizing x with
  | refl => simp [h₀.executions] at hx
  | @step s t a hs hstep ih =>
    have hlast : Reaches scene s t := .step a (.refl s) hstep
    have hearlier {z : Execution} (hz : s.executions[e]? = some z) (hzbegan : z.began = some time)
        (htask : z.task = x.task) : ∃ u b v, Reaches scene r₀ u ∧ b.execution? = some e ∧
          u.step scene b = some v ∧ Reaches scene v t ∧ u.now = time ∧ u.begins v e x.task = true := by
      obtain ⟨u, b, v, hu, hb, hopening, hv, hnow, hbegins⟩ := ih hz hzbegan
      exact ⟨u, b, v, hu, hb, hopening, hv.trans hlast, hnow, htask ▸ hbegins⟩
    by_cases ha : a.execution? = some e
    · obtain ⟨z, hz, hmove⟩ := step_taskMove ha hstep
      obtain ⟨y, hset, hleg, -, hybegan⟩ := hmove.stride hz
      obtain rfl := Option.some.inj (hx.symm.trans (getElem?_of_set hz hset))
      have htask : x.task = z.task := congrArg Prod.fst hleg.handing
      split at hybegan
      · next hopens =>
        have hmanned := (hs.scheduled h₀.scheduled).manned
        refine ⟨s, a, t, hs, ha, hstep, .refl t, Option.some.inj (hybegan.symm.trans hbegan), ?_⟩
        rw [htask, hmove.begins_eq_opens hz fun i => hmanned.built hz, hopens]
      · exact hearlier hz (hybegan.symm.trans hbegan) htask.symm
    · have hsame := ofExecution_of_other (f := fun z => (z.began.map (·, z.task)).toList)
        (fun _ _ _ => rfl) ha hstep
      rw [ofExecution_of_getElem? hx, hbegan] at hsame
      cases hz : s.executions[e]? with
      | none => simp [ofExecution, hz] at hsame
      | some z =>
        rw [ofExecution_of_getElem? hz] at hsame
        obtain ⟨hzbegan, htask⟩ : z.began = some time ∧ z.task = x.task := by
          simpa using hsame.symm
        exact hearlier hz hzbegan htask

/-- How it stands with the start of an execution. Its body began when the delay was over, in a stretch that
    did what this body does first; or the delay is not past, and there is such a stretch as soon as it is over;
    or an abort came during the delay. -/
inductive Commences (scene : Scene) (r₀ r : Run) (e : Nat) (x : Execution) : Prop
  | begun (s t : Run) (a : Step) (hbegan : x.began = some (x.since + x.task.delay))
      (hs : Reaches scene r₀ s) (ha : a.execution? = some e) (hstep : s.step scene a = some t)
      (ht : Reaches scene t r) (hnow : s.now = x.since + x.task.delay) (hbegins : s.begins t e x.task = true)
  | pending (hbegan : x.began = none) (hunfinished : x.finished = false)
      (hdue : r.now ≤ x.since + x.task.delay)
      (hready : r.now = x.since + x.task.delay → ∃ a t, a.execution? = some e ∧ r.step scene a = some t ∧
        r.begins t e x.task = true)
  | dropped (s : Run) (hbegan : x.began = none) (hdelay : x.task.delay ≠ 0) (hphase : x.phase = .dropped s.now)
      (hs : Reaches scene r₀ s) (hr : Reaches scene s r) (haborted : s.aborted = true)
      (hdue : s.now ≤ x.since + x.task.delay)

theorem Reaches.commences (h : Reaches scene r₀ r) (h₀ : r₀.Unworked) (hx : r.executions[e]? = some x) :
    Commences scene r₀ r e x := by
  have hr := h.scheduled h₀.scheduled
  have hbegins : r.begins (r.beginBody e) e x.task = true := beginBody_begins hx fun i => hr.manned.built hx
  cases hr.timely e x hx with
  | waiting hphase hbegan hsince =>
    refine .pending hbegan (by simp [Execution.finished, hphase]) (by omega) fun hnow => ?_
    have hdelay : x.task.delay = 0 := by omega
    exact ⟨.look e, _, rfl, by simp [Run.step, look, hx, hphase, hdelay], hbegins⟩
  | delayed hphase hbegan hdelay hsince hdue =>
    refine .pending hbegan (by simp [Execution.finished, hphase]) hdue fun hnow => ?_
    exact ⟨.elapse e, _, rfl, by simp [Run.step, elapse, hx, hphase, hnow], hbegins⟩
  | launched _ hbegan =>
    obtain ⟨s, a, t, hs, ha, hstep, ht, hnow, hopening⟩ := h.opened h₀ hx hbegan
    exact .begun s t a hbegan hs ha hstep ht hnow hopening
  | dropped time hphase hbegan hdelay hdue =>
    obtain ⟨s, hs, hsr, haborted, rfl⟩ := h.dropped h₀.executions hx hphase
    exact .dropped s hbegan hdelay hphase hs hsr haborted hdue

end Run

end ExchangeLoad
