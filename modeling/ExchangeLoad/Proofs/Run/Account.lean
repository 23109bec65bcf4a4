import ExchangeLoad.Proofs.Run.Loop
import ExchangeLoad.Proofs.Run.Work

/-!
The books of a run, step by step. Whatever is neither the execution of a task nor somebody outside
who meddles with score, errors or the end of the run leaves the books as they are: the controller,
the pipeline, deposits, the timed loop, and clients that retire.
-/

namespace ExchangeLoad.Run

variable {scene : Scene} {r t : Run} {c i : Nat}

namespace Booked

/-- Records that are no part of the books may change at will. -/
theorem of_eq (h : (t.investors, t.tracker, t.failures, t.aborted, t.executions) =
    (r.investors, r.tracker, r.failures, r.aborted, r.executions)) : Booked [] r.tracker false r t := by
  simp only [Prod.mk.injEq] at h
  obtain ⟨hinvestors, htracker, hfailures, haborted, hexecutions⟩ := h
  refine ⟨?_, htracker, hfailures, by simp [haborted], ?_⟩
  · simp [Run.answers, Run.clients, hinvestors]
  · simp [Run.failedJobs, hexecutions]

/-- An investor may change as long as its client remembers the same answers. -/
theorem withInvestor {v w : Investor} (hv : r.investors[i]? = some v)
    (hanswers : w.client.answers = v.client.answers) : Booked [] r.tracker false r (r.withInvestor i w) := by
  refine ⟨?_, rfl, rfl, by simp [Run.withInvestor], rfl⟩
  exact answers_withInvestor hv (by simp [hanswers])

/-- Handing a task over fails no job. -/
theorem launch (task : Task) (submitted : Bool) : Booked [] r.tracker false r (r.launch task submitted) := by
  refine ⟨by simp [Run.answers, Run.clients, Run.launch], rfl, rfl, by simp [Run.launch], ?_⟩
  simp [Run.failedJobs, Run.launch, Execution.failed]

end Booked

theorem Stretch.booked (h : Stretch scene c r t) : Booked [] r.tracker false r t := by
  have htracker : t.tracker = r.tracker := congrArg Surroundings.tracker h.surroundings
  have hfailures : t.failures = r.failures := congrArg Surroundings.failures h.surroundings
  have haborted : t.aborted = r.aborted := congrArg Surroundings.aborted h.surroundings
  obtain ⟨built, hnew, hclients⟩ := h.clients
  obtain ⟨tasks, htasks⟩ := h.executions
  refine ⟨?_, htracker, hfailures, by simp [haborted], ?_⟩
  · have hnothing : built.flatMap (·.answers.toList) = [] :=
      List.flatMap_eq_nil_iff.mpr fun x hx => by simp [(hnew x hx).2]
    simp [Run.answers, hclients, hnothing]
  · have hwaiting (task : Task) : (Execution.handed r.now true task).failed = false := rfl
    simp [Run.failedJobs, htasks, List.countP_map, Function.comp_def, hwaiting]

/-- Somebody outside meddles with the score, the errors or the end of the run. -/
def Step.meddles : Step → Bool
  | .score _ => true
  | .error => true
  | .abort => true
  | _ => false

theorem OtherMove.booked {a : Step} (ha : a.meddles = false) (h : OtherMove scene r a t) :
    Booked [] r.tracker false r t := by
  cases h with
  | abort => cases ha
  | score => cases ha
  | error => cases ha
  | launch _ _ task submitted =>
    obtain ⟨hans, ht, hf, hab, hj⟩ := Booked.launch (r := r) task submitted
    exact ⟨hans, ht, hf, hab, hj⟩
  | drive hdrive =>
    obtain ⟨_, rfl⟩ := drive_eq_some hdrive
    exact .of_eq rfl
  | collect hcollect =>
    obtain ⟨_, _, _, _, ⟨_, _, rfl⟩ | ⟨_, _, _, _, rfl⟩⟩ := collect_eq_some hcollect
    · exact .of_eq rfl
    · exact .of_eq rfl
  | tick htick =>
    obtain ⟨_, _, _, rfl⟩ := tick_eq_some htick
    exact .of_eq rfl
  | leave _ hleave =>
    obtain ⟨_, _, s, rfl, rfl | ⟨c, x, _, _, hmove⟩⟩ := leave_eq_some scene hleave
    · exact .of_eq rfl
    · obtain ⟨hans, ht, hf, hab, hj⟩ := hmove.stretch.booked
      exact ⟨hans, ht, hf, hab, hj⟩
  | investor _ _ _ _ hv _ hanswers => exact .withInvestor hv hanswers
  | _ => exact .of_eq rfl

/-- Only failed jobs count errors, and only they abort the run. -/
def Step.LeavesBudget (a : Step) : Prop := a ≠ .error ∧ a ≠ .abort

theorem Step.score_of_meddles {a : Step} (ha : a.LeavesBudget) (hmeddles : a.meddles = true) :
    ∃ delta, a = .score delta := by
  cases a with
  | score delta => exact ⟨delta, rfl⟩
  | error => exact absurd rfl ha.1
  | abort => exact absurd rfl ha.2
  | _ => cases hmeddles

/-- A step books points or nothing, and then perhaps one failure of a job. -/
theorem step_booked {a : Step} (ha : a.LeavesBudget) (h : r.step scene a = some t) :
    ∃ heard booked failed, r.tracker.Grew booked ∧ Booked heard booked failed r t := by
  obtain ⟨c, x, _, hmove⟩ | ⟨e, x, hx, hmove⟩ | hmove := step_cases h
  · exact ⟨_, _, _, .inl rfl, hmove.stretch.booked⟩
  · obtain ⟨_, booked, failed, _, hgrew, hworked, _⟩ | ⟨reply, _, v, p, hworked⟩ := hmove.worked hx
    · exact ⟨_, booked, failed, hgrew, hworked.toBooked⟩
    · exact ⟨_, _, _, .inr ⟨_, rfl⟩, hworked.toBooked⟩
  · cases hmeddles : a.meddles with
    | false => exact ⟨_, _, _, .inl rfl, hmove.booked hmeddles⟩
    | true =>
      obtain ⟨delta, rfl⟩ := Step.score_of_meddles ha hmeddles
      obtain rfl := Option.some.inj h
      exact ⟨[], _, false, .inr ⟨delta, rfl⟩, by simp [Run.answers, Run.clients], rfl, rfl, by simp, rfl⟩

/-- Whatever happens, a run that has been aborted stays so. -/
theorem step_aborted {a : Step} (h : r.step scene a = some t) (haborted : r.aborted = true) :
    t.aborted = true := by
  by_cases herror : a = .error
  · subst herror
    obtain rfl := Option.some.inj h
    exact haborted
  by_cases habort : a = .abort
  · subst habort
    obtain rfl := Option.some.inj h
    rfl
  obtain ⟨_, _, _, _, hbooked⟩ := step_booked ⟨herror, habort⟩ h
  rw [hbooked.aborted, haborted, Bool.true_or]

end ExchangeLoad.Run
