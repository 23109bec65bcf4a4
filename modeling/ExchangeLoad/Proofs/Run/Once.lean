import ExchangeLoad.Proofs.Run.Timetable

/-!
Every task is carried out once. What a history does for one execution is counted step by step: when it did
what its body does first, and whom it registered. Both are found again in the execution, which has room for
one start and one registration; and the count of the work under way is that of the executions that are not
over.
-/

namespace ExchangeLoad

/-- Whom the execution of a task has registered. -/
def Execution.enlisted (x : Execution) : List Nat :=
  if x.finished then (x.task.enrolment?.map Prod.fst).toList else []

namespace Run

/-- As much is counted as under way as there is. -/
def Balanced (r : Run) : Prop := r.inFlight = r.executions.toList.countP Execution.underWay

variable {scene : Scene} {r₀ r s t : Run} {a : Step} {c e : Nat} {x y : Execution} {steps : List Step}

section Openings

end Openings

section Enlistings

end Enlistings

section Balance

theorem Hands.balanced (h : Hands r t) (hr : r.Balanced) : t.Balanced := by
  obtain ⟨new, hexecutions, hnew, hinFlight⟩ := h
  have hcount : new.countP Execution.underWay = new.countP Execution.submitted := by
    refine List.countP_congr fun z hz => ?_
    obtain ⟨-, submitted, task, rfl⟩ := hnew z hz
    simp [Execution.underWay, Execution.handed, Execution.finished]
  rw [Balanced, hinFlight, hr, hexecutions, List.countP_append, hcount]

theorem TaskMove.balanced (hx : r.executions[e]? = some x) (h : TaskMove e r x a t) (hr : r.Balanced) :
    t.Balanced := by
  obtain ⟨y, hset, hleg, hinFlight, -⟩ := h.stride hx
  have hsubmitted : y.submitted = x.submitted := congrArg (·.2.1) hleg.handing
  obtain ⟨he, hat⟩ := List.getElem?_eq_some_iff.mp (show r.executions.toList[e]? = some x by
    rw [Array.getElem?_toList, hx])
  have hpositive : x.underWay = true → 0 < r.executions.toList.countP Execution.underWay :=
    fun hunderWay => List.countP_pos_iff.mpr ⟨x, List.mem_of_getElem hat, hunderWay⟩
  rw [Balanced, hset, List.countP_set he, hat, hinFlight, hr]
  simp only [Execution.underWay, Execution.relief, h.unfinished, hsubmitted] at hpositive ⊢
  cases hsub : x.submitted <;> cases hfin : y.finished <;> simp_all

theorem step_balanced (h : r.step scene a = some t) (hr : r.Balanced) : t.Balanced := by
  cases ha : a.execution? with
  | none => exact (step_hands ha h).balanced hr
  | some e =>
    obtain ⟨x, hx, hmove⟩ := step_taskMove ha h
    exact hmove.balanced hx hr

theorem Reaches.balanced (h : Reaches scene r t) (hr : r.Balanced) : t.Balanced :=
  h.preserves (fun _ _ _ hs hstep => step_balanced hstep hs) hr

theorem Unworked.balanced (h : r.Unworked) : r.Balanced := by
  simp [Balanced, h.executions, h.inFlight]

end Balance

/-- A task that is submitted becomes an execution of its own, and stays what it was. -/
theorem submit_handing {place : Nat} (h : r.step scene (.submit place) = some s) (hs : Reaches scene s t) :
    ∃ task x, r.held[place]? = some task ∧ t.executions[r.executions.size]? = some x ∧
      (x.task, x.submitted, x.since) = (task, true, r.now) := by
  obtain ⟨task, htask, hlaunch⟩ := Option.bind_eq_some_iff.mp h
  obtain rfl := Option.some.inj hlaunch
  have hnew : (Run.launch { r with held := r.held.eraseIdx place } task true).executions[r.executions.size]? =
      some (.handed r.now true task) := by
    simp [launch, Execution.handed]
  obtain ⟨x, hx, hsame⟩ := hs.handing hnew
  exact ⟨task, x, htask, hx, hsame⟩

end Run

end ExchangeLoad
