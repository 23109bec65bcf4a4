import ExchangeLoad.Proofs.Run.History
import ExchangeLoad.Proofs.Run.Loop
import ExchangeLoad.Proofs.Run.Work

/-!
What no step takes back, and what each step does to the clock and to the timed loop. A call that is
over keeps its result, a request to stop stays, and time passes only while everything is quiet.
-/

namespace ExchangeLoad.Run

variable {scene : Scene} {r t : Run} {a : Step} {c e : Nat}

/-- What holds from before a step to after it. -/
structure Onward (r t : Run) : Prop where
  signalled : r.signalled = true → t.signalled = true
  results : ∀ k result, r.resultOf k = some result → t.resultOf k = some result
  errors : ∀ k e, t.resultOf k = some (.error e) → r.resultOf k = some (.error e) ∨ e.fatal = false
  clock : t.now = r.now ∨ r.quiet = true ∧ r.now ≤ t.now ∧ r.horizon.all (t.now ≤ ·) = true

namespace Onward

/-- Records that no part of this looks at may change at will. -/
theorem of_eq (h : (t.now, t.signalled, t.controls) = (r.now, r.signalled, r.controls)) : Onward r t := by
  simp only [Prod.mk.injEq] at h
  obtain ⟨hnow, hsignalled, hcontrols⟩ := h
  have hresult (k : Nat) : t.resultOf k = r.resultOf k := by simp only [resultOf, hcontrols]
  refine ⟨fun h => hsignalled.trans h, ?_, ?_, .inl hnow⟩
  · intro k result h
    rwa [hresult k]
  · intro k e h
    exact .inl (by rwa [hresult k] at h)

/-- A new call has no result yet. -/
theorem enter (command : Command) (driven : Bool) : Onward r (r.enter command driven) := by
  have hresult (k : Nat) : (r.enter command driven).resultOf k = r.resultOf k := by
    by_cases hk : k = r.controls.size
    · subst hk
      simp [resultOf, Run.enter]
    · simp [resultOf, Run.enter, Array.getElem?_push, hk]
  refine ⟨fun h => h, ?_, ?_, .inl rfl⟩
  · intro k result h
    rwa [hresult k]
  · intro k e h
    exact .inl (by rwa [hresult k] at h)

end Onward

theorem CallMove.onward {x : Control} (hx : r.controls[c]? = some x) (h : CallMove scene c r x a t) :
    Onward r t := by
  have hstretch := h.stretch
  have hnow : t.now = r.now := congrArg Surroundings.now hstretch.surroundings
  have hsignalled : t.signalled = r.signalled := congrArg Surroundings.signalled hstretch.surroundings
  have hother (k : Nat) (hk : k ≠ c) : t.resultOf k = r.resultOf k := by
    simp only [resultOf, hstretch.controls k hk]
  refine ⟨fun h => hsignalled.trans h, ?_, ?_, .inl hnow⟩
  · intro k result hresult
    by_cases hk : k = c
    · subst hk
      rw [resultOf_of_getElem? hx] at hresult
      split at hresult
      · next stand => exact absurd stand (h.not_ended _)
      · cases hresult
    · rwa [hother k hk]
  · intro k e hresult
    by_cases hk : k = c
    · subst hk
      exact hstretch.result e hresult
    · exact .inl (by rwa [hother k hk] at hresult)

theorem TaskMove.backdrop {x : Execution} (hx : r.executions[e]? = some x) (h : TaskMove e r x a t) :
    t.backdrop = r.backdrop := by
  obtain ⟨_, _, _, _, _, hworked, _⟩ | ⟨_, _, _, _, hworked⟩ := h.worked hx
  · exact hworked.backdrop
  · exact hworked.backdrop

theorem step_onward (h : r.step scene a = some t) : Onward r t := by
  obtain ⟨c, x, hx, hmove⟩ | ⟨e, x, hx, hmove⟩ | hmove := step_cases h
  · exact hmove.onward hx
  · have hsame := congrArg (fun b => (b.now, b.signalled, b.controls)) (hmove.backdrop hx)
    exact .of_eq hsame
  · cases hmove with
    | wait ms hquiet hhorizon =>
      exact ⟨fun h => h, fun _ _ h => h, fun _ _ h => .inl h, .inr ⟨hquiet, Nat.le_add_right _ _, hhorizon⟩⟩
    | enter command => exact .enter command false
    | signal => exact ⟨fun _ => rfl, fun _ _ h => h, fun _ _ h => .inl h, .inl rfl⟩
    | drive hdrive =>
      obtain ⟨_, rfl⟩ := drive_eq_some hdrive
      obtain ⟨hsignalled, hresults, herrors, hclock⟩ := Onward.enter (r := r) .start true
      exact ⟨hsignalled, hresults, herrors, hclock⟩
    | collect hcollect =>
      obtain ⟨_, _, _, _, ⟨_, _, rfl⟩ | ⟨_, _, _, _, rfl⟩⟩ := collect_eq_some hcollect
      · exact .of_eq rfl
      · exact .of_eq rfl
    | tick htick =>
      obtain ⟨_, _, _, rfl⟩ := tick_eq_some htick
      obtain ⟨hsignalled, hresults, herrors, hclock⟩ := Onward.enter (r := r) .tick true
      exact ⟨hsignalled, hresults, herrors, hclock⟩
    | leave _ hleave =>
      obtain ⟨_, _, s, rfl, rfl | ⟨c, x, _, hx, hmove⟩⟩ := leave_eq_some scene hleave
      · exact .of_eq rfl
      · obtain ⟨hsignalled, hresults, herrors, hclock⟩ := hmove.onward hx
        exact ⟨hsignalled, hresults, herrors, hclock⟩
    | _ => exact .of_eq rfl

/-- Whether a step is one of the timed loop. -/
def Step.ofLoop : Step → Bool
  | .drive => true
  | .collect => true
  | .tick => true
  | .leave _ => true
  | _ => false

/-- What a step does to the timed loop. -/
inductive LoopMove (scene : Scene) (r : Run) (a : Step) (t : Run) : Prop where
  | aside (ha : a.ofLoop = false) (hloop : t.loop = r.loop) (hdeadline : t.deadline = r.deadline)
  | drive (hbefore : r.loop = .unstarted) (hloop : t.loop = .starting r.controls.size)
      (hdeadline : t.deadline = r.now + 1000 * scene.schedule.duration)
  | rest (c due : Nat) (tasks : List Task) (hcall : r.drivenCall = some c)
      (hresult : r.resultOf c = some (.ok tasks)) (hloop : t.loop = .resting due)
      (hdue : due = r.now ∧ r.loop = .starting c ∨ r.loop = .ticking c due)
      (hdeadline : t.deadline = r.deadline)
  | fail (c : Nat) (e : RunError) (hcall : r.drivenCall = some c)
      (hresult : r.resultOf c = some (.error e)) (hloop : t.loop = .ended (.ofError e) r.now)
  | tick (due : Nat) (hbefore : r.loop = .resting due) (hdue : due ≤ r.now)
      (hloop : t.loop = .ticking r.controls.size (nextDue scene due r.now))
      (hdeadline : t.deadline = r.deadline)
  | leave (cause : Cause) (hdriving : r.driving = true) (hholds : r.holds cause = true)
      (hloop : t.loop = .ended cause.outcome r.now)

theorem step_loopMove (h : r.step scene a = some t) : LoopMove scene r a t := by
  cases ha : a.ofLoop with
  | true =>
    cases a with
    | drive =>
      obtain ⟨hbefore, rfl⟩ := drive_eq_some h
      exact .drive hbefore rfl rfl
    | collect =>
      obtain ⟨c, result, hcall, hresult, ⟨e, rfl, rfl⟩ | ⟨due, tasks, rfl, hdue, rfl⟩⟩ := collect_eq_some h
      · exact .fail c e hcall hresult rfl
      · exact .rest c due tasks hcall hresult rfl hdue rfl
    | tick =>
      obtain ⟨due, hbefore, hdue, rfl⟩ := tick_eq_some h
      exact .tick due hbefore hdue rfl rfl
    | leave cause =>
      obtain ⟨hdriving, hholds, s, rfl, _⟩ := leave_eq_some scene h
      exact .leave cause hdriving hholds rfl
    | _ => cases ha
  | false =>
    obtain ⟨c, x, hx, hmove⟩ | ⟨e, x, hx, hmove⟩ | hmove := step_cases h
    · have hsame := hmove.stretch.surroundings
      exact .aside ha (congrArg Surroundings.loop hsame) (congrArg Surroundings.deadline hsame)
    · have hsame := hmove.backdrop hx
      exact .aside ha (congrArg Backdrop.loop hsame) (congrArg Backdrop.deadline hsame)
    · cases hmove with
      | drive => cases ha
      | collect => cases ha
      | tick => cases ha
      | leave => cases ha
      | _ => exact .aside ha rfl rfl

/-- To the pipeline a step does nothing that the producer and its callers could not do. -/
theorem step_pipeline (h : r.step scene a = some t) :
    ∃ acts, r.pipeline.play scene.identity acts = some t.pipeline := by
  obtain ⟨c, x, _, hmove⟩ | ⟨e, x, hx, hmove⟩ | hmove := step_cases h
  · exact hmove.stretch.pipeline
  · exact ⟨[], congrArg some (congrArg Backdrop.pipeline (hmove.backdrop hx)).symm⟩
  · cases hmove with
    | pipeline _ acts _ hacts => exact ⟨acts, hacts⟩
    | drive hdrive =>
      obtain ⟨_, rfl⟩ := drive_eq_some hdrive
      exact ⟨[], rfl⟩
    | collect hcollect =>
      obtain ⟨_, _, _, _, ⟨_, _, rfl⟩ | ⟨_, _, _, _, rfl⟩⟩ := collect_eq_some hcollect
      · exact ⟨[], rfl⟩
      · exact ⟨[], rfl⟩
    | tick htick =>
      obtain ⟨_, _, _, rfl⟩ := tick_eq_some htick
      exact ⟨[], rfl⟩
    | leave _ hleave =>
      obtain ⟨_, _, s, rfl, rfl | ⟨c, x, _, _, hmove⟩⟩ := leave_eq_some scene hleave
      · exact ⟨[], rfl⟩
      · exact hmove.stretch.pipeline
    | _ => exact ⟨[], rfl⟩

/-- The pipeline of a run has a history of its own. -/
theorem Becomes.pipeline {kind : Step → Prop} (h : Becomes scene kind r t) :
    ∃ acts, r.pipeline.play scene.identity acts = some t.pipeline := by
  induction h with
  | refl => exact ⟨[], rfl⟩
  | @step s t a _ _ hs ih =>
    obtain ⟨before, hbefore⟩ := ih
    obtain ⟨acts, hacts⟩ := step_pipeline hs
    exact ⟨before ++ acts, Pipeline.play_append.mpr ⟨s.pipeline, hbefore, hacts⟩⟩
  | pass _ _ ih => exact ih

end ExchangeLoad.Run
