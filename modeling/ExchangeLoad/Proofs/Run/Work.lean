import ExchangeLoad.Proofs.Investor.Jobs
import ExchangeLoad.Proofs.Run.Stretch

/-!
What the execution of a task can do between two waits. It leaves the clock, the controller, the
pipeline and the timed loop alone. It may hear one answer, book points, and fail, which counts an
error and aborts the run where that uses up the budget.
-/

namespace ExchangeLoad

/-- Whether an execution ended with a failure. -/
def Execution.failed (e : Execution) : Bool :=
  match e.phase with
  | .ended _ (some _) => true
  | _ => false

/-- From one tracker to another, points may have been booked but no error. -/
def Tracker.Grew (before after : Tracker) : Prop :=
  after = before ∨ ∃ gain, after = before.addScore gain

/-- Whether a task is one that the investors of a run without scripts hand out. -/
def Task.OfTrader : Task → Prop
  | exec _ _ (.scripted _) => False
  | _ => True

namespace Run

/-- What stays as it is while tasks are executed. -/
structure Backdrop where
  now : Nat
  pipeline : Pipeline
  level : Nat
  weighings : Array Weighing
  starts : Array Nat
  controls : Array Control
  line : List Nat
  held : List Task
  shutdowns : Array Shutdown
  signalled : Bool
  loop : Loop
  deadline : Nat

/-- What stays as it is while tasks are executed. -/
def backdrop (r : Run) : Backdrop :=
  ⟨r.now, r.pipeline, r.level, r.weighings, r.starts, r.controls, r.line, r.held, r.shutdowns, r.signalled,
    r.loop, r.deadline⟩

/-- How many executions ended with a failure. -/
def failedJobs (r : Run) : Nat := r.executions.toList.countP Execution.failed

/-- Everything that the clients of the investors were answered, in no particular order. -/
def answers (r : Run) : List (Request × Reply) := r.clients.flatMap (·.answers.toList)

/-- What the books say of the way from one run to another: answers were heard, points were booked into
    a tracker, and a job failed or did not. -/
structure Booked (heard : List (Request × Reply)) (booked : Tracker) (failed : Bool) (r t : Run) : Prop where
  answers : t.answers.Perm (r.answers ++ heard)
  tracker : t.tracker = if failed then booked.countError else booked
  failures : t.failures = if failed then r.failures.push t.tracker else r.failures
  aborted : t.aborted = (r.aborted || (failed && decide t.tracker.Spent))
  failedJobs : t.failedJobs = r.failedJobs + if failed then 1 else 0

/-- An execution went on from one run to another. -/
structure Worked (heard : List (Request × Reply)) (booked : Tracker) (failed : Bool) (r t : Run) : Prop
    extends Booked heard booked failed r t where
  backdrop : t.backdrop = r.backdrop

/-- The execution with a number is there and has not failed. -/
def Running (r : Run) (e : Nat) : Prop := ∃ x, r.executions[e]? = some x ∧ x.failed = false

variable {r s : Run} {e i : Nat}

theorem countP_modify {α : Type} {p : α → Bool} {f : α → α} {xs : Array α} {x : α}
    (hx : xs[e]? = some x) (hp : p x = false) :
    (xs.modify e f).toList.countP p = xs.toList.countP p + if p (f x) then 1 else 0 := by
  obtain ⟨he, rfl⟩ := Array.getElem?_eq_some_iff.mp hx
  have hlength : e < xs.toList.length := by simpa using he
  have hset : xs.toList.modify e f = xs.toList.set e (f xs[e]) := by
    have : Inhabited α := ⟨xs[e]⟩
    rw [List.modify_eq_set]
    simp [he]
  rw [Array.toList_modify, hset, List.countP_set hlength]
  simp [hp]

/-- Changing one member of a list adds what its image gains. -/
theorem flatMap_set_perm {α β : Type} {f : α → List β} {l : List α} {a b : α} {gain : List β}
    (ha : l[i]? = some a) (hf : f b = f a ++ gain) : ((l.set i b).flatMap f).Perm (l.flatMap f ++ gain) := by
  induction l generalizing i with
  | nil => simp at ha
  | cons x l ih =>
    cases i with
    | zero =>
      obtain rfl : x = a := by simpa using ha
      simp only [List.set_cons_zero, List.flatMap_cons, hf, List.append_assoc]
      exact List.Perm.append_left _ List.perm_append_comm
    | succ i =>
      simp only [List.set_cons_succ, List.flatMap_cons, List.append_assoc]
      exact List.Perm.append_left _ (ih (by simpa using ha))

theorem answers_withInvestor {v w : Investor} {new : List (Request × Reply)}
    (hv : r.investors[i]? = some v)
    (hanswers : w.client.answers.toList = v.client.answers.toList ++ new) :
    (r.withInvestor i w).answers.Perm (r.answers ++ new) := by
  unfold answers
  rw [clients_withInvestor]
  refine flatMap_set_perm (a := v.client) ?_ hanswers
  simp [clients, hv]

namespace Worked

variable {heard : List (Request × Reply)} {booked : Tracker}

theorem refl (r : Run) : Worked [] r.tracker false r r :=
  ⟨⟨by simp, rfl, rfl, by simp, rfl⟩, rfl⟩

variable (h : Worked heard booked false r s)
include h

/-- Records that no account looks at may change at will. -/
theorem of_eq {t : Run} (hsame : (t.backdrop, t.investors, t.tracker, t.failures, t.aborted, t.executions) =
    (s.backdrop, s.investors, s.tracker, s.failures, s.aborted, s.executions)) :
    Worked heard booked false r t := by
  simp only [Prod.mk.injEq] at hsame
  obtain ⟨hbackdrop, hinvestors, htracker, hfailures, haborted, hexecutions⟩ := hsame
  obtain ⟨⟨hans, ht, hf, ha, hj⟩, hb⟩ := h
  refine ⟨⟨?_, htracker.trans ht, hfailures.trans hf, ?_, ?_⟩, hbackdrop.trans hb⟩
  · simpa only [Run.answers, Run.clients, hinvestors] using hans
  · simpa [haborted] using ha
  · simpa only [Run.failedJobs, hexecutions] using hj

theorem withInvestor {v w : Investor} {new : List (Request × Reply)} (hv : s.investors[i]? = some v)
    (hanswers : w.client.answers.toList = v.client.answers.toList ++ new) :
    Worked (heard ++ new) booked false r (s.withInvestor i w) := by
  obtain ⟨⟨hans, ht, hf, ha, hj⟩, hb⟩ := h
  refine ⟨⟨?_, ht, hf, ha, hj⟩, hb⟩
  rw [← List.append_assoc]
  exact (answers_withInvestor hv hanswers).trans (hans.append_right new)

theorem addScore (gain : Int) :
    Worked heard (booked.addScore gain) false r { s with tracker := s.tracker.addScore gain } := by
  obtain ⟨⟨hans, ht, hf, ha, hj⟩, hb⟩ := h
  refine ⟨⟨hans, ?_, hf, by simpa using ha, hj⟩, hb⟩
  exact congrArg (Tracker.addScore · gain) ht

/-- An execution may note things down about itself, and go on to a phase that is no failure. -/
theorem modifyExecution {f : Execution → Execution} (hrunning : s.Running e)
    (hf : ∀ x, x.failed = false → (f x).failed = false) :
    Worked heard booked false r { s with executions := s.executions.modify e f } := by
  obtain ⟨⟨hans, ht, hfail, ha, hj⟩, hb⟩ := h
  obtain ⟨x, hx, hnot⟩ := hrunning
  refine ⟨⟨hans, ht, hfail, ha, ?_⟩, hb⟩
  rw [Run.failedJobs, countP_modify hx hnot, hf x hnot]
  exact hj

theorem withPhase {phase : Phase} (hrunning : s.Running e)
    (hphase : ∀ time why, phase ≠ .ended time (some why)) :
    Worked heard booked false r (s.withPhase e phase) := by
  refine h.modifyExecution hrunning fun x _ => ?_
  unfold Execution.failed
  split
  · next time why heq => exact absurd heq (hphase time why)
  · rfl

theorem close {phase : Phase} (hrunning : s.Running e)
    (hphase : ∀ time why, phase ≠ .ended time (some why)) :
    Worked heard booked false r (s.close e phase) := by
  refine Worked.withPhase ?_ ?_ hphase
  · exact h.of_eq rfl
  · exact hrunning

theorem conclude (failure : Option Fault) (hrunning : s.Running e) :
    Worked heard booked failure.isSome r (s.conclude e failure) := by
  cases failure with
  | none => exact h.close hrunning fun _ _ => by simp
  | some why =>
    obtain ⟨⟨hans, ht, hf, ha, hj⟩, hb⟩ := h
    obtain ⟨x, hx, hnot⟩ := hrunning
    refine ⟨⟨hans, ?_, ?_, ?_, ?_⟩, hb⟩
    · exact congrArg Tracker.countError ht
    · have hsame : s.failures = r.failures := hf
      rw [← hsame]
      rfl
    · have hsame : s.aborted = r.aborted := by simpa using ha
      simp [Run.conclude, countFailure, endExecution, Run.close, Run.withPhase, hsame]
    · have hcount := countP_modify (f := fun y => { y with phase := .ended s.now (some why) }) hx hnot
      rw [show Execution.failed _ = true from rfl, if_pos rfl] at hcount
      exact hcount.trans (congrArg (· + 1) hj)

theorem advance {v : Investor} (after : Investor × Progress) {new : List (Request × Reply)}
    (hv : s.investors[i]? = some v)
    (hanswers : after.1.client.answers.toList = v.client.answers.toList ++ new) (hrunning : s.Running e) :
    Worked (heard ++ new) booked after.2.failed r (s.advance e i after) := by
  have hinvestor := h.withInvestor hv hanswers
  unfold Run.advance
  cases hafter : after.2 with
  | waits point => exact hinvestor.withPhase hrunning fun _ _ => by simp
  | ended failure =>
    have hconcluded := hinvestor.conclude failure hrunning
    cases failure <;> exact hconcluded

theorem advance_unheard {v : Investor} {after : Investor × Progress} (hv : s.investors[i]? = some v)
    (hafter : after.1.client.answers = v.client.answers ∧ after.2.failed = false) (hrunning : s.Running e) :
    Worked heard booked false r (s.advance e i after) := by
  have hanswers : after.1.client.answers.toList = v.client.answers.toList ++ [] := by
    rw [hafter.1, List.append_nil]
  have hadvanced := h.advance after hv hanswers hrunning
  rw [List.append_nil, hafter.2] at hadvanced
  exact hadvanced

theorem note (label what : String) : Worked heard booked false r (s.note label what) :=
  h.of_eq rfl

/-- A scripted job may change an investor, but not its client. -/
theorem perform (script : Script) (hrunning : s.Running e) :
    Worked heard (booked.addScore script.score) script.failure.isSome r (s.perform e script) := by
  have hscored := h.addScore script.score
  unfold Run.perform
  rw [← Option.isSome_map (f := Fault.plain)]
  cases script.change with
  | none => exact hscored.conclude _ hrunning
  | some change =>
    cases hv : s.investors[change.investor]? with
    | none =>
      simp only [hv, Option.elim_none]
      exact hscored.conclude _ hrunning
    | some v =>
      simp only [hv, Option.elim_some]
      have hanswers : (v.change change).client.answers.toList = v.client.answers.toList ++ [] := by
        simp [Investor.change]
      have hchanged := hscored.withInvestor hv hanswers
      rw [List.append_nil] at hchanged
      exact hchanged.conclude _ hrunning

end Worked

/-- A stretch of an execution that hears nothing: it may book points, and only a scripted job does, or
    fails. -/
def WorkedUnheard (e : Nat) (r t : Run) : Prop :=
  ∃ x booked failed, r.executions[e]? = some x ∧ r.tracker.Grew booked ∧ Worked [] booked failed r t ∧
    (x.task.OfTrader → booked = r.tracker ∧ failed = false)

variable {t : Run} {x : Execution}

theorem Worked.unheard (h : Worked [] r.tracker false r t) (hx : r.executions[e]? = some x) :
    WorkedUnheard e r t :=
  ⟨x, r.tracker, false, hx, .inl rfl, h, fun _ => ⟨rfl, rfl⟩⟩

theorem Worked.scripted {booked : Tracker} {failed : Bool} {label : String} {delay : Nat} {script : Script}
    (h : Worked [] booked failed r t) (hgrew : r.tracker.Grew booked) (hx : r.executions[e]? = some x)
    (htask : x.task = .exec label delay (.scripted script)) : WorkedUnheard e r t :=
  ⟨x, booked, failed, hx, hgrew, h, fun htrader => by simp [htask, Task.OfTrader] at htrader⟩

theorem Running.of_phase (hx : r.executions[e]? = some x)
    (hphase : ∀ time why, x.phase ≠ .ended time (some why)) : r.Running e := by
  refine ⟨x, hx, ?_⟩
  unfold Execution.failed
  split
  · next time why heq => exact absurd heq (hphase time why)
  · rfl

theorem beginScript_worked (label : String) (script : Script) (hrunning : s.Running e)
    (h : Worked [] r.tracker false r s) :
    ∃ booked failed, r.tracker.Grew booked ∧ Worked [] booked failed r (s.beginScript e label script) := by
  have hnoted := h.note label (if s.aborted then "run-cancelled" else "run")
  unfold beginScript
  generalize (if s.aborted then "run-cancelled" else "run") = what at hnoted ⊢
  cases script.work with
  | none => exact ⟨_, _, .inr ⟨script.score, rfl⟩, hnoted.perform script hrunning⟩
  | some ms =>
    simp only
    split
    · exact ⟨_, _, .inl rfl, (hnoted.note label "stopped").conclude none hrunning⟩
    · exact ⟨_, _, .inl rfl, hnoted.withPhase hrunning fun _ _ => by simp⟩

/-- The run once the body of an execution has begun. -/
def begun (r : Run) (e : Nat) : Run :=
  { r with executions := r.executions.modify e fun x => { x with began := some r.now } }

theorem beginBody_worked (hx : r.executions[e]? = some x) (hnot : x.failed = false) :
    WorkedUnheard e r (r.beginBody e) := by
  have hbegun : (r.begun e).executions[e]? = some { x with began := some r.now } := by
    simp [begun, Array.getElem?_modify, hx]
  have hrunning : (r.begun e).Running e := ⟨_, hbegun, hnot⟩
  have hworked : Worked [] r.tracker false r (r.begun e) :=
    (Worked.refl r).modifyExecution ⟨x, hx, hnot⟩ fun _ h => h
  unfold beginBody
  rw [← begun]
  simp only [hbegun, Option.map_some]
  split
  · next label delay job htask =>
    split
    · next i =>
      cases hv : (r.begun e).investors[i]? with
      | none => exact hworked.unheard hx
      | some v =>
        have hadvanced := hworked.advance_unheard hv (v.beginSignIn_answers (r.begun e).aborted) hrunning
        exact hadvanced.unheard hx
    · next i price =>
      cases hv : (r.begun e).investors[i]? with
      | none => exact hworked.unheard hx
      | some v =>
        have hadvanced := hworked.advance_unheard hv (v.beginTrade_answers price) hrunning
        exact hadvanced.unheard hx
    · next script =>
      obtain ⟨booked, failed, hgrew, hscript⟩ := beginScript_worked label script hrunning hworked
      exact hscript.scripted hgrew hx (Option.some.inj htask)
  · refine Worked.unheard (Worked.withPhase ?_ hrunning fun _ _ => by simp) hx
    exact hworked.of_eq rfl
  · next hnone => cases hnone

/-- A stretch of a trader's job after an answer: it earns what the answer is worth, and fails if the
    answer is a failure. -/
def WorkedHeard (reply : Reply) (r t : Run) : Prop :=
  ∃ v p, Worked [(Investor.request v p, reply)] (r.tracker.addScore (earned (v.request p, reply)))
    reply.refused r t

/-- An execution that goes on hears nothing, or gets the answer for a trader's job. -/
theorem TaskMove.worked {a : Step} (hx : r.executions[e]? = some x) (h : TaskMove e r x a t) :
    WorkedUnheard e r t ∨ ∃ reply, a = .hear e reply ∧ WorkedHeard reply r t := by
  cases h with
  | begin _ hphase =>
    refine .inl (beginBody_worked hx ?_)
    obtain ⟨hphase, _⟩ | ⟨_, _, hphase⟩ := hphase <;> simp [Execution.failed, hphase]
  | delay hphase =>
    have hrunning : r.Running e := .of_phase hx fun _ _ => by simp [hphase]
    exact .inl (((Worked.refl r).withPhase hrunning fun _ _ => by simp).unheard hx)
  | drop _ hphase =>
    have hrunning : r.Running e := .of_phase hx fun _ _ => by
      obtain ⟨hphase, _⟩ | ⟨_, hphase⟩ := hphase <;> simp [hphase]
    exact .inl (((Worked.refl r).close hrunning fun _ _ => by simp).unheard hx)
  | hear point i v w reply gain progress hphase _ hv hresume =>
    have hrunning : r.Running e := .of_phase hx fun _ _ => by simp [hphase]
    obtain ⟨hanswers, rfl, hprogress⟩ := Investor.resume_eq_some hresume
    have hscored := (Worked.refl r).addScore (earned (v.request point, reply))
    have hadvanced := hscored.advance (w, progress) hv hanswers hrunning
    rw [hprogress] at hadvanced
    exact .inr ⟨reply, rfl, v, point, hadvanced⟩
  | finish wake label delay script hphase htask =>
    have hrunning : r.Running e := .of_phase hx fun _ _ => by simp [hphase]
    have hperformed := ((Worked.refl r).note label "done").perform script hrunning
    exact .inl (hperformed.scripted (.inr ⟨script.score, rfl⟩) hx htask)
  | stop wake label delay script hphase =>
    have hrunning : r.Running e := .of_phase hx fun _ _ => by simp [hphase]
    exact .inl ((((Worked.refl r).note label "stopped").conclude none hrunning).unheard hx)
  | enrol deposit i credit accepted hphase =>
    have hrunning : r.Running e := .of_phase hx fun _ _ => by simp [hphase]
    refine .inl (Worked.unheard (Worked.close ?_ hrunning fun _ _ => by simp) hx)
    exact (Worked.refl r).of_eq rfl

end Run

end ExchangeLoad
