import ExchangeLoad.Proofs.Run.Account
import ExchangeLoad.Proofs.Run.History
import ExchangeLoad.Proofs.Run.Onward

/-!
When the timed loop ends, and with what. There are four causes, one for each outcome: the time is up,
the run was aborted, somebody asked it to stop, or a call of the loop failed. While a cause holds no
time passes before the loop is over, so that it ends at the first moment at which there is one.
-/

namespace ExchangeLoad.Run

/-- What must hold for the timed loop to end with an outcome. -/
def Due (r : Run) : Outcome → Prop
  | .completed => r.deadline ≤ r.now
  | .errorBudgetExceeded => r.aborted = true
  | .interrupted => r.signalled = true
  | .provisioningFailed => ∃ c e, r.drivenCall = some c ∧ r.resultOf c = some (.error e)

/-- No call ended with an error that stands for a budget used up. -/
def Harmless (r : Run) : Prop := ∀ c e, r.resultOf c = some (.error e) → e.fatal = false

variable {scene : Scene} {r s t : Run} {a : Step} {outcome : Outcome} {time : Nat}

theorem step_harmless (h : r.step scene a = some t) (hr : r.Harmless) : t.Harmless := by
  intro c e hresult
  obtain hbefore | hfatal := (step_onward h).errors c e hresult
  · exact hr c e hbefore
  · exact hfatal

theorem Reaches.harmless (h : Reaches scene r t) (hr : r.Harmless) : t.Harmless :=
  h.preserves (fun _ _ _ hs hstep => step_harmless hstep hs) hr

theorem ofError_of_not_fatal {e : RunError} (h : e.fatal = false) : Outcome.ofError e = .provisioningFailed := by
  simp [Outcome.ofError, h]

theorem driving_of_loop_eq (h : t.loop = r.loop) : t.driving = r.driving := by
  simp only [driving, h]

theorem Cause.due_iff {cause : Cause} : r.Due cause.outcome ↔ r.holds cause = true := by
  cases cause <;> simp [Due, Cause.outcome, holds]

/-- A cause lets the loop go on by itself. -/
theorem ticking_of_due (hdriving : r.driving = true) (hdue : r.Due outcome) : r.ticking = true := by
  unfold driving at hdriving
  unfold ticking
  cases outcome with
  | completed =>
    have hdeadline : r.deadline ≤ r.now := hdue
    cases hloop : r.loop <;> simp_all
  | errorBudgetExceeded =>
    have haborted : r.aborted = true := hdue
    cases hloop : r.loop <;> simp_all
  | interrupted =>
    have hsignalled : r.signalled = true := hdue
    cases hloop : r.loop <;> simp_all
  | provisioningFailed =>
    obtain ⟨c, e, hcall, hresult⟩ := hdue
    unfold drivenCall at hcall
    cases hloop : r.loop <;> simp_all

theorem not_quiet_of_ticking (h : r.ticking = true) : r.quiet = false := by
  simp [quiet, h]

theorem all_earlier (n : Nat) (x y : Option Nat) :
    (earlier x y).all (n ≤ ·) = (x.all (n ≤ ·) && y.all (n ≤ ·)) := by
  cases x with
  | none => rfl
  | some a =>
    cases y with
    | none => simp [earlier]
    | some b =>
      have hmin : n ≤ min a b ↔ n ≤ a ∧ n ≤ b := Nat.le_min
      simp only [earlier, Option.all_some, hmin, Bool.decide_and]

/-- Everything waits no longer than the loop does. -/
theorem le_deadline_of_horizon {n : Nat} (hdriving : r.driving = true)
    (h : r.horizon.all (n ≤ ·) = true) : n ≤ r.deadline := by
  unfold horizon at h
  simp only [all_earlier, Bool.and_eq_true] at h
  obtain ⟨⟨hloop, _⟩, _⟩ := h
  unfold driving at hdriving
  unfold loopMoments at hloop
  cases hat : r.loop with
  | unstarted => simp [hat] at hdriving
  | ended => simp [hat] at hdriving
  | resting due =>
    have hmin : n ≤ min due r.deadline := by simpa [hat, earlier] using hloop
    exact Nat.le_trans hmin (Nat.min_le_right ..)
  | starting => simpa [hat, earlier] using hloop
  | ticking => simpa [hat, earlier] using hloop

/-- A loop that is over stays as it is. -/
theorem LoopMove.of_ended (h : LoopMove scene r a t) (hended : r.loop = .ended outcome time) :
    t.loop = .ended outcome time := by
  have hdriving : r.driving ≠ true := by simp [driving, hended]
  cases h with
  | aside _ hloop _ => rw [hloop, hended]
  | drive hbefore => rw [hended] at hbefore; cases hbefore
  | rest c due tasks hcall => simp [drivenCall, hended] at hcall
  | fail c e hcall => simp [drivenCall, hended] at hcall
  | tick due hbefore => rw [hended] at hbefore; cases hbefore
  | leave cause hd => exact absurd hd hdriving

/-- A loop under way goes on, or ends now with an outcome for which there is a cause. -/
theorem LoopMove.of_driving (h : LoopMove scene r a t) (hr : r.Harmless) (hdriving : r.driving = true) :
    t.driving = true ∧ t.deadline = r.deadline ∨ ∃ outcome, t.loop = .ended outcome r.now ∧ r.Due outcome := by
  cases h with
  | aside _ hloop hdeadline => exact .inl ⟨(driving_of_loop_eq hloop).trans hdriving, hdeadline⟩
  | drive hbefore => simp [driving, hbefore] at hdriving
  | rest c due tasks _ _ hloop _ hdeadline => exact .inl ⟨by simp [driving, hloop], hdeadline⟩
  | fail c e hcall hresult hloop =>
    rw [ofError_of_not_fatal (hr c e hresult)] at hloop
    exact .inr ⟨_, hloop, c, e, hcall, hresult⟩
  | tick due _ _ hloop hdeadline => exact .inl ⟨by simp [driving, hloop], hdeadline⟩
  | leave cause _ hholds hloop => exact .inr ⟨_, hloop, Cause.due_iff.mpr hholds⟩

/-- While a cause holds no time passes, and the cause holds on until the loop is over. -/
theorem step_due (h : r.step scene a = some t) (hr : r.Harmless) (hdriving : r.driving = true)
    (hdue : r.Due outcome) :
    t.now = r.now ∧ (t.driving = true ∧ t.Due outcome ∨ ∃ other, t.loop = .ended other r.now) := by
  have honward := step_onward h
  have hmove := step_loopMove h
  have hnow : t.now = r.now := by
    obtain hnow | ⟨hquiet, _⟩ := honward.clock
    · exact hnow
    · rw [not_quiet_of_ticking (ticking_of_due hdriving hdue)] at hquiet
      cases hquiet
  refine ⟨hnow, ?_⟩
  obtain ⟨hgoesOn, hdeadline⟩ | ⟨other, hended, _⟩ := hmove.of_driving hr hdriving
  · refine .inl ⟨hgoesOn, ?_⟩
    cases outcome with
    | completed =>
      have hpast : r.deadline ≤ r.now := hdue
      rwa [Due, hdeadline, hnow]
    | errorBudgetExceeded => exact step_aborted h hdue
    | interrupted => exact honward.signalled hdue
    | provisioningFailed =>
      obtain ⟨c, e, hcall, hresult⟩ := hdue
      refine ⟨c, e, ?_, honward.results c _ hresult⟩
      cases hmove with
      | aside _ hloop => simpa only [drivenCall, hloop] using hcall
      | drive hbefore => simp [driving, hbefore] at hdriving
      | rest c' _ _ hcall' hresult' =>
        obtain rfl := Option.some.inj (hcall.symm.trans hcall')
        rw [hresult] at hresult'
        cases hresult'
      | fail _ _ _ _ hloop => simp [driving, hloop] at hgoesOn
      | tick _ hbefore => simp [drivenCall, hbefore] at hcall
      | leave _ _ _ hloop => simp [driving, hloop] at hgoesOn
  · exact .inr ⟨other, hended⟩

/-- A loop for whose end there is a cause ends at that very moment, or has not ended yet and no time
    has passed. -/
theorem Reaches.due (h : Reaches scene s t) (hs : s.Harmless) (hdriving : s.driving = true)
    (hdue : s.Due outcome) :
    t.driving = true ∧ t.Due outcome ∧ t.now = s.now ∨ ∃ other, t.loop = .ended other s.now := by
  induction h with
  | refl => exact .inl ⟨hdriving, hdue, rfl⟩
  | step a hsu hstep ih =>
    obtain ⟨hgoesOn, hdueThen, hnow⟩ | ⟨other, hended⟩ := ih
    · obtain ⟨hnow', ⟨hdriving', hdue'⟩ | ⟨other, hended⟩⟩ :=
        step_due hstep (hsu.harmless hs) hgoesOn hdueThen
      · exact .inl ⟨hdriving', hdue', hnow'.trans hnow⟩
      · exact .inr ⟨other, by rw [hended, hnow]⟩
    · exact .inr ⟨other, (step_loopMove hstep).of_ended hended⟩

theorem Reaches.now_le (h : Reaches scene r t) : r.now ≤ t.now := by
  induction h with
  | refl => exact Nat.le_refl _
  | step a _ hstep ih =>
    obtain hnow | ⟨_, hle, _⟩ := (step_onward hstep).clock
    · rwa [hnow]
    · exact Nat.le_trans ih hle

/-- A loop under way is before its end, or at it. -/
theorem step_now_le_deadline (h : r.step scene a = some t) (hr : r.Harmless) (hdriving : r.driving = true)
    (hbefore : r.now ≤ r.deadline) : t.driving = true → t.now ≤ t.deadline ∧ t.deadline = r.deadline := by
  intro hgoesOn
  obtain ⟨_, hdeadline⟩ | ⟨other, hended, _⟩ := (step_loopMove h).of_driving hr hdriving
  · refine ⟨?_, hdeadline⟩
    rw [hdeadline]
    obtain hnow | ⟨_, _, hhorizon⟩ := (step_onward h).clock
    · rwa [hnow]
    · exact le_deadline_of_horizon hdriving hhorizon
  · simp [driving, hended] at hgoesOn

/-- What is known of a run after its timed loop began, if the loop is to end at `stop` at the latest. -/
inductive Driven (scene : Scene) (stop : Nat) (r₁ r : Run) : Prop where
  | underWay (hdriving : r.driving = true) (hdeadline : r.deadline = stop) (hnow : r.now ≤ stop)
  | ended (s : Run) (outcome : Outcome) (hloop : r.loop = .ended outcome s.now) (hs : Reaches scene r₁ s)
      (hr : Reaches scene s r) (hdriving : s.driving = true) (hdeadline : s.deadline = stop)
      (hnow : s.now ≤ stop) (hdue : s.Due outcome)

theorem Reaches.driven {stop : Nat} (h : Reaches scene r t) (hr : r.Harmless)
    (hdriving : r.driving = true) (hdeadline : r.deadline = stop) (hnow : r.now ≤ stop) :
    Driven scene stop r t := by
  induction h with
  | refl => exact .underWay hdriving hdeadline hnow
  | @step s t a hrs hstep ih =>
    cases ih with
    | underWay hdriving hdeadline hnow =>
      have hharmless := hrs.harmless hr
      obtain ⟨hgoesOn, _⟩ | ⟨outcome, hended, hdue⟩ := (step_loopMove hstep).of_driving hharmless hdriving
      · have hbefore : s.now ≤ s.deadline := by rwa [hdeadline]
        obtain ⟨hle, hsame⟩ := step_now_le_deadline hstep hharmless hdriving hbefore hgoesOn
        rw [hsame, hdeadline] at hle
        exact .underWay hgoesOn (hsame.trans hdeadline) hle
      · exact .ended s outcome hended hrs (.step a (.refl s) hstep) hdriving hdeadline hnow hdue
    | ended u outcome hloop hu hus hdriving hdeadline hnow hdue =>
      exact .ended u outcome ((step_loopMove hstep).of_ended hloop) hu (.step a hus hstep) hdriving hdeadline
        hnow hdue

/-- An endless history in which the timed loop gets its turn some time, if it could go on for ever. -/
structure Fair (scene : Scene) (runs : Nat → Run) (steps : Nat → Step) : Prop where
  step : ∀ n, (runs n).step scene (steps n) = some (runs (n + 1))
  turn : ∀ n, (∀ m, n ≤ m → (runs m).ticking = true) → ∃ m, n ≤ m ∧ (steps m).ofLoop = true

/-- A bound for the steps that the timed loop can take before time passes: two for each tick that is
    due, one for a call under way. -/
def stepsLeft (r : Run) : Nat :=
  match r.loop with
  | .starting _ => 3
  | .resting due => 2 * (r.now + 1 - due)
  | .ticking _ due => 2 * (r.now + 1 - due) + 1
  | _ => 0

/-- With ticks apart from each other, each step of the loop leaves it fewer steps, and no other step
    gives it more. -/
theorem step_stepsLeft (hinterval : 0 < scene.schedule.tickInterval) (h : r.step scene a = some t)
    (hnow : t.now = r.now) (hdriving : r.driving = true) (hgoesOn : t.driving = true) :
    t.stepsLeft ≤ r.stepsLeft ∧ (a.ofLoop = true → t.stepsLeft < r.stepsLeft) := by
  cases step_loopMove h with
  | aside ha hloop =>
    have hsame : t.stepsLeft = r.stepsLeft := by simp only [stepsLeft, hloop, hnow]
    exact ⟨Nat.le_of_eq hsame, fun hof => by rw [ha] at hof; cases hof⟩
  | drive hbefore => simp [driving, hbefore] at hdriving
  | rest c due tasks _ _ hloop hdue =>
    have hfewer : t.stepsLeft < r.stepsLeft := by
      obtain ⟨rfl, hbefore⟩ | hbefore := hdue
      · simp only [stepsLeft, hloop, hbefore, hnow]
        omega
      · simp only [stepsLeft, hloop, hbefore, hnow]
        omega
    exact ⟨Nat.le_of_lt hfewer, fun _ => hfewer⟩
  | fail _ _ _ _ hloop => simp [driving, hloop] at hgoesOn
  | tick due hbefore hdue hloop =>
    have hfewer : t.stepsLeft < r.stepsLeft := by
      simp only [stepsLeft, hloop, hbefore, hnow, nextDue]
      split <;> omega
    exact ⟨Nat.le_of_lt hfewer, fun _ => hfewer⟩
  | leave _ _ _ hloop => simp [driving, hloop] at hgoesOn

section Fairness

variable {runs : Nat → Run} {steps : Nat → Step} {n m : Nat}

theorem Fair.reaches (h : Fair scene runs steps) (hle : n ≤ m) : Reaches scene (runs n) (runs m) := by
  induction hle with
  | refl => exact .refl _
  | step _ ih => exact .step _ ih (h.step _)

/-- In a fair history a loop for whose end there is a cause ends before any time passes. -/
theorem Fair.ends (hinterval : 0 < scene.schedule.tickInterval) (h : Fair scene runs steps)
    (hharmless : (runs n).Harmless) (hdriving : (runs n).driving = true) (hdue : (runs n).Due outcome) :
    ∃ m other, (runs m).loop = .ended other (runs n).now := by
  -- Every turn of the loop leaves it fewer steps, so the induction is on the steps it has left.
  induction hleft : (runs n).stepsLeft using Nat.strongRecOn generalizing n with
  | ind left ih =>
    subst hleft
    by_cases hover : ∃ m other, (runs m).loop = .ended other (runs n).now
    · exact hover
    have hgoesOn (m : Nat) (hm : n ≤ m) :
        (runs m).driving = true ∧ (runs m).Due outcome ∧ (runs m).now = (runs n).now := by
      obtain hgoesOn | ⟨other, hended⟩ := (h.reaches hm).due hharmless hdriving hdue
      · exact hgoesOn
      · exact absurd ⟨m, other, hended⟩ hover
    have hstep (m : Nat) (hm : n ≤ m) :
        (runs (m + 1)).stepsLeft ≤ (runs m).stepsLeft ∧
          ((steps m).ofLoop = true → (runs (m + 1)).stepsLeft < (runs m).stepsLeft) := by
      obtain ⟨hd, _, hnow⟩ := hgoesOn m hm
      obtain ⟨hd', _, hnow'⟩ := hgoesOn (m + 1) (Nat.le_succ_of_le hm)
      exact step_stepsLeft hinterval (h.step m) (hnow'.trans hnow.symm) hd hd'
    have hmore (m : Nat) (hm : n ≤ m) : (runs m).stepsLeft ≤ (runs n).stepsLeft := by
      induction hm with
      | refl => exact Nat.le_refl _
      | step hm ih => exact Nat.le_trans (hstep _ hm).1 ih
    have hticking (m : Nat) (hm : n ≤ m) : (runs m).ticking = true := by
      obtain ⟨hd, hdueThen, _⟩ := hgoesOn m hm
      exact ticking_of_due hd hdueThen
    obtain ⟨m, hm, hof⟩ := h.turn n hticking
    obtain ⟨hd, hdueThen, hnow⟩ := hgoesOn (m + 1) (Nat.le_succ_of_le hm)
    have hfewer := Nat.lt_of_lt_of_le ((hstep m hm).2 hof) (hmore m hm)
    have hharmless' := (h.reaches (Nat.le_succ_of_le hm)).harmless hharmless
    obtain ⟨k, other, hended⟩ := ih _ hfewer hharmless' hd hdueThen rfl
    exact ⟨k, other, by rw [hended, hnow]⟩

end Fairness

end ExchangeLoad.Run
