import ExchangeLoad.Proofs.Run.Account
import ExchangeLoad.Proofs.Run.History
import ExchangeLoad.Proofs.Tracker
import Mathlib.Algebra.Group.Nat.Defs

/-!
The error budget over a whole run. A run is aborted by the first failed job that finds as many errors
counted as the score of that moment allows, and it stays aborted whatever the score does later.
-/

namespace ExchangeLoad

namespace Run

/-- No job has failed, nothing has been scored, and nobody has aborted the run. -/
structure Unspent (floor ceiling : Int) (r : Run) : Prop where
  tracker : r.tracker = .fresh floor ceiling
  failedJobs : r.failedJobs = 0
  aborted : r.aborted = false

/-- The tracker has the given bounds, and its errors are the jobs that failed. -/
structure Counted (floor ceiling : Int) (r : Run) : Prop where
  floor : r.tracker.floor = floor
  ceiling : r.tracker.ceiling = ceiling
  errors : r.tracker.errors = Word.wrap r.failedJobs

/-- On the way from one run to another, the job that failed as the one with a number, counted from one,
    found the budget used up. -/
def Exhausted (scene : Scene) (floor ceiling : Int) (r₀ r : Run) (k : Nat) : Prop :=
  ∃ s a t, Becomes scene Step.LeavesBudget r₀ s ∧ a.LeavesBudget ∧ s.step scene a = some t ∧
    Becomes scene Step.LeavesBudget t r ∧ s.failedJobs + 1 = k ∧ t.failedJobs = k ∧
    errorLimit t.tracker.score floor ceiling ≤ k

variable {scene : Scene} {floor ceiling : Int} {r₀ r s t : Run} {a : Step}

theorem Unspent.counted (h : r.Unspent floor ceiling) : r.Counted floor ceiling := by
  obtain ⟨htracker, hfailed, _⟩ := h
  refine ⟨by rw [htracker]; rfl, by rw [htracker]; rfl, ?_⟩
  rw [htracker, hfailed]
  rfl

theorem Counted.grew (h : r.Counted floor ceiling) {booked : Tracker} (hgrew : r.tracker.Grew booked) :
    booked.floor = floor ∧ booked.ceiling = ceiling ∧ booked.errors = Word.wrap r.failedJobs := by
  obtain rfl | ⟨gain, rfl⟩ := hgrew
  · exact ⟨h.floor, h.ceiling, h.errors⟩
  · exact ⟨h.floor, h.ceiling, h.errors⟩

theorem step_counted (ha : a.LeavesBudget) (h : r.step scene a = some t) (hr : r.Counted floor ceiling) :
    t.Counted floor ceiling := by
  obtain ⟨_, booked, failed, hgrew, hbooked⟩ := step_booked ha h
  obtain ⟨hfloor, hceiling, herrors⟩ := hr.grew hgrew
  have htracker := hbooked.tracker
  have hfailed := hbooked.failedJobs
  cases failed with
  | false =>
    simp only [Bool.false_eq_true, if_false, Nat.add_zero] at htracker hfailed
    exact ⟨by rw [htracker, hfloor], by rw [htracker, hceiling], by rw [htracker, herrors, hfailed]⟩
  | true =>
    simp only [if_true] at htracker hfailed
    refine ⟨by rw [htracker]; exact hfloor, by rw [htracker]; exact hceiling, ?_⟩
    rw [htracker, hfailed]
    simp only [Tracker.countError, herrors, Word.wrap_wrap_add]
    norm_cast

theorem Becomes.counted (h : Becomes scene Step.LeavesBudget r t) (hr : r.Counted floor ceiling) :
    t.Counted floor ceiling :=
  h.preserves (fun _ _ _ ha hs hstep => step_counted ha hstep hs) (fun _ _ hs => ⟨hs.1, hs.2, hs.3⟩) hr

/-- Whatever happens, a run that has been aborted stays so. -/
theorem Becomes.aborted {kind : Step → Prop} (h : Becomes scene kind r t) (hr : r.aborted = true) :
    t.aborted = true :=
  h.preserves (fun _ _ _ _ hs hstep => step_aborted hstep hs) (fun _ _ hs => hs) hr

theorem Becomes.failedJobs_le (h : Becomes scene Step.LeavesBudget r t) : r.failedJobs ≤ t.failedJobs := by
  induction h with
  | refl => exact Nat.le_refl _
  | step a _ ha hs ih =>
    obtain ⟨_, _, _, _, hbooked⟩ := step_booked ha hs
    rw [hbooked.failedJobs]
    exact Nat.le_trans ih (Nat.le_add_right _ _)
  | pass _ _ ih => exact ih

/-- As long as the counter does not wrap around, the errors counted are the jobs that failed, and they
    have reached the limit where the error limit of the score is at most that number. -/
theorem Counted.errors_eq (h : r.Counted floor ceiling) (hsize : r.failedJobs < 2 ^ 63 - 1) :
    r.tracker.errors = r.failedJobs := by
  rw [h.errors]
  exact Word.wrap_of_fits (by simp only [Word.Fits, Word.smallest, Word.largest]; omega)

theorem Counted.spent_iff (h : r.Counted floor ceiling) (hsize : r.failedJobs < 2 ^ 63 - 1) :
    r.tracker.Spent ↔ errorLimit r.tracker.score floor ceiling ≤ r.failedJobs := by
  rw [Tracker.Spent, Tracker.limit, h.errors_eq hsize, h.floor, h.ceiling]

theorem Exhausted.step {k : Nat} (h : Exhausted scene floor ceiling r₀ s k) (ha : a.LeavesBudget)
    (hs : s.step scene a = some t) : Exhausted scene floor ceiling r₀ t k := by
  obtain ⟨u, b, v, hu, hb, hv, hvs, hbefore, hafter, hlimit⟩ := h
  exact ⟨u, b, v, hu, hb, hv, .step a hvs ha hs, hbefore, hafter, hlimit⟩

theorem Exhausted.pass {k ms : Nat} (h : Exhausted scene floor ceiling r₀ s k) :
    Exhausted scene floor ceiling r₀ { s with now := s.now + ms } k := by
  obtain ⟨u, b, v, hu, hb, hv, hvs, hbefore, hafter, hlimit⟩ := h
  exact ⟨u, b, v, hu, hb, hv, .pass ms hvs, hbefore, hafter, hlimit⟩

/-- An aborted run was aborted by a job that found the budget used up. -/
theorem Becomes.exhausted (h : Becomes scene Step.LeavesBudget r₀ r) (hr₀ : r₀.Unspent floor ceiling)
    (hsize : r.failedJobs < 2 ^ 63 - 1) (haborted : r.aborted = true) :
    ∃ k, Exhausted scene floor ceiling r₀ r k := by
  induction h with
  | refl => simp [hr₀.aborted] at haborted
  | @step s t a h ha hs ih =>
    obtain ⟨_, booked, failed, _, hbooked⟩ := step_booked ha hs
    have hcounted := step_counted ha hs (h.counted hr₀.counted)
    have hfailedJobs := hbooked.failedJobs
    rw [hbooked.aborted, Bool.or_eq_true, Bool.and_eq_true, decide_eq_true_eq] at haborted
    -- Either the run was aborted before, or this step is the failure that aborts it.
    obtain haborted | ⟨rfl, hspent⟩ := haborted
    · obtain ⟨k, hk⟩ := ih (by omega) haborted
      exact ⟨k, hk.step ha hs⟩
    · exact ⟨t.failedJobs, s, a, t, h, ha, hs, .refl t, hfailedJobs.symm, rfl,
        (hcounted.spent_iff hsize).mp hspent⟩
  | pass ms h ih =>
    obtain ⟨k, hk⟩ := ih hsize haborted
    exact ⟨k, hk.pass⟩

/-- Where a job found the budget used up, the run is aborted, and the job is among those that failed. -/
theorem Exhausted.aborted {k : Nat} (h : Exhausted scene floor ceiling r₀ r k)
    (hr₀ : r₀.Unspent floor ceiling) (hsize : r.failedJobs < 2 ^ 63 - 1) :
    r.aborted = true ∧ k ≤ r.failedJobs := by
  obtain ⟨s, a, t, hs, ha, hstep, ht, hbefore, rfl, hlimit⟩ := h
  have hle := ht.failedJobs_le
  have hcounted := step_counted ha hstep (hs.counted hr₀.counted)
  obtain ⟨_, booked, failed, _, hbooked⟩ := step_booked ha hstep
  have hfailed : failed = true := by
    have hfailedJobs := hbooked.failedJobs
    cases failed with
    | false => simp at hfailedJobs; omega
    | true => rfl
  have hspent : t.tracker.Spent := (hcounted.spent_iff (by omega)).mpr hlimit
  refine ⟨ht.aborted ?_, hle⟩
  rw [hbooked.aborted, hfailed, decide_eq_true hspent, Bool.and_self, Bool.or_true]

/-- Once as many jobs have failed as the ceiling allows, and at least one, the run is aborted. -/
theorem Becomes.aborted_of_ceiling (h : Becomes scene Step.LeavesBudget r₀ r)
    (hr₀ : r₀.Unspent floor ceiling) (hbounds : floor ≤ ceiling) (hsize : r.failedJobs < 2 ^ 63 - 1)
    (hone : 1 ≤ r.failedJobs) (hceiling : ceiling ≤ r.failedJobs) : r.aborted = true := by
  induction h with
  | refl => simp [hr₀.failedJobs] at hone
  | @step s t a h ha hs ih =>
    obtain ⟨_, booked, failed, _, hbooked⟩ := step_booked ha hs
    have hcounted := step_counted ha hs (h.counted hr₀.counted)
    have hfailedJobs := hbooked.failedJobs
    rw [hbooked.aborted, Bool.or_eq_true]
    cases failed with
    | false =>
      simp only [Bool.false_eq_true, if_false, Nat.add_zero] at hfailedJobs
      exact .inl (ih (by omega) (by omega) (by omega))
    | true =>
      have hlimit := errorLimit_le_ceiling t.tracker.score hbounds
      have hspent : t.tracker.Spent := (hcounted.spent_iff hsize).mpr (Int.le_trans hlimit hceiling)
      exact .inr (by simp [hspent])
  | pass ms h ih => exact ih hsize hone hceiling

/-- In every history from a run in which nothing has been scored and no job has failed, whatever is
    executed, scored and waited for in whatever order: the errors counted are the jobs that failed, and
    the run is aborted exactly if for some number the job that failed as that one found the error
    limit of the moment at or below its number. It then stays aborted. Hence, where floor and ceiling
    are in order, the run is not aborted by fewer errors than the floor, and it is by as many as the
    ceiling, though not by none. -/
theorem aborted_iff_exhausted (hr₀ : r₀.Unspent floor ceiling)
    (h : Becomes scene Step.LeavesBudget r₀ r) (hsize : r.failedJobs < 2 ^ 63 - 1) :
    r.tracker.errors = r.failedJobs ∧
    (r.aborted = true ↔ ∃ k, Exhausted scene floor ceiling r₀ r k) ∧
    (r.aborted = true → ∀ s, Becomes scene (fun _ => True) r s → s.aborted = true) ∧
    (floor ≤ ceiling → (r.tracker.errors < floor → r.aborted = false) ∧
      (max 1 ceiling ≤ r.tracker.errors → r.aborted = true)) := by
  have herrors := (h.counted hr₀.counted).errors_eq hsize
  refine ⟨herrors, ⟨h.exhausted hr₀ hsize, ?_⟩, fun haborted s hs => hs.aborted haborted, ?_⟩
  · rintro ⟨k, hk⟩
    exact (hk.aborted hr₀ hsize).1
  · intro hbounds
    rw [herrors]
    constructor
    · intro hfew
      rw [Bool.eq_false_iff]
      intro haborted
      obtain ⟨k, hk⟩ := h.exhausted hr₀ hsize haborted
      have hle := (hk.aborted hr₀ hsize).2
      obtain ⟨_, _, t, _, _, _, _, _, _, hlimit⟩ := hk
      have hfloor := floor_le_errorLimit t.tracker.score hbounds
      omega
    · intro hmany
      exact h.aborted_of_ceiling hr₀ hbounds hsize (by omega) (by omega)

/-- The job that scores before it fails is the first to fail, so that only the second failure finds the
    budget used up; in the other order, the first one would. -/
theorem exhausted_by_second_failure :
    let job (score : Int) : Task := .exec "job" 0 (.scripted ⟨none, false, score, none, some "failed"⟩)
    let r₀ : Run := { fresh 1 3 1 0 with held := [job 40, job 0] }
    let scene := Scene.plain 0 0
    (r₀.play scene [.submit 0, .execute 0, .look 0]).map Run.aborted = some false ∧
    (r₀.play scene [.submit 0, .execute 0, .look 1]).map Run.aborted = some true ∧
    ∃ r, r₀.play scene [.submit 0, .execute 0, .look 0, .look 1] = some r ∧ r.aborted = true ∧
      r.tracker.errors = r.failedJobs ∧ ∃ k, Exhausted scene 1 3 r₀ r k := by
  intro job r₀ scene
  refine ⟨rfl, rfl, _, rfl, rfl, ?_⟩
  have hsteps : ∀ a ∈ [Step.submit 0, .execute 0, .look 0, .look 1], a.LeavesBudget := by
    simp [Step.LeavesBudget]
  have hbecomes := becomes_of_play hsteps (show r₀.play scene _ = some _ from rfl)
  have hr₀ : r₀.Unspent 1 3 := ⟨rfl, rfl, rfl⟩
  obtain ⟨herrors, haborted, _⟩ := aborted_iff_exhausted hr₀ hbecomes (by decide)
  exact ⟨herrors, haborted.mp rfl⟩

end Run

end ExchangeLoad
