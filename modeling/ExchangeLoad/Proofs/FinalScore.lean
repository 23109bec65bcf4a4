import ExchangeLoad.Tracker

/-!
The final score and its bounds. The score is a number of full demerits and a rest below twice the ceiling:
one demerit for each of twice the ceiling's errors, and the rest is never paid. So a score with as many
errors as the ceiling keeps one half of the demerits and the whole rest.

The demerit grows in steps, at the multiples of twice the ceiling, and a step is paid for every error. So a
gain that reaches a step with fewer points than there are errors costs more than it brings.
-/

namespace ExchangeLoad

variable {score errors ceiling : Int}

/-- The score holds a demerit for each of twice the ceiling's errors, and a rest. -/
theorem demerit_mul_add_rest (ceiling : Int) (hscore : 0 ≤ score) :
    demerit score ceiling * (ceiling * 2) + score % (ceiling * 2) = score := by
  rw [demerit, Int.tdiv_eq_ediv_of_nonneg hscore]
  exact Int.ediv_mul_add_emod score (ceiling * 2)

theorem demerit_nonneg (hscore : 0 ≤ score) (hceiling : 0 < ceiling) : 0 ≤ demerit score ceiling := by
  apply Int.tdiv_nonneg hscore
  omega

theorem rest_nonneg (score : Int) (hceiling : 0 < ceiling) : 0 ≤ score % (ceiling * 2) := by
  apply Int.emod_nonneg
  omega

theorem rest_lt (hceiling : 0 < ceiling) : score % (ceiling * 2) < 2 * ceiling := by
  rw [Int.mul_comm 2]
  apply Int.emod_lt_of_pos
  omega

/-- What remains is the rest and a demerit for each error that twice the ceiling has left. -/
theorem finalScore_eq (hscore : 0 ≤ score) :
    finalScore score errors ceiling =
      demerit score ceiling * (2 * ceiling - errors) + score % (ceiling * 2) := by
  have hsplit := demerit_mul_add_rest ceiling hscore
  rw [finalScore, Int.mul_sub, Int.mul_comm 2 ceiling]
  omega

/-- What remains exceeds a half by half the rest, and by a demerit for each error the ceiling has left. -/
theorem two_mul_finalScore_sub (errors ceiling : Int) (hscore : 0 ≤ score) :
    2 * finalScore score errors ceiling - score =
      2 * (demerit score ceiling * (ceiling - errors)) + score % (ceiling * 2) := by
  have hsplit := demerit_mul_add_rest ceiling hscore
  rw [← Int.mul_assoc] at hsplit
  rw [finalScore, Int.mul_sub (demerit score ceiling)]
  omega

theorem finalScore_le_of_errors_le {more : Int} (hscore : 0 ≤ score) (hceiling : 0 < ceiling)
    (hmore : errors ≤ more) : finalScore score more ceiling ≤ finalScore score errors ceiling := by
  have hpaid := Int.mul_le_mul_of_nonneg_left hmore (demerit_nonneg hscore hceiling)
  rw [finalScore, finalScore]
  omega

theorem finalScore_le (hscore : 0 ≤ score) (herrors : 0 ≤ errors) (hceiling : 0 < ceiling) :
    finalScore score errors ceiling ≤ score := by
  have hpaid := Int.mul_nonneg (demerit_nonneg hscore hceiling) herrors
  rw [finalScore]
  omega

theorem finalScore_nonneg (hscore : 0 ≤ score) (hceiling : 0 < ceiling) (hfew : errors ≤ 2 * ceiling) :
    0 ≤ finalScore score errors ceiling := by
  have hleft := Int.mul_nonneg (demerit_nonneg hscore hceiling) (Int.sub_nonneg_of_le hfew)
  have hrest := rest_nonneg score hceiling
  rw [finalScore_eq hscore]
  omega

theorem le_two_mul_finalScore (hscore : 0 ≤ score) (hceiling : 0 < ceiling) (hfew : errors ≤ ceiling) :
    score ≤ 2 * finalScore score errors ceiling := by
  have hleft := Int.mul_nonneg (demerit_nonneg hscore hceiling) (Int.sub_nonneg_of_le hfew)
  have hrest := rest_nonneg score hceiling
  have hexcess := two_mul_finalScore_sub errors ceiling hscore
  omega

/-- With as many errors as the ceiling, just the rest of the score is kept beyond a half. -/
theorem two_mul_finalScore_at_ceiling (hscore : 0 ≤ score) :
    2 * finalScore score ceiling ceiling - score = score % (ceiling * 2) := by
  have hexcess := two_mul_finalScore_sub ceiling ceiling hscore
  rw [Int.sub_self, Int.mul_zero] at hexcess
  omega

theorem finalScore?_eq_some (score errors : Int) (hceiling : 0 < ceiling) :
    finalScore? score errors ceiling = some (finalScore score errors ceiling) := by
  apply if_neg
  omega

/-- A score and errors that are not negative have a final score below any positive ceiling. It never exceeds
    the score, and more errors never raise it. Up to the ceiling's errors it keeps at least a half of the
    score; with exactly as many it exceeds the half by less than the ceiling; and up to twice as many it is
    not negative. -/
theorem finalScore_bounds (hscore : 0 ≤ score) (herrors : 0 ≤ errors) (hceiling : 0 < ceiling) :
    ∃ total, finalScore? score errors ceiling = some total ∧
      (∀ floor, (Tracker.mk score errors floor ceiling).total? = some total) ∧
      total ≤ score ∧
      (∀ more, errors ≤ more → ∃ lower, finalScore? score more ceiling = some lower ∧ lower ≤ total) ∧
      (errors ≤ ceiling → score ≤ 2 * total) ∧
      (errors = ceiling → 2 * total - score < 2 * ceiling) ∧
      (errors ≤ 2 * ceiling → 0 ≤ total) := by
  have hanswer := finalScore?_eq_some score errors hceiling
  refine ⟨finalScore score errors ceiling, hanswer, fun _ => hanswer, finalScore_le hscore herrors hceiling,
    fun more hmore => ?_, le_two_mul_finalScore hscore hceiling, ?_, finalScore_nonneg hscore hceiling⟩
  · exact ⟨_, finalScore?_eq_some score more hceiling, finalScore_le_of_errors_le hscore hceiling hmore⟩
  · rintro rfl
    rw [two_mul_finalScore_at_ceiling hscore]
    exact rest_lt hceiling

/-- With a ceiling of two hundred, a score of 799 pays one point for each error and has a rest of 399 points:
    after two hundred errors 599 points remain, a half of the score and of the rest. -/
theorem finalScore_bounds_at_ceiling : finalScore? 799 200 200 = some 599 ∧ (799 : Int) ≤ 2 * 599 := by
  obtain ⟨total, htotal, -, -, -, hhalf, -⟩ :=
    finalScore_bounds (by decide : (0 : Int) ≤ 799) (by decide : (0 : Int) ≤ 200) (by decide : (0 : Int) < 200)
  obtain rfl : (599 : Int) = total := Option.some.inj htotal
  exact ⟨htotal, hhalf (by decide)⟩

theorem demerit_le_of_le {more : Int} (hscore : 0 ≤ score) (hmore : score ≤ more) (hceiling : 0 < ceiling) :
    demerit score ceiling ≤ demerit more ceiling := by
  rw [demerit, demerit, Int.tdiv_eq_ediv_of_nonneg hscore, Int.tdiv_eq_ediv_of_nonneg (by omega)]
  exact Int.ediv_le_ediv (by omega) hmore

/-- The demerit grows exactly where a multiple of twice the ceiling lies on the way. -/
theorem demerit_lt_iff {more : Int} (hscore : 0 ≤ score) (hmore : score ≤ more) (hceiling : 0 < ceiling) :
    demerit score ceiling < demerit more ceiling ↔
      ∃ step, score < step * (ceiling * 2) ∧ step * (ceiling * 2) ≤ more := by
  have hwidth : 0 < ceiling * 2 := by omega
  rw [demerit, demerit, Int.tdiv_eq_ediv_of_nonneg hscore, Int.tdiv_eq_ediv_of_nonneg (by omega)]
  constructor
  · intro hlt
    exact ⟨more / (ceiling * 2), (Int.ediv_lt_iff_lt_mul hwidth).mp hlt, Int.ediv_mul_le _ (by omega)⟩
  · rintro ⟨step, hbefore, hreached⟩
    have hbelow := (Int.ediv_lt_iff_lt_mul hwidth).mpr hbefore
    have habove := (Int.le_ediv_iff_mul_le hwidth).mpr hreached
    omega

/-- A gain pays for all the steps that it reaches but one. -/
theorem steps_sub_one_mul_lt {more : Int} (hscore : 0 ≤ score) (hmore : score ≤ more) (hceiling : 0 < ceiling) :
    (demerit more ceiling - demerit score ceiling - 1) * (ceiling * 2) < more - score := by
  have hlow := demerit_mul_add_rest ceiling hscore
  have hhigh := demerit_mul_add_rest ceiling (by omega : 0 ≤ more)
  have hrest : score % (ceiling * 2) < 2 * ceiling := rest_lt hceiling
  have hnonneg := rest_nonneg more hceiling
  rw [Int.sub_mul, Int.sub_mul]
  omega

/-- A gain brings its points, and costs what the demerit grows by for every error. -/
theorem finalScore_sub (score more errors ceiling : Int) :
    finalScore more errors ceiling - finalScore score errors ceiling =
      more - score - (demerit more ceiling - demerit score ceiling) * errors := by
  rw [finalScore, finalScore, Int.sub_mul]
  omega

/-- Up to the ceiling's errors, a gain with a point for each error is no loss. A step costs at most half its
    width, and a gain that reaches several steps is as wide as all of them but one. -/
theorem finalScore_le_of_errors_le_gain {more : Int} (hscore : 0 ≤ score) (herrors : 0 ≤ errors)
    (hceiling : 0 < ceiling) (hfew : errors ≤ ceiling) (hgain : errors ≤ more - score) :
    finalScore score errors ceiling ≤ finalScore more errors ceiling := by
  have hchange := finalScore_sub score more errors ceiling
  have hgrows := demerit_le_of_le hscore (by omega : score ≤ more) hceiling
  have hpaid := steps_sub_one_mul_lt hscore (by omega : score ≤ more) hceiling
  generalize hsteps : demerit more ceiling - demerit score ceiling = steps at hchange hpaid
  have hcost : steps * errors ≤ more - score := by
    by_cases hmany : 2 ≤ steps
    · calc steps * errors
        _ ≤ steps * ceiling := Int.mul_le_mul_of_nonneg_left hfew (by omega)
        _ ≤ (steps - 1) * 2 * ceiling := Int.mul_le_mul_of_nonneg_right (by omega) (by omega)
        _ = (steps - 1) * (ceiling * 2) := by rw [Int.mul_assoc, Int.mul_comm 2]
        _ ≤ more - score := Int.le_of_lt hpaid
    · calc steps * errors
        _ ≤ 1 * errors := Int.mul_le_mul_of_nonneg_right (by omega) herrors
        _ ≤ more - score := by omega
  omega

/-- A smaller gain reaches one step at most, and that step costs a point for each error. -/
theorem finalScore_sub_of_gain_lt_errors {more : Int} (hscore : 0 ≤ score) (hmore : score ≤ more)
    (hceiling : 0 < ceiling) (hfew : errors ≤ ceiling) (hgain : more - score < errors) :
    finalScore more errors ceiling - finalScore score errors ceiling =
      if demerit score ceiling < demerit more ceiling then more - score - errors else more - score := by
  have hgrows := demerit_le_of_le hscore hmore hceiling
  have hpaid := steps_sub_one_mul_lt hscore hmore hceiling
  rw [finalScore_sub]
  split
  · next hreached =>
    have hone : demerit more ceiling - demerit score ceiling ≤ 1 := by
      refine Int.not_lt.mp fun hmany => ?_
      have hwidth : 1 * (ceiling * 2) ≤ (demerit more ceiling - demerit score ceiling - 1) * (ceiling * 2) :=
        Int.mul_le_mul_of_nonneg_right (by omega) (by omega)
      omega
    rw [show demerit more ceiling - demerit score ceiling = 1 by omega, Int.one_mul]
  · next hsame =>
    rw [show demerit more ceiling - demerit score ceiling = 0 by omega, Int.zero_mul, Int.sub_zero]

/-- With the same errors, no more than the ceiling, a higher score has a lower final score if and only if
    the gain has fewer points than there are errors and reaches a multiple of twice the ceiling. The final
    score then falls by the points that the gain lacks, and so by less than the number of errors; in all
    other cases the higher score does not do worse. -/
theorem finalScore_falls_iff {more : Int} (hscore : 0 ≤ score) (hmore : score ≤ more) (herrors : 0 ≤ errors)
    (hceiling : 0 < ceiling) (hfew : errors ≤ ceiling) :
    ∃ total higher, finalScore? score errors ceiling = some total ∧
      finalScore? more errors ceiling = some higher ∧
      (∀ floor, (Tracker.mk score errors floor ceiling).total? = some total ∧
        (Tracker.mk more errors floor ceiling).total? = some higher) ∧
      (higher < total ↔ more - score < errors ∧
        ∃ step, score < step * (ceiling * 2) ∧ step * (ceiling * 2) ≤ more) ∧
      (higher < total → total - higher = errors - (more - score)) := by
  have htotal := finalScore?_eq_some score errors hceiling
  have hhigher := finalScore?_eq_some more errors hceiling
  refine ⟨_, _, htotal, hhigher, fun _ => ⟨htotal, hhigher⟩, ?_⟩
  rw [← demerit_lt_iff hscore hmore hceiling]
  by_cases hgain : errors ≤ more - score
  · have hkept := finalScore_le_of_errors_le_gain hscore herrors hceiling hfew hgain
    exact ⟨⟨fun hlt => absurd hlt (by omega), fun hcause => absurd hcause.1 (by omega)⟩,
      fun hlt => absurd hlt (by omega)⟩
  · have hchange := finalScore_sub_of_gain_lt_errors hscore hmore hceiling hfew (by omega)
    split at hchange
    · next hreached => exact ⟨⟨fun _ => ⟨by omega, hreached⟩, fun _ => by omega⟩, fun _ => by omega⟩
    · next hsame => exact ⟨⟨fun hlt => absurd hlt (by omega), fun hcause => absurd hcause.2 hsame⟩,
        fun hlt => absurd hlt (by omega)⟩

/-- With two errors and a ceiling of two hundred, a score of 399 keeps all its points, and one point more
    costs one of them. -/
theorem finalScore_falls_at_first_step :
    finalScore? 399 2 200 = some 399 ∧ finalScore? 400 2 200 = some 398 ∧ (399 : Int) - 398 = 2 - (400 - 399) := by
  obtain ⟨total, higher, htotal, hhigher, -, -, hloss⟩ := finalScore_falls_iff
    (by decide : (0 : Int) ≤ 399) (by decide : (399 : Int) ≤ 400) (by decide : (0 : Int) ≤ 2)
    (by decide : (0 : Int) < 200) (by decide)
  obtain rfl : (399 : Int) = total := Option.some.inj htotal
  obtain rfl : (398 : Int) = higher := Option.some.inj hhigher
  exact ⟨htotal, hhigher, hloss (by decide)⟩

/-- A higher score with the same errors may do worse. -/
theorem finalScore_not_monotone : ¬ ∀ score more errors ceiling : Int, 0 < ceiling → 0 ≤ errors →
    errors ≤ ceiling → 0 ≤ score → score ≤ more →
    finalScore score errors ceiling ≤ finalScore more errors ceiling := by
  intro h
  have hkept := h 399 400 2 200 (by decide) (by decide) (by decide) (by decide) (by decide)
  exact absurd hkept (by decide)

end ExchangeLoad
