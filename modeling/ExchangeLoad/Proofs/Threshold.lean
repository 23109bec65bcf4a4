import ExchangeLoad.Threshold
import Mathlib.Algebra.Group.Int.Defs
import Mathlib.Data.Int.Order.Basic
import Mathlib.Data.Nat.Find

/-!
The level that a score is enough for. Below the largest counter value it makes no difference that the
required score stops doubling there: no such score reaches a threshold beyond it.
-/

namespace ExchangeLoad

theorem threshold_eq (level : Nat) : threshold level = 100 * 2 ^ level := rfl

theorem threshold_le_threshold {m n : Nat} (h : m ≤ n) : threshold m ≤ threshold n := by
  have hpow : (2 : Nat) ^ m ≤ 2 ^ n := Nat.pow_le_pow_right (by decide) h
  have hcast : (2 : Int) ^ m ≤ 2 ^ n := by exact_mod_cast hpow
  rw [threshold_eq, threshold_eq]
  omega

theorem exists_lt_threshold (score : Int) : ∃ level, score < threshold level := by
  refine ⟨score.toNat, ?_⟩
  have hpow : score.toNat < 2 ^ score.toNat := Nat.lt_two_pow_self
  have hcast : (score.toNat : Int) < 2 ^ score.toNat := by exact_mod_cast hpow
  have hle := Int.self_le_toNat score
  rw [threshold_eq]
  omega

/-- The least level that a score is not enough to leave. -/
def levelFor (score : Int) : Nat := Nat.find (exists_lt_threshold score)

variable {score : Int} {level : Nat}

theorem levelFor_le_iff : levelFor score ≤ level ↔ score < threshold level := by
  constructor
  · intro h
    exact Int.lt_of_lt_of_le (Nat.find_spec (exists_lt_threshold score)) (threshold_le_threshold h)
  · exact fun h => Nat.find_min' (exists_lt_threshold score) h

theorem lt_levelFor_iff : level < levelFor score ↔ threshold level ≤ score := by
  rw [← Nat.not_le, levelFor_le_iff, Int.not_lt]

theorem levelFor_le_levelFor {other : Int} (h : score ≤ other) : levelFor score ≤ levelFor other :=
  levelFor_le_iff.mpr (Int.lt_of_le_of_lt h (levelFor_le_iff.mp (Nat.le_refl _)))

/-- A level from which on the required score no longer doubles has a threshold beyond the counter. -/
theorem largest_lt_threshold (h : 63 ≤ level) : Word.largest < threshold level := by
  have hlarge : Word.largest < threshold 63 := by decide
  exact Int.lt_of_lt_of_le hlarge (threshold_le_threshold h)

theorem requiredScore_le_iff (hscore : score < Word.largest) :
    requiredScore level ≤ score ↔ threshold level ≤ score := by
  unfold requiredScore
  split
  · exact Iff.rfl
  · next hbeyond =>
    have hlarge : Word.largest < threshold level := by
      by_cases hlevel : level < 63
      · exact Int.not_le.mp fun hle => hbeyond ⟨hlevel, hle⟩
      · exact largest_lt_threshold (Nat.not_lt.mp hlevel)
    omega

example : levelFor 700 = 3 := by decide +kernel

end ExchangeLoad
