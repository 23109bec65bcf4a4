/-!
Sixty-four bit words as integers: the range of a counter and the arithmetic that wraps around at
its ends. Counters and prices are kept in this range; the final score is computed in unbounded integers.
-/

namespace ExchangeLoad.Word

/-- The largest counter value, one less than the sixty-third power of two. -/
def largest : Int := 0x7fffffffffffffff

/-- The smallest counter value. -/
def smallest : Int := -0x8000000000000000

/-- Whether an integer is a counter value. -/
def Fits (n : Int) : Prop := smallest ≤ n ∧ n ≤ largest

instance (n : Int) : Decidable (Fits n) := inferInstanceAs (Decidable (_ ∧ _))

/-- The counter value that agrees with `n` modulo the number of counter values. -/
def wrap (n : Int) : Int := n.bmod 0x10000000000000000

theorem wrap_of_fits {n : Int} (h : Fits n) : wrap n = n := by
  unfold Fits smallest largest at h
  unfold wrap
  rw [Int.bmod_def]
  split <;> omega

theorem fits_wrap (n : Int) : Fits (wrap n) := by
  unfold Fits smallest largest wrap
  rw [Int.bmod_def]
  split <;> omega

/-- Wrapping a summand first makes no difference. -/
theorem wrap_wrap_add (m n : Int) : wrap (wrap m + n) = wrap (m + n) := Int.bmod_add_bmod

end ExchangeLoad.Word
