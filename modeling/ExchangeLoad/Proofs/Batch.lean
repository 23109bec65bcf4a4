import ExchangeLoad.Batch
import Mathlib.Data.List.Basic

/-!
What a batch is made of: sellers and buyers in turn, and, where a level brought it, amounts that go by the
level and prices around that of the day.
-/

namespace ExchangeLoad.Batch

variable {batch : Nat → Params} {workers : Nat}

/-- Half of a batch are sellers and half are buyers; those of an odd number of workers have one seller
    more. -/
structure Balanced (workers : Nat) (batch : List Params) : Prop where
  sellers : batch.countP (·.kind = .coinHeavy) = (workers + 1) / 2
  buyers : batch.countP (·.kind = .creditHeavy) = workers / 2

/-- Somebody whom a level brought, at the price of the day. -/
structure Risen (level : Nat) (price : Int) (params : Params) : Prop where
  unit : params.unit = 5 * level
  buyer : params.kind = .creditHeavy → params.base = price - 2 ∧ params.credit = 1000 * price
  seller : params.kind = .coinHeavy →
    params.base = price + 5 ∧ params.coins = 500 * level ∧ params.credit = 1

/-- Somebody in a slot of the founding batch. -/
structure Founder (slot : Nat) (params : Params) : Prop where
  kind : params.kind = if slot % 2 = 1 then .creditHeavy else .coinHeavy
  credit : params.credit = if slot % 2 = 1 then 10000 else 1
  coins : params.coins = if slot % 2 = 1 then 0 else 5
  unit : params.unit = 2
  base : params.base = 100 + (slot / 2 : Nat)

/-- A batch in which odd slots are buyers and even ones sellers. -/
def Alternates (batch : Nat → Params) : Prop :=
  ∀ slot, (batch slot).kind = if slot % 2 = 1 then .creditHeavy else .coinHeavy

theorem founding_alternates : Alternates founding := by
  intro slot
  unfold founding
  simp only
  split <;> rfl

theorem founding_founder (slot : Nat) : Founder slot (founding slot) := by
  unfold founding
  by_cases hodd : slot % 2 = 1
  · simp only [if_pos hodd]
    constructor <;> simp [Params.creditHeavy, hodd]
  · simp only [if_neg hodd]
    constructor <;> simp [Params.coinHeavy, hodd]

theorem rising_alternates (level : Nat) (price : Int) : Alternates (rising level price) := by
  intro slot
  unfold rising
  split <;> rfl

theorem Alternates.balanced (h : Alternates batch) : Balanced workers ((List.range workers).map batch) := by
  induction workers with
  | zero => exact ⟨rfl, rfl⟩
  | succ n ih =>
    obtain ⟨hsellers, hbuyers⟩ := ih
    by_cases hn : n % 2 = 1
    · have hkind : (batch n).kind = .creditHeavy := by rw [h n, if_pos hn]
      constructor
      · simp [List.range_succ, hsellers, hkind]
        omega
      · simp [List.range_succ, hbuyers, hkind]
        omega
    · have hkind : (batch n).kind = .coinHeavy := by rw [h n, if_neg hn]
      constructor
      · simp [List.range_succ, hsellers, hkind]
        omega
      · simp [List.range_succ, hbuyers, hkind]
        omega

/-- Whom a level brings goes by the plain price, unless that is so large that what is computed from it
    leaves the range of a counter. -/
theorem rising_risen {level : Nat} {price : Int} {slot : Nat} (hsellers : Word.Fits (price + 5))
    (hbuyers : (rising level price slot).kind = .creditHeavy → Word.Fits (1000 * price)) :
    Risen level price (rising level price slot) := by
  unfold rising at hbuyers ⊢
  split at hbuyers
  · next hodd =>
    have hcredit : Word.Fits (1000 * price) := hbuyers rfl
    have hbase : Word.Fits (price - 2) := by
      simp only [Word.Fits, Word.smallest, Word.largest] at hcredit ⊢
      omega
    rw [if_pos hodd, Int.mul_comm price, Word.wrap_of_fits hcredit, Word.wrap_of_fits hbase]
    exact ⟨Int.mul_comm .., fun _ => ⟨rfl, rfl⟩, fun h => by cases h⟩
  · next heven =>
    rw [if_neg heven, Word.wrap_of_fits hsellers]
    refine ⟨Int.mul_comm .., fun h => (by cases h), fun _ => ⟨rfl, ?_, rfl⟩⟩
    simp only [Params.coinHeavy, unit]
    omega

theorem Balanced.perm {batch batch' : List Params} (h : Balanced workers batch) (hperm : batch'.Perm batch) :
    Balanced workers batch' :=
  ⟨(hperm.countP_eq _).trans h.sellers, (hperm.countP_eq _).trans h.buyers⟩

end ExchangeLoad.Batch
