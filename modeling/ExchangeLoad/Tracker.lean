import ExchangeLoad.RunError
import ExchangeLoad.Word

/-!
Score and errors of a run. Every twenty points of score allow one more error, between a floor and a
ceiling; the error that reaches the limit fails. The final score pays a penalty for each error.
-/

namespace ExchangeLoad

/-- The errors that a score allows: one for every twenty points, at least the floor and at most the
    ceiling. Where the two are out of order, the floor is asked first. -/
def errorLimit (score floor ceiling : Int) : Int :=
  let earned := score.tdiv 20
  if earned < floor then floor
  else if ceiling < earned then ceiling
  else earned

/-- What one error costs in the end: a score that used up the whole ceiling keeps about a half. -/
def demerit (score ceiling : Int) : Int := score.tdiv (ceiling * 2)

/-- The score less a demerit for every error. -/
def finalScore (score errors ceiling : Int) : Int := score - demerit score ceiling * errors

/-- The final score, where a ceiling of zero has no demerit. -/
def finalScore? (score errors ceiling : Int) : Option Int :=
  if ceiling * 2 = 0 then none else some (finalScore score errors ceiling)

/-- The two counters of a run and the bounds of its error limit. -/
structure Tracker where
  score : Int
  errors : Int
  /-- The least error limit, and the most errors with which the level still rises. -/
  floor : Int
  /-- The greatest error limit. -/
  ceiling : Int
deriving DecidableEq, Repr, Inhabited

namespace Tracker

/-- A run that has not begun. -/
def fresh (floor ceiling : Int) : Tracker := ⟨0, 0, floor, ceiling⟩

/-- The errors that the present score allows. -/
def limit (t : Tracker) : Int := errorLimit t.score t.floor t.ceiling

/-- The score after a gain or loss. -/
def addScore (t : Tracker) (delta : Int) : Tracker := { t with score := Word.wrap (t.score + delta) }

/-- One more error, whatever it means for the run. -/
def countError (t : Tracker) : Tracker := { t with errors := Word.wrap (t.errors + 1) }

/-- The errors counted have reached the limit. -/
def Spent (t : Tracker) : Prop := t.limit ≤ t.errors

instance (t : Tracker) : Decidable t.Spent := inferInstanceAs (Decidable (_ ≤ _))

/-- What the error counted last is answered with. -/
def verdict (t : Tracker) : Except RunError Unit :=
  if t.Spent then .error (.budgetExceeded t.errors t.limit) else .ok ()

/-- Counts one error; fails once the count has reached the limit. -/
def recordError (t : Tracker) : Tracker × Except RunError Unit := (t.countError, t.countError.verdict)

/-- Counts several errors; the answer is that of the last, and success where there is none. -/
def recordErrors (t : Tracker) : Nat → Tracker × Except RunError Unit
  | 0 => (t, .ok ())
  | 1 => t.recordError
  | n + 2 => (t.recordError.1).recordErrors (n + 1)

/-- The score in the end, where the ceiling allows one. -/
def total? (t : Tracker) : Option Int := finalScore? t.score t.errors t.ceiling

/-- The score in the end. -/
def total (t : Tracker) : Int := finalScore t.score t.errors t.ceiling

end Tracker

end ExchangeLoad
