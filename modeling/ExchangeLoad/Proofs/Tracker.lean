import ExchangeLoad.Tracker
import Mathlib.Data.List.Count

/-!
The error limit, and how long errors go on failing. An error that finds the budget used up fails; but the
budget grows with the score, so that a later error may pass again: as soon as its number is below the
ceiling and there are twenty points for each error up to it and for one more.
-/

namespace ExchangeLoad

variable {floor ceiling : Int}

theorem floor_le_errorLimit (score : Int) (h : floor ≤ ceiling) :
    floor ≤ errorLimit score floor ceiling := by
  unfold errorLimit
  grind

theorem errorLimit_le_ceiling (score : Int) (h : floor ≤ ceiling) :
    errorLimit score floor ceiling ≤ ceiling := by
  unfold errorLimit
  grind

/-- From the floor on, what is below the limit has been paid for. -/
theorem lt_errorLimit_iff {score errors : Int} (ceiling : Int) (hscore : 0 ≤ score) (herrors : floor ≤ errors) :
    errors < errorLimit score floor ceiling ↔ errors < ceiling ∧ 20 * (errors + 1) ≤ score := by
  unfold errorLimit
  rw [Int.tdiv_eq_ediv_of_nonneg hscore]
  simp only
  split
  · omega
  · split <;> omega

/-- Something that is booked with a tracker. -/
inductive Booking where
  | gain (points : Nat)
  | error
deriving DecidableEq, Repr

namespace Booking

/-- The points that are gained in all. -/
def points : List Booking → Nat
  | [] => 0
  | gain points :: rest => points + Booking.points rest
  | error :: rest => points rest

/-- How many errors are counted. -/
def errors : List Booking → Nat
  | [] => 0
  | gain _ :: rest => errors rest
  | error :: rest => errors rest + 1

end Booking

namespace Tracker

/-- What is booked is added to one of the counters. -/
def book (t : Tracker) : Booking → Tracker
  | .gain points => t.addScore points
  | .error => t.countError

/-- Several bookings, one after the other. -/
def bookAll (t : Tracker) (bookings : List Booking) : Tracker := bookings.foldl book t

variable {t : Tracker} {bookings : List Booking}

theorem addScore_eq {points : Nat} (hscore : 0 ≤ t.score) (hfits : t.score + points ≤ Word.largest) :
    t.addScore points = { t with score := t.score + points } := by
  rw [addScore, Word.wrap_of_fits (by unfold Word.Fits Word.smallest; omega)]

theorem countError_eq (herrors : 0 ≤ t.errors) (hfits : t.errors + 1 ≤ Word.largest) :
    t.countError = { t with errors := t.errors + 1 } := by
  rw [countError, Word.wrap_of_fits (by unfold Word.Fits Word.smallest; omega)]

/-- As long as no counter overflows, the bookings add up. -/
theorem bookAll_eq (hscore : 0 ≤ t.score) (herrors : 0 ≤ t.errors)
    (hpoints : t.score + Booking.points bookings ≤ Word.largest)
    (hcount : t.errors + Booking.errors bookings ≤ Word.largest) :
    t.bookAll bookings = { t with
      score := t.score + Booking.points bookings, errors := t.errors + Booking.errors bookings } := by
  induction bookings generalizing t with
  | nil => simp [bookAll, Booking.points, Booking.errors]
  | cons b rest ih =>
    cases b with
    | gain points =>
      rw [Booking.points, Int.natCast_add] at hpoints
      rw [Booking.errors] at hcount
      have hbooked : t.book (.gain points) = { t with score := t.score + points } :=
        addScore_eq hscore (by omega)
      have hrest := ih (t := t.book (.gain points)) (by rw [hbooked]; simp only; omega) (by rwa [hbooked])
        (by rw [hbooked]; simp only; omega) (by rwa [hbooked])
      refine hrest.trans ?_
      rw [hbooked, Booking.points, Booking.errors, Int.natCast_add, Int.add_assoc]
    | error =>
      rw [Booking.points] at hpoints
      rw [Booking.errors, Int.natCast_add] at hcount
      have hbooked : t.book .error = { t with errors := t.errors + 1 } := countError_eq herrors (by omega)
      have hrest := ih (t := t.book .error) (by rwa [hbooked]) (by rw [hbooked]; simp only; omega)
        (by rwa [hbooked]) (by rw [hbooked]; simp only; omega)
      refine hrest.trans ?_
      rw [hbooked, Booking.points, Booking.errors, Int.natCast_add, Int.add_assoc, Int.add_comm 1]
      rfl

theorem recordError_eq (herrors : 0 ≤ t.errors) (hfits : t.errors + 1 ≤ Word.largest) :
    t.recordError.2 = if errorLimit t.score t.floor t.ceiling ≤ t.errors + 1 then
      .error (.budgetExceeded (t.errors + 1) (errorLimit t.score t.floor t.ceiling)) else .ok () := by
  have hcounted := congrArg verdict (countError_eq herrors hfits)
  exact hcounted

/-- From the floor on an error fails unless the points allow for it and for one more. -/
theorem recordError_of_floor_le (hscore : 0 ≤ t.score) (herrors : 0 ≤ t.errors)
    (hfits : t.errors + 1 ≤ Word.largest) (hfloor : t.floor ≤ t.errors + 1) :
    t.recordError.2 = if t.errors + 1 < t.ceiling ∧ 20 * (t.errors + 1 + 1) ≤ t.score then .ok ()
      else .error (.budgetExceeded (t.errors + 1) (errorLimit t.score t.floor t.ceiling)) := by
  have hlimit := lt_errorLimit_iff t.ceiling hscore hfloor
  rw [recordError_eq herrors hfits]
  by_cases hpaid : t.errors + 1 < t.ceiling ∧ 20 * (t.errors + 1 + 1) ≤ t.score
  · rw [if_pos hpaid, if_neg (Int.not_le.mpr (hlimit.mpr hpaid))]
  · rw [if_neg hpaid, if_pos (Int.not_lt.mp fun hlt => hpaid (hlimit.mp hlt))]

/-- An error that fails is not below the floor. -/
theorem floor_le_of_failed (hbounds : t.floor ≤ t.ceiling) (herrors : 0 ≤ t.errors)
    (hfits : t.errors + 1 ≤ Word.largest) (hfailed : t.recordError.2 ≠ .ok ()) : t.floor ≤ t.errors + 1 := by
  rw [recordError_eq herrors hfits] at hfailed
  by_contra hbelow
  have hfloor := floor_le_errorLimit t.score hbounds
  exact hfailed (if_neg (by omega))

/-- What comes after an error that failed adds up as everything else. -/
theorem bookAll_after_error (hscore : 0 ≤ t.score) (herrors : 0 ≤ t.errors)
    (hpoints : t.score + Booking.points bookings ≤ Word.largest)
    (hcount : t.errors + 1 + Booking.errors bookings ≤ Word.largest) :
    t.recordError.1.bookAll bookings = { t with
      score := t.score + Booking.points bookings, errors := t.errors + 1 + Booking.errors bookings } := by
  have hcounted : t.recordError.1 = { t with errors := t.errors + 1 } := countError_eq herrors (by omega)
  rw [hcounted]
  exact bookAll_eq hscore (by simp only; omega) hpoints hcount

/-- An error has failed, and after it come gains and errors in any order, with no overflow of a counter. The
    next error passes again exactly if its number is below the ceiling and the score has twenty points for
    each error up to it and for one more; otherwise it fails as the first one did. So errors go on failing
    for ever once the ceiling is reached, and also as long as no more than twenty points are gained for each
    of them. -/
theorem recordError_after_failure (hbounds : t.floor ≤ t.ceiling) (hscore : 0 ≤ t.score) (herrors : 0 ≤ t.errors)
    (hpoints : t.score + Booking.points bookings ≤ Word.largest)
    (hcount : t.errors + Booking.errors bookings + 2 ≤ Word.largest)
    (hfailed : t.recordError.2 ≠ .ok ()) :
    let number := t.errors + Booking.errors bookings + 2
    let score := t.score + Booking.points bookings
    (t.recordError.1.bookAll bookings).recordError.2 =
      (if number < t.ceiling ∧ 20 * (number + 1) ≤ score then .ok ()
        else .error (.budgetExceeded number (errorLimit score t.floor t.ceiling))) ∧
    (Booking.points bookings ≤ 20 * (Booking.errors bookings + 1) →
      (t.recordError.1.bookAll bookings).recordError.2 ≠ .ok ()) := by
  intro number score
  have hfloor := floor_le_of_failed hbounds herrors (by omega) hfailed
  have hlater := bookAll_after_error hscore herrors hpoints (by omega)
  have hnumber : t.errors + 1 + Booking.errors bookings + 1 = number := by omega
  have hanswer : (t.recordError.1.bookAll bookings).recordError.2 =
      if number < t.ceiling ∧ 20 * (number + 1) ≤ score then .ok ()
      else .error (.budgetExceeded number (errorLimit score t.floor t.ceiling)) := by
    rw [hlater, ← hnumber]
    refine recordError_of_floor_le ?_ ?_ ?_ ?_ <;> simp only <;> omega
  refine ⟨hanswer, fun hfew hpasses => ?_⟩
  rw [hanswer] at hpasses
  rw [recordError_of_floor_le hscore herrors (by omega) hfloor] at hfailed
  split at hpasses
  · next hpaid => exact hfailed (if_pos (by omega))
  · cases hpasses

/-- The fiftieth error fails. With a hundred points after it the next fails as well, as with any gain of no
    more than twenty. -/
theorem recordError_after_fiftieth :
    let t : Tracker := ⟨0, 49, 50, 200⟩
    t.recordError.2 ≠ .ok () ∧ (t.recordError.1.bookAll [.gain 100]).recordError.2 =
      .error (.budgetExceeded 51 50) := by
  refine ⟨by decide, ?_⟩
  exact (recordError_after_failure (by decide) (by decide) (by decide) (by decide)
    (by decide) (by decide)).1

/-- The fiftieth error fails, and the next one passes, after a gain. -/
theorem passes_after_failure :
    let t := (Tracker.fresh 50 200).bookAll (List.replicate 49 .error)
    t.recordError.2 = .error (.budgetExceeded 50 50) ∧
      (t.recordError.1.bookAll [.gain 3000]).recordError.2 = .ok () := by
  decide +kernel

end Tracker

end ExchangeLoad
