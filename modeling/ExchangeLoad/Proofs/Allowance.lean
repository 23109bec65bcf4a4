import ExchangeLoad.Proofs.Tracker

/-!
How the error limit moves while points are gained. Between bounds in order it rises with the score, from the
floor to the ceiling. Nothing keeps a tracker from bounds out of order: with them the limit is the floor at
first, and drops to the ceiling once the score has twenty points for each of the floor's errors.
-/

namespace ExchangeLoad

variable {floor ceiling score more : Int}

theorem errorLimit_le_errorLimit (hbounds : floor ≤ ceiling) (hscore : 0 ≤ score) (hmore : score ≤ more) :
    errorLimit score floor ceiling ≤ errorLimit more floor ceiling := by
  unfold errorLimit
  rw [Int.tdiv_eq_ediv_of_nonneg hscore, Int.tdiv_eq_ediv_of_nonneg (by omega)]
  simp only
  split <;> split <;> (try split) <;> omega

/-- Out of order, the bounds leave no room between them: the floor is the limit as long as it is out of
    reach, and from then on the ceiling is. -/
theorem errorLimit_of_inverted (hbounds : ceiling < floor) (hscore : 0 ≤ score) :
    errorLimit score floor ceiling = if score < 20 * floor then floor else ceiling := by
  unfold errorLimit
  rw [Int.tdiv_eq_ediv_of_nonneg hscore]
  simp only
  split
  · rw [if_pos (by omega)]
  · rw [if_pos (by omega), if_neg (by omega)]

namespace Booking

theorem points_append (before later : List Booking) : points (before ++ later) = points before + points later := by
  induction before with
  | nil => rw [List.nil_append, points, Nat.zero_add]
  | cons b rest ih =>
    cases b with
    | gain gained => rw [List.cons_append, points, points, ih, Nat.add_assoc]
    | error => rw [List.cons_append, points, points, ih]

end Booking

namespace Tracker

variable {t : Tracker} {bookings before later : List Booking}

theorem bookAll_bounds (t : Tracker) (bookings : List Booking) :
    (t.bookAll bookings).floor = t.floor ∧ (t.bookAll bookings).ceiling = t.ceiling := by
  induction bookings generalizing t with
  | nil => exact ⟨rfl, rfl⟩
  | cons b rest ih => cases b <;> exact ih _

/-- The score adds up, whatever becomes of the count of errors. -/
theorem bookAll_score (hscore : 0 ≤ t.score) (hfits : t.score + Booking.points bookings ≤ Word.largest) :
    (t.bookAll bookings).score = t.score + Booking.points bookings := by
  induction bookings generalizing t with
  | nil => rw [Booking.points, Int.natCast_zero, Int.add_zero]; rfl
  | cons b rest ih =>
    cases b with
    | gain points =>
      rw [Booking.points, Int.natCast_add] at hfits ⊢
      have hbooked : (t.book (.gain points)).score = t.score + points :=
        congrArg Tracker.score (addScore_eq hscore (by omega))
      have hrest := ih (t := t.book (.gain points)) (by omega) (by omega)
      rw [hbooked, Int.add_assoc] at hrest
      exact hrest
    | error => exact ih (t := t.countError) hscore hfits

theorem bookAll_append (t : Tracker) (before later : List Booking) :
    t.bookAll (before ++ later) = (t.bookAll before).bookAll later := List.foldl_append

theorem limit_bookAll (floor ceiling : Int) (hfits : (Booking.points bookings : Int) ≤ Word.largest) :
    ((fresh floor ceiling).bookAll bookings).limit = errorLimit (Booking.points bookings) floor ceiling := by
  obtain ⟨hfloor, hceiling⟩ := bookAll_bounds (fresh floor ceiling) bookings
  have hscore := bookAll_score (t := fresh floor ceiling) (Int.le_refl 0) (by rwa [fresh, Int.zero_add])
  rw [limit, hfloor, hceiling, hscore, fresh, Int.zero_add]

/-- From a run that has not begun on, points are gained and errors counted in any order, with no overflow of
    the score. Between bounds in order the limit never goes down, and it stays between them. With bounds out
    of order it is the floor before twenty points for each of the floor's errors have been gained, and the
    ceiling, which is less, afterwards. -/
theorem limit_of_gains (floor ceiling : Int)
    (hfits : (Booking.points (before ++ later) : Int) ≤ Word.largest) :
    let t := (fresh floor ceiling).bookAll before
    (floor ≤ ceiling → floor ≤ t.limit ∧ t.limit ≤ (t.bookAll later).limit ∧
      (t.bookAll later).limit ≤ ceiling) ∧
    (ceiling < floor → t.limit = if (Booking.points before : Int) < 20 * floor then floor else ceiling) := by
  intro t
  have hlater : (t.bookAll later).limit = errorLimit (Booking.points (before ++ later)) floor ceiling := by
    rw [← bookAll_append]
    exact limit_bookAll floor ceiling hfits
  rw [Booking.points_append, Int.natCast_add] at hfits hlater
  have hnow : t.limit = errorLimit (Booking.points before) floor ceiling :=
    limit_bookAll floor ceiling (by omega)
  rw [hnow, hlater]
  refine ⟨fun hbounds => ⟨floor_le_errorLimit _ hbounds, ?_, errorLimit_le_ceiling _ hbounds⟩, fun hbounds => ?_⟩
  · exact errorLimit_le_errorLimit hbounds (by omega) (by omega)
  · exact errorLimit_of_inverted hbounds (by omega)

/-- With a floor of three hundred above a ceiling of two hundred, the six thousandth point makes two hundred
    of three hundred. -/
theorem limit_of_gains_out_of_order :
    ((fresh 300 200).bookAll [.gain 5999]).limit = 300 ∧
      ((fresh 300 200).bookAll [.gain 5999, .error, .gain 1]).limit = 200 := by
  have hfits : (Booking.points ([.gain 5999] ++ []) : Int) ≤ Word.largest := by decide
  have hmore : (Booking.points ([.gain 5999, .error, .gain 1] ++ []) : Int) ≤ Word.largest := by decide
  obtain ⟨-, hbefore⟩ := limit_of_gains 300 200 hfits
  obtain ⟨-, hafter⟩ := limit_of_gains 300 200 hmore
  exact ⟨hbefore (by decide), hafter (by decide)⟩

/-- A gain may lower the limit, and below the floor. -/
theorem limit_falls_below_floor : ¬ ∀ (floor ceiling : Int) (before later : List Booking),
    (Booking.points (before ++ later) : Int) ≤ Word.largest →
      ((fresh floor ceiling).bookAll before).limit ≤ ((fresh floor ceiling).bookAll (before ++ later)).limit ∧
      floor ≤ ((fresh floor ceiling).bookAll (before ++ later)).limit := by
  intro h
  have hrises := (h 300 200 [.gain 5999] [.gain 1] (by decide)).1
  exact absurd hrises (by decide +kernel)

end Tracker

end ExchangeLoad
