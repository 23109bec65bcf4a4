/-!
The calendar: how long months are, and the number of a day.
-/

namespace ExchangeLoad.Calendar

/-- The days of a month. -/
def daysIn (year month : Nat) : Nat :=
  if month = 2 then
    if year % 4 = 0 && (year % 100 != 0 || year % 400 = 0) then 29 else 28
  else if month = 4 || month = 6 || month = 9 || month = 11 then 30
  else 31

/-- The days of all years before a year, counted from the year one. -/
def daysBefore (year : Nat) : Nat :=
  let whole := year - 1
  365 * whole + whole / 4 - whole / 100 + whole / 400

/-- How many days a day comes after the first one of 1970. -/
def dayNumber (year month day : Nat) : Int :=
  let months := (List.range (month - 1)).foldl (fun days m => days + daysIn year (m + 1)) 0
  (daysBefore year : Int) - daysBefore 1970 + months + day - 1

end ExchangeLoad.Calendar
