import ExchangeLoad.Calendar
import ExchangeLoad.Word

/-!
The words of a TOML document that are neither texts nor brackets: numbers, truth values and moments.
A word is classified as a whole.
-/

namespace ExchangeLoad.Toml

/-- The value of a digit in a base up to sixteen. -/
def digit? (base : Nat) (c : Char) : Option Nat :=
  let n :=
    if '0' ≤ c ∧ c ≤ '9' then c.toNat - 48
    else if 'a' ≤ c ∧ c ≤ 'f' then c.toNat - 87
    else if 'A' ≤ c ∧ c ≤ 'F' then c.toNat - 55
    else base
  if n < base then some n else none

/-- The digits of a number in which single underscores may stand between two digits. -/
def digits? (base : Nat) : List Char → Option (List Nat)
  | [] => none
  | [c] => (digit? base c).map ([·])
  | c :: '_' :: rest => do return (← digit? base c) :: (← digits? base rest)
  | c :: rest => do return (← digit? base c) :: (← digits? base rest)

/-- The number that digits name. -/
def valueOf (base : Nat) (digits : List Nat) : Nat := digits.foldl (fun n d => base * n + d) 0

/-- The sign in front of a word: whether it is a minus, and the rest. -/
def unsign : List Char → Bool × List Char
  | '-' :: rest => (true, rest)
  | '+' :: rest => (false, rest)
  | cs => (false, cs)

/-- Decimal digits without a needless leading zero. -/
def decimals? (cs : List Char) : Option (List Nat) := do
  let ds ← digits? 10 cs
  guard (ds.length = 1 || ds.head? != some 0)
  return ds

/-- The whole number that a word is, in the range of a counter. -/
def integer? (cs : List Char) : Option Int := do
  let n : Int ← match cs with
    | '0' :: 'x' :: rest => (digits? 16 rest).map fun ds => (valueOf 16 ds : Int)
    | '0' :: 'o' :: rest => (digits? 8 rest).map fun ds => (valueOf 8 ds : Int)
    | '0' :: 'b' :: rest => (digits? 2 rest).map fun ds => (valueOf 2 ds : Int)
    | _ =>
      let (negative, cs) := unsign cs
      (decimals? cs).map fun ds => if negative then -(valueOf 10 ds : Int) else valueOf 10 ds
  guard (decide (Word.Fits n))
  return n

/-- Whether a decimal number with digits `ds` and exponent `e` is so large that the nearest double
    precision number is infinite. -/
def tooLarge (ds : List Nat) (e : Int) : Bool :=
  let m := valueOf 10 ds
  let bound := Nat.pow 2 1024 - Nat.pow 2 970
  if m = 0 then false
  else if 0 ≤ e then
    if 400 < e then true else bound ≤ m * Nat.pow 10 e.toNat
  else
    let ds := ds.dropWhile (· = 0)
    if (ds.length : Int) + e < 300 then false else bound * Nat.pow 10 (-e).toNat ≤ m

/-- The part of a word before the first character with a property, and the part after it. -/
def cut (p : Char → Bool) (cs : List Char) : List Char × Option (List Char) :=
  (cs.takeWhile (!p ·), ((cs.dropWhile (!p ·)).tail?))

/-- Whether a word is a number with a fraction or exponent, or one of the named ones. -/
def isFloat (cs : List Char) : Bool :=
  let (negative, body) := unsign cs
  if body = "inf".toList || body = "nan".toList then true
  else
    let (mantissa, exponent) := cut (fun c => c = 'e' || c = 'E') body
    let (whole, fraction) := cut (· = '.') mantissa
    if exponent.isNone && fraction.isNone then false
    else
      let read : Option (List Nat × Int) := do
        let ds ← decimals? whole
        let fs ← fraction.elim (some []) (digits? 10)
        let e ← exponent.elim (some 0) fun cs =>
          let (negative, cs) := unsign cs
          (digits? 10 cs).map fun ds => if negative then -(valueOf 10 ds : Int) else valueOf 10 ds
        return (ds ++ fs, e - fs.length)
      match read with
      | some (ds, e) => negative || !tooLarge ds e
      | none => false

/-- The number that a fixed count of decimal digits names, and the rest. -/
def fixed? : Nat → List Char → Option (Nat × List Char)
  | count, cs => do
    let ds := cs.take count
    guard (ds.length = count && ds.all Char.isDigit)
    return (ds.foldl (fun n c => 10 * n + (c.toNat - 48)) 0, cs.drop count)

/-- The rest of a word after a character. -/
def after? (c : Char) : List Char → Option (List Char)
  | d :: rest => if c = d then some rest else none
  | [] => none

/-- The rest of a word after a date. -/
def afterDate? (cs : List Char) : Option (List Char) := do
  let (year, cs) ← fixed? 4 cs
  let (month, cs) ← fixed? 2 (← after? '-' cs)
  let (day, cs) ← fixed? 2 (← after? '-' cs)
  guard (1 ≤ month && month ≤ 12 && 1 ≤ day && day ≤ Calendar.daysIn year month)
  return cs

/-- The rest of a word after hours and minutes. -/
def afterMinutes? (cs : List Char) : Option (List Char) := do
  let (hour, cs) ← fixed? 2 cs
  let (minute, cs) ← fixed? 2 (← after? ':' cs)
  guard (hour ≤ 23 && minute ≤ 59)
  return cs

/-- The rest of a word after a time of day; a minute may have a leap second. -/
def afterTime? (cs : List Char) : Option (List Char) := do
  let cs ← afterMinutes? cs
  let (second, cs) ← fixed? 2 (← after? ':' cs)
  guard (second ≤ 60)
  match cs with
  | '.' :: rest => do
    guard ((rest.head?.map Char.isDigit).getD false)
    return rest.dropWhile Char.isDigit
  | _ => return cs

/-- Whether nothing but an offset from universal time, or nothing at all, is left. -/
def isOffset : List Char → Bool
  | [] => true
  | ['Z'] => true
  | ['z'] => true
  | '+' :: rest => afterMinutes? rest = some []
  | '-' :: rest => afterMinutes? rest = some []
  | _ => false

/-- Whether a word is a date alone. -/
def isDate (cs : List Char) : Bool := afterDate? cs = some []

/-- Whether a word is a time of day, perhaps with an offset. -/
def isClock (cs : List Char) : Bool := (afterTime? cs).elim false isOffset

/-- Whether a word is a date, a time of day without offset, or both joined by the letter T. -/
def isMoment (cs : List Char) : Bool :=
  afterTime? cs = some [] ||
    match afterDate? cs with
    | some [] => true
    | some (t :: rest) => (t = 'T' || t = 't') && isClock rest
    | none => false

end ExchangeLoad.Toml
