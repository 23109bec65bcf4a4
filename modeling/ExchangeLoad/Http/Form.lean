import ExchangeLoad.Json.Printer

/-!
Form bodies: pairs of names and values joined by ampersands. Letters, digits and four marks stand for
themselves, a blank is a plus sign, and every other byte is a percent sign and two digits.
-/

namespace ExchangeLoad.Http

/-- Whether a byte stands for itself in a form. -/
def isFormByte (b : UInt8) : Bool :=
  let c := Char.ofNat b.toNat
  b < 128 && (c.isAlphanum || c = '*' || c = '-' || c = '.' || c = '_')

/-- A hexadecimal digit in upper case. -/
def upperDigit (n : Nat) : Char := (Json.hexDigit n).toUpper

/-- How one byte is written in a form. -/
def formByte (b : UInt8) : List Char :=
  if isFormByte b then [Char.ofNat b.toNat]
  else if b = 32 then ['+']
  else ['%', upperDigit (b.toNat / 16), upperDigit (b.toNat % 16)]

/-- How a text is written in a form. -/
def formText (s : String) : String := String.ofList (s.toUTF8.toList.flatMap formByte)

/-- A form. -/
def form (fields : List (String × String)) : String :=
  "&".intercalate (fields.map fun (name, value) => formText name ++ "=" ++ formText value)

end ExchangeLoad.Http
