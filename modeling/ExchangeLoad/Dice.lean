import ExchangeLoad.Identity
import ExchangeLoad.Investor.Basic

/-!
Values drawn at random: a sequence of words that a seed determines, and the identities, names,
secrets and trades that are made of them. Every value takes words of its own.
-/

namespace ExchangeLoad

/-- A sequence of random words. -/
structure Dice where
  seed : UInt64
deriving DecidableEq, Repr, Inhabited

namespace Dice

/-- Scatters the bits of a word. -/
def scatter (x : UInt64) : UInt64 :=
  let x := (x ^^^ (x >>> 30)) * 0xbf58476d1ce4e5b9
  let x := (x ^^^ (x >>> 27)) * 0x94d049bb133111eb
  x ^^^ (x >>> 31)

/-- The word at a place of a sequence; places are told apart by two numbers. -/
def word (d : Dice) (n k : Nat) : Nat :=
  (scatter (scatter (d.seed + (n.toUInt64 + 1) * 0x9e3779b97f4a7c15) + k.toUInt64 * 0xd1b54a32d192ed03)).toNat

/-- A number below a bound that is not zero. -/
def below (d : Dice) (n k bound : Nat) (h : 0 < bound) : Fin bound := ⟨d.word n k % bound, Nat.mod_lt _ h⟩

/-- The digits of identities. -/
def hexDigits : List Char := "0123456789abcdef".toList

/-- The characters of secrets. -/
def secretChars : List Char :=
  "ABCDEFGHIJKLMNOPQRSTUVWXYZabcdefghijklmnopqrstuvwxyz0123456789".toList

/-- The member of a list that a word picks. -/
def pick {α : Type} (xs : List α) (default : α) (word : Nat) : α := xs.getD (word % xs.length) default

/-- The first names of investors. -/
def firstNames : List String :=
  ["Aiko", "Basil", "Chiara", "Dmitri", "Emeka", "Freya", "Goro", "Hana", "Ines", "Jun", "Kofi", "Lena",
    "Mateo", "Nia", "Oskar", "Priya", "Quinn", "Rin", "Sven", "Tomoko"]

/-- The last names of investors. -/
def lastNames : List String :=
  ["Abe", "Brandt", "Costa", "Dubois", "Endo", "Fischer", "Garcia", "Hayashi", "Ivanova", "Jensen",
    "Kato", "Lindqvist", "Mori", "Nakamura", "Okafor", "Petrov", "Sato", "Tanaka"]

/-- The digit at a place of an identity: the thirteenth tells the version, four, and the seventeenth
    the variant; all others are free. -/
def identityDigit (d : Dice) (n place : Nat) : Char :=
  if place = 12 then '4'
  else if place = 16 then pick ['8', '9', 'a', 'b'] '8' (d.word n place)
  else pick hexDigits '0' (d.word n place)

/-- The identity at a place of the sequence: thirty-two hexadecimal digits. -/
def identity (d : Dice) (n : Nat) : Identity :=
  ⟨String.ofList ((List.range 32).map (d.identityDigit n))⟩

/-- The name at a place of the sequence. -/
def displayName (d : Dice) (n : Nat) : String :=
  pick firstNames "Anon" (d.word n 32) ++ " " ++ pick lastNames "Investor" (d.word n 33)

/-- The secret at a place of the sequence: sixteen letters and digits. -/
def secret (d : Dice) (n : Nat) : String :=
  String.ofList ((List.range 16).map fun place => pick secretChars 'A' (d.word n (34 + place)))

/-- What is drawn for the trade at a place of the sequence. -/
def draw (d : Dice) (n : Nat) : Draw :=
  ⟨d.below n 50 501 (by decide), d.below n 51 5 (by decide)⟩

end Dice

end ExchangeLoad
