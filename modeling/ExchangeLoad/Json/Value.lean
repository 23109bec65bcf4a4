/-!
JSON documents as values. The members of an object are kept as they were written, in order and with
keys that occur twice, because readers of records refuse a second occurrence of a key they know.
-/

namespace ExchangeLoad

/-- A JSON document. -/
inductive Json where
  | null
  | bool (b : Bool)
  /-- A number without fraction and exponent. -/
  | int (n : Int)
  /-- Any other number, as it was written; minus zero is one of them. -/
  | decimal (written : String)
  | str (s : String)
  /-- A text with half of a surrogate pair, or an object with such a key: it can be passed over but
      not read. -/
  | garbled
  | arr (items : List Json)
  | obj (members : List (String × Json))
deriving Repr, Inhabited

namespace Json

/-- The first member with a key. -/
def get? (v : Json) (key : String) : Option Json :=
  match v with
  | obj members => members.lookup key
  | _ => none

/-- A number that may be missing. -/
def ofInt? : Option Int → Json
  | some n => int n
  | none => null

/-- A count. -/
def ofNat (n : Nat) : Json := int n

end Json

end ExchangeLoad
