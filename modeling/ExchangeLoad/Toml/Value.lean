/-!
TOML documents as values. A table remembers how it came to be, because that decides whether a later
line may add to it.
-/

namespace ExchangeLoad

/-- How a table came to be. -/
inductive Toml.Origin where
  /-- Its own header stands in the document, or it is the document itself. -/
  | headed
  /-- Only headers of tables inside it stand in the document. -/
  | implied
  /-- Dotted keys name it. -/
  | dotted
  /-- It is written between braces. -/
  | inline
deriving DecidableEq, Repr, Inhabited

/-- A TOML value. -/
inductive Toml where
  | str (s : String)
  | int (n : Int)
  /-- A number with a fraction or exponent, or one that is infinite or none, as it was written. -/
  | float (written : String)
  | bool (b : Bool)
  /-- A date, a time or both, as it was written. -/
  | moment (written : String)
  | arr (items : List Toml)
  /-- Tables under one header in double brackets. -/
  | tables (items : List (List (String × Toml)))
  | table (origin : Toml.Origin) (members : List (String × Toml))
deriving Repr, Inhabited

namespace Toml

/-- The members of a table. -/
abbrev Members := List (String × Toml)

/-- The members with a new value for a key that is there. -/
def replace (members : Members) (key : String) (v : Toml) : Members :=
  members.map fun m => if m.1 == key then (key, v) else m

/-- Adds a value under dotted keys; `path` leads to the table, `key` names the value in it. Tables on
    the way are made where they are missing. A key that is there is not set again, and a table that
    has a header of its own, or is implied by one, or stands between braces, is not added to. -/
def put (path : List String) (key : String) (v : Toml) (members : Members) : Option Members :=
  match path with
  | [] => if (members.lookup key).isSome then none else some (members ++ [(key, v)])
  | step :: path =>
    match members.lookup step with
    | none => do
      let inner ← put path key v []
      return members ++ [(step, table .dotted inner)]
    | some (table .dotted inner) => do
      let inner ← put path key v inner
      return replace members step (table .dotted inner)
    | some (table .implied inner) =>
      if path.isEmpty then none
      else do
        let inner ← put path key v inner
        return replace members step (table .implied inner)
    | some (tables items) =>
      match path, items.getLast? with
      | _ :: _, some last => do
        let last ← put path key v last
        return replace members step (tables (items.dropLast ++ [last]))
      | _, _ => none
    | some _ => none

/-- Works inside the table that a header's keys lead to, making tables that are missing. A header in
    double brackets leads to the last of its tables. -/
def within (path : List String) (work : Members → Option Members) (members : Members) :
    Option Members :=
  match path with
  | [] => work members
  | step :: path =>
    match members.lookup step with
    | none => do
      let inner ← within path work []
      return members ++ [(step, table .implied inner)]
    | some (table .inline _) => none
    | some (table origin inner) => do
      let inner ← within path work inner
      return replace members step (table origin inner)
    | some (tables items) =>
      match items.getLast? with
      | some last => do
        let last ← within path work last
        return replace members step (tables (items.dropLast ++ [last]))
      | none => none
    | some _ => none

/-- A value and the dotted keys it stands under. -/
structure Pair where
  path : List String
  key : String
  value : Toml
deriving Repr, Inhabited

/-- Adds pairs one after the other. -/
def putAll (pairs : List Pair) (members : Members) : Option Members :=
  pairs.foldlM (fun members p => put p.path p.key p.value members) members

end Toml

end ExchangeLoad
