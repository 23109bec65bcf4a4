import ExchangeLoad.Json.Value

/-!
JSON text. Control characters, quotes and backslashes are escaped, everything else stands for
itself. `compact` leaves out all blanks; `indented` puts every item on a line of its own.
-/

namespace ExchangeLoad.Json

/-- The digit of a number below sixteen. -/
def hexDigit (n : Nat) : Char := if n < 10 then Char.ofNat (48 + n) else Char.ofNat (87 + n)

/-- How one character is written inside a text. -/
def escapeChar (c : Char) : List Char :=
  if c = '"' then ['\\', '"']
  else if c = '\\' then ['\\', '\\']
  else if c = '\n' then ['\\', 'n']
  else if c = '\r' then ['\\', 'r']
  else if c = '\t' then ['\\', 't']
  else if c = '\x08' then ['\\', 'b']
  else if c = '\x0c' then ['\\', 'f']
  else if c.toNat < 32 then ['\\', 'u', '0', '0', hexDigit (c.toNat / 16), hexDigit (c.toNat % 16)]
  else [c]

/-- A text between quotes. -/
def quote (s : String) : String := String.ofList ('"' :: s.toList.flatMap escapeChar ++ ['"'])

mutual

/-- The shortest text of a document. -/
def compact : Json → String
  | null => "null"
  | bool b => if b then "true" else "false"
  | int n => toString n
  | decimal written => written
  | str s => quote s
  | garbled => quote "\ufffd"
  | arr items => "[" ++ ",".intercalate (compactItems items) ++ "]"
  | obj members => "\x7b" ++ ",".intercalate (compactMembers members) ++ "\x7d"

/-- The shortest texts of several documents. -/
def compactItems : List Json → List String
  | [] => []
  | v :: rest => compact v :: compactItems rest

/-- The shortest texts of the members of an object. -/
def compactMembers : List (String × Json) → List String
  | [] => []
  | (key, v) :: rest => (quote key ++ ":" ++ compact v) :: compactMembers rest

end

/-- Blanks before an item at a depth. -/
def margin (depth : Nat) : String := String.ofList (List.replicate (2 * depth) ' ')

/-- Items on lines of their own between two brackets; none at all leaves the brackets together. -/
def block (opening closing : String) (depth : Nat) (items : List String) : String :=
  if items.isEmpty then opening ++ closing
  else
    let line := ",\n" ++ margin (depth + 1)
    opening ++ "\n" ++ margin (depth + 1) ++ line.intercalate items ++ "\n" ++ margin depth ++ closing

mutual

/-- The text of a document that stands at a depth, with every item on a line of its own. -/
def indentedAt (depth : Nat) : Json → String
  | arr items => block "[" "]" depth (indentedItems (depth + 1) items)
  | obj members => block "\x7b" "\x7d" depth (indentedMembers (depth + 1) members)
  | v => compact v

/-- The indented texts of several documents. -/
def indentedItems (depth : Nat) : List Json → List String
  | [] => []
  | v :: rest => indentedAt depth v :: indentedItems depth rest

/-- The indented texts of the members of an object. -/
def indentedMembers (depth : Nat) : List (String × Json) → List String
  | [] => []
  | (key, v) :: rest => (quote key ++ ": " ++ indentedAt depth v) :: indentedMembers depth rest

end

/-- The text of a document with every item on a line of its own. -/
def indented (v : Json) : String := indentedAt 0 v

end ExchangeLoad.Json
