import ExchangeLoad.Toml.Text
import ExchangeLoad.Toml.Value

/-!
Reading TOML documents: first into sections, each a header with the pairs below it, then into one
table. Neither values nor keys may be nested eighty deep.
-/

namespace ExchangeLoad.Toml

/-- The depth that nesting does not reach. -/
def depthLimit : Nat := 80

/-- The characters of a key that needs no quotes. -/
def isBare (c : Char) : Bool := c.isAlphanum || c = '_' || c = '-'

/-- The characters of numbers, truth values and moments. -/
def isWordChar (c : Char) : Bool := isBare c || c = '+' || c = '.' || c = ':'

/-- One key and what follows it. -/
def readKey? (cs : List Char) : Option (String × List Char) :=
  match readLineText? cs with
  | some r => some r
  | none =>
    let key := cs.takeWhile isBare
    if key.isEmpty then none else some (String.ofList key, cs.dropWhile isBare)

/-- Keys joined by points, and what follows them and the blanks after them. -/
def readKeys : Nat → List Char → Option (List String × List Char)
  | 0, _ => none
  | fuel + 1, cs => do
    let (key, rest) ← readKey? (skipBlanks cs)
    match skipBlanks rest with
    | '.' :: rest => do
      let (keys, rest) ← readKeys fuel rest
      return (key :: keys, rest)
    | rest => return ([key], rest)

/-- Keys joined by points, fewer than the depth limit. -/
def readPath? (cs : List Char) : Option (List String × List Char) := do
  let (keys, rest) ← readKeys (cs.length + 1) cs
  guard (keys.length < depthLimit)
  return (keys, rest)

/-- The number, truth value or moment at the start of a document part, and what follows it. A blank
    may join a date and a time of day. -/
def readWord? (cs : List Char) : Option (Toml × List Char) :=
  let word := cs.takeWhile isWordChar
  let rest := cs.dropWhile isWordChar
  let later := rest.drop 1
  let clock := later.takeWhile isWordChar
  if isDate word && rest.head? = some ' ' && isClock clock then
    some (moment (String.ofList (word ++ ' ' :: clock)), later.dropWhile isWordChar)
  else if word = "true".toList then some (bool true, rest)
  else if word = "false".toList then some (bool false, rest)
  else if isMoment word then some (moment (String.ofList word), rest)
  else if isFloat word then some (float (String.ofList word), rest)
  else (integer? word).map fun n => (int n, rest)

mutual

/-- The value at the start of a document part, at a nesting depth, and what follows it. -/
def readValue : Nat → Nat → List Char → Option (Toml × List Char)
  | 0, _, _ => none
  | fuel + 1, depth, cs =>
    match cs with
    | '[' :: rest =>
      if depth + 1 < depthLimit then
        (readItems fuel (depth + 1) (skipGaps false rest)).map fun (items, rest) => (arr items, rest)
      else none
    | '\x7b' :: rest =>
      if depth + 1 < depthLimit then
        match skipBlanks rest with
        | '\x7d' :: rest => some (table .inline [], rest)
        | rest => do
          let (pairs, rest) ← readPairs fuel (depth + 1) rest
          let members ← putAll pairs []
          return (table .inline members, rest)
      else none
    | '"' :: _ => (readText? cs).map fun (s, rest) => (str s, rest)
    | '\'' :: _ => (readText? cs).map fun (s, rest) => (str s, rest)
    | _ => readWord? cs

/-- The items of an array up to its closing bracket, and what follows that. -/
def readItems : Nat → Nat → List Char → Option (List Toml × List Char)
  | 0, _, _ => none
  | fuel + 1, depth, cs =>
    match cs with
    | ']' :: rest => some ([], rest)
    | _ => do
      let (v, rest) ← readValue fuel depth cs
      match skipGaps false rest with
      | ',' :: rest => do
        let (items, rest) ← readItems fuel depth (skipGaps false rest)
        return (v :: items, rest)
      | ']' :: rest => return ([v], rest)
      | _ => none

/-- The pairs of a table between braces up to its closing brace, and what follows that. -/
def readPairs : Nat → Nat → List Char → Option (List Pair × List Char)
  | 0, _, _ => none
  | fuel + 1, depth, cs => do
    let (keys, rest) ← readPath? cs
    let rest ← after? '=' rest
    let (v, rest) ← readValue fuel depth (skipBlanks rest)
    let pair : Pair := ⟨keys.dropLast, keys.getLastD "", v⟩
    match skipBlanks rest with
    | ',' :: rest => do
      let (pairs, rest) ← readPairs fuel depth rest
      return (pair :: pairs, rest)
    | '\x7d' :: rest => return ([pair], rest)
    | _ => none

end

/-- A line of a document that says something. -/
inductive Line where
  | pair (p : Pair)
  | header (keys : List String)
  /-- A header in double brackets. -/
  | doubled (keys : List String)
deriving Repr, Inhabited

/-- The line at the start of a document part, which holds more than blanks, and what follows it. -/
def readLine? (cs : List Char) : Option (Line × List Char) :=
  match cs with
  | '[' :: '[' :: rest => do
    let (keys, rest) ← readPath? rest
    let rest ← after? ']' rest
    let rest ← after? ']' rest
    return (.doubled keys, ← afterLine? rest)
  | '[' :: rest => do
    let (keys, rest) ← readPath? rest
    let rest ← after? ']' rest
    return (.header keys, ← afterLine? rest)
  | _ => do
    let (keys, rest) ← readPath? cs
    let rest ← after? '=' rest
    let (v, rest) ← readValue (2 * rest.length + 2) 0 (skipBlanks rest)
    return (.pair ⟨keys.dropLast, keys.getLastD "", v⟩, ← afterLine? rest)

/-- All lines of a document. -/
def readLines : Nat → List Char → Option (List Line)
  | 0, _ => none
  | fuel + 1, cs =>
    match skipGaps false cs with
    | [] => some []
    | rest => do
      let (line, rest) ← readLine? rest
      return line :: (← readLines fuel rest)

/-- A header and the pairs below it; the first section of a document has none. -/
structure Section where
  header : Option Line
  pairs : List Pair
deriving Repr, Inhabited

/-- The sections of a document, in order. -/
def sections : List Line → List Section
  | [] => [⟨none, []⟩]
  | .pair p :: lines =>
    match sections lines with
    | ⟨none, pairs⟩ :: rest => ⟨none, p :: pairs⟩ :: rest
    | rest => ⟨none, [p]⟩ :: rest
  | line :: lines =>
    match sections lines with
    | ⟨none, pairs⟩ :: rest => ⟨none, []⟩ :: ⟨some line, pairs⟩ :: rest
    | rest => ⟨none, []⟩ :: ⟨some line, []⟩ :: rest

/-- Opens the table that a header names for the first time, or one that was only implied, and fills it. -/
def fill (key : String) (pairs : List Pair) (members : Members) : Option Members :=
  match members.lookup key with
  | none => do
    let inner ← putAll pairs []
    return members ++ [(key, table .headed inner)]
  | some (table .implied inner) => do
    let inner ← putAll pairs inner
    return replace members key (table .headed inner)
  | some _ => none

/-- Adds one more table to those under a header in double brackets. -/
def extend (key : String) (pairs : List Pair) (members : Members) : Option Members :=
  match members.lookup key with
  | none => do
    let inner ← putAll pairs []
    return members ++ [(key, tables [inner])]
  | some (tables items) => do
    let inner ← putAll pairs []
    return replace members key (tables (items ++ [inner]))
  | some _ => none

/-- Lays a section into a document. -/
def Section.place (s : Section) (members : Members) : Option Members :=
  match s.header with
  | some (.header keys) => within keys.dropLast (fill (keys.getLastD "") s.pairs) members
  | some (.doubled keys) => within keys.dropLast (extend (keys.getLastD "") s.pairs) members
  | _ => putAll s.pairs members

/-- The members of the document that a text holds. -/
def parse (text : String) : Option Members := do
  let cs := match text.toList with
    | '\ufeff' :: rest => rest
    | cs => cs
  let lines ← readLines (cs.length + 1) cs
  (sections lines).foldlM (fun members s => s.place members) []

end ExchangeLoad.Toml
