import ExchangeLoad.Text.Blank

/-!
Files of environment variables, a variable a line: a key, an equals sign and a value, perhaps after
the word `export`. Inside a value, apostrophes take everything as it stands, quotes take everything
but escapes and variables, and a dollar sign puts in the value of a variable. A variable that is set
already keeps its value. Reading ends at the first line that cannot be read; those before it count.
-/

namespace ExchangeLoad.EnvFile

/-- The variables that are set, and the values of keys that were read. -/
structure Scope where
  /-- What the environment says. -/
  outer : String → Option String
  /-- What the file has added, newest first. -/
  added : List (String × String)
  /-- What the file has said, newest first; nothing is said by an empty value. -/
  said : List (String × String)

namespace Scope

/-- The value of a variable that is set. -/
def get? (s : Scope) (key : String) : Option String :=
  match s.outer key with
  | some v => some v
  | none => s.added.lookup key

/-- The value that a variable is replaced by: what is set, else what was said, else nothing. -/
def value (s : Scope) (key : String) : String :=
  match s.get? key with
  | some v => v
  | none => (s.said.lookup key).getD ""

/-- Takes note of a line: a variable that is set keeps its value. -/
def put (s : Scope) (key value : String) : Scope :=
  { s with
    said := (key, value) :: s.said
    added := if (s.get? key).isSome then s.added else (key, value) :: s.added }

end Scope

/-- What the next character of a value means. -/
inductive Mode where
  | plain
  /-- Between apostrophes. -/
  | verbatim
  | quoted
  /-- After a backslash, inside quotes or not. -/
  | escape (inQuotes : Bool)
  /-- In the name of a variable, inside quotes or not; the name so far is kept newest first. -/
  | name (inQuotes : Bool) (letters : List Char)
  /-- In the name of a variable that stands between braces. -/
  | braced (inQuotes : Bool) (letters : List Char)
  /-- After the value. -/
  | after
deriving DecidableEq, Repr, Inhabited

/-- The mode outside of everything that `inQuotes` does not tell. -/
def Mode.base (inQuotes : Bool) : Mode := if inQuotes then quoted else plain

/-- The text of a name that is kept newest first. -/
def nameOf (letters : List Char) : String := String.ofList letters.reverse

/-- The characters of the value of a variable, newest first. -/
def valueChars (scope : Scope) (letters : List Char) : List Char :=
  (scope.value (nameOf letters)).toList.reverse

/-- Reads a value; what was read is kept newest first. -/
def readValue (scope : Scope) : List Char → Mode → List Char → Option (List Char)
  | [], mode, out =>
    match mode with
    | .plain => some out
    | .after => some out
    | .escape false => some out
    | .name false letters => some (valueChars scope letters ++ out)
    | _ => none
  | c :: rest, mode, out =>
    match mode with
    | .after =>
      if c = ' ' || c = '\t' then readValue scope rest .after out
      else if c = '#' then some out
      else none
    | .escape q =>
      if c = '\\' || c = '\'' || c = '"' || c = '$' || c = ' ' then
        readValue scope rest (.base q) (c :: out)
      else if c = 'n' then readValue scope rest (.base q) ('\n' :: out)
      else none
    | .verbatim =>
      if c = '\'' then readValue scope rest .plain out else readValue scope rest .verbatim (c :: out)
    | .name q letters =>
      if c.isAlphanum then readValue scope rest (.name q (c :: letters)) out
      else if c = '\x7b' && letters.isEmpty then readValue scope rest (.braced q []) out
      else if c = '$' then readValue scope rest (.name q []) (valueChars scope letters ++ out)
      else readValue scope rest (.base q) (c :: (valueChars scope letters ++ out))
    | .braced q letters =>
      if c = '\x7d' then readValue scope rest (.base q) (valueChars scope letters ++ out)
      else readValue scope rest (.braced q (c :: letters)) out
    | .quoted =>
      if c = '$' then readValue scope rest (.name true []) out
      else if c = '"' then readValue scope rest .plain out
      else if c = '\\' then readValue scope rest (.escape true) out
      else readValue scope rest .quoted (c :: out)
    | .plain =>
      if c = '$' then readValue scope rest (.name false []) out
      else if c = '\'' then readValue scope rest .verbatim out
      else if c = '"' then readValue scope rest .quoted out
      else if c = '\\' then readValue scope rest (.escape false) out
      else if c = ' ' || c = '\t' then readValue scope rest .after out
      else readValue scope rest .plain (c :: out)

/-- The key at the start of a line, and what follows it. -/
def readKey? (cs : List Char) : Option (String × List Char) :=
  match cs with
  | [] => none
  | c :: _ =>
    if c.isAlpha || c = '_' then
      let p := fun (c : Char) => c.isAlphanum || c = '_' || c = '.'
      some (String.ofList (cs.takeWhile p), cs.dropWhile p)
    else none

/-- What follows an equals sign. -/
def afterEquals? : List Char → Option (List Char)
  | '=' :: rest => some rest
  | _ => none

/-- The key of a line and the text of its value. -/
def splitLine? (cs : List Char) : Option (String × List Char) := do
  let (key, rest) ← readKey? cs
  let rest := Text.skipBlanks rest
  match afterEquals? rest with
  | some value => return (key, Text.skipBlanks value)
  | none => do
    guard (key == "export")
    let (key, rest) ← readKey? rest
    return (key, Text.skipBlanks (← afterEquals? (Text.skipBlanks rest)))

/-- Whether nothing but a comment is left. -/
def isVoid : List Char → Bool
  | [] => true
  | '#' :: _ => true
  | _ => false

/-- Reads a line. -/
def readLine (scope : Scope) (line : List Char) : Option Scope :=
  let cs := Text.skipBlanks (Text.dropBlanksEnd line)
  if isVoid cs then some scope
  else do
    let (key, value) ← splitLine? cs
    if isVoid value then return scope.put key ""
    else return scope.put key (String.ofList (← readValue scope value .plain []).reverse)

/-- Reads lines up to the first that cannot be read. -/
def readLines (scope : Scope) : List (List Char) → Scope
  | [] => scope
  | line :: rest =>
    match readLine scope line with
    | some scope => readLines scope rest
    | none => scope

/-- The environment after a file was read. -/
def load (outer : String → Option String) (file : Option String) : String → Option String :=
  let lines := (file.getD "").splitOn "\n"
  (readLines ⟨outer, [], []⟩ (lines.map String.toList)).get?

end ExchangeLoad.EnvFile
