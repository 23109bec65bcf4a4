import ExchangeLoad.Toml.Scalar

/-!
Texts and blanks of TOML documents. A text stands between quotes, where escapes are read, or between
apostrophes, where nothing is; tripled, both go over several lines.
-/

namespace ExchangeLoad.Toml

/-- The blanks inside a line. -/
def isBlank (c : Char) : Bool := c = ' ' || c = '\t'

/-- The text after its leading blanks. -/
def skipBlanks (cs : List Char) : List Char := cs.dropWhile isBlank

/-- The characters that may stand in comments and texts: no control character but the tab. -/
def isPlain (c : Char) : Bool := c = '\t' || (32 ≤ c.toNat && c.toNat != 127)

/-- The text after a comment, if it starts with one. -/
def skipComment : List Char → List Char
  | '#' :: rest => rest.dropWhile isPlain
  | cs => cs

/-- What follows the end of a line; blanks and a comment may stand before it. -/
def afterLine? (cs : List Char) : Option (List Char) :=
  match skipComment (skipBlanks cs) with
  | [] => some []
  | '\n' :: rest => some rest
  | '\r' :: '\n' :: rest => some rest
  | _ => none

/-- The text after leading blanks, comments and ends of lines; `comment` tells that it starts inside a
    comment. -/
def skipGaps (comment : Bool) : List Char → List Char
  | [] => []
  | '\n' :: rest => skipGaps false rest
  | '\r' :: '\n' :: rest => skipGaps false rest
  | c :: rest =>
    if comment then (if isPlain c then skipGaps true rest else c :: rest)
    else if isBlank c then skipGaps false rest
    else if c = '#' then skipGaps true rest
    else c :: rest

/-- The character with a number, which has to be one. -/
def character? (digits : List Char) : Option Char := do
  let ds ← digits.mapM (digit? 16)
  let n := valueOf 16 ds
  if h : n.isValidChar then some ⟨n.toUInt32, by
    have : n < 4294967296 := by unfold Nat.isValidChar at h; omega
    simpa [UInt32.isValidChar, Nat.toUInt32, UInt32.toNat_ofNat_of_lt' this] using h⟩ else none

/-- The character that a one-letter escape stands for. -/
def escaped? : Char → Option Char
  | 'b' => some '\x08'
  | 't' => some '\t'
  | 'n' => some '\n'
  | 'f' => some '\x0c'
  | 'r' => some '\r'
  | '"' => some '"'
  | '\\' => some '\\'
  | _ => none

/-- The characters of a quoted text whose opening quote has been read, newest first after those
    already there, and what follows its closing quote. -/
def scanQuoted : List Char → List Char → Option (List Char × List Char)
  | [], _ => none
  | '"' :: rest, text => some (text, rest)
  | '\\' :: 'u' :: a :: b :: c :: d :: rest, text =>
    match character? [a, b, c, d] with
    | some x => scanQuoted rest (x :: text)
    | none => none
  | '\\' :: 'U' :: a :: b :: c :: d :: e :: f :: g :: h :: rest, text =>
    match character? [a, b, c, d, e, f, g, h] with
    | some x => scanQuoted rest (x :: text)
    | none => none
  | '\\' :: e :: rest, text =>
    match escaped? e with
    | some x => scanQuoted rest (x :: text)
    | none => none
  | c :: rest, text => if isPlain c && c != '\\' then scanQuoted rest (c :: text) else none

/-- How many of a run of quotes that ends a text over several lines belong to the text: the run's last
    three close it, and at most two stand before them. -/
def spare (run : Nat) : Nat := min (run - 3) 2

/-- Whether the end of a line follows, perhaps after blanks. -/
def endsLine (cs : List Char) : Bool :=
  match skipBlanks cs with
  | '\n' :: _ => true
  | '\r' :: '\n' :: _ => true
  | _ => false

/-- As `scanQuoted`, for a text between tripled quotes; `trimming` tells that blanks and ends of lines
    are passed over, as they are after a backslash that ends a line. -/
def scanQuotedLines (trimming : Bool) : List Char → List Char → Option (List Char × List Char)
  | [], _ => none
  | '"' :: '"' :: '"' :: rest, text =>
    let extra := spare (3 + (rest.takeWhile (· = '"')).length)
    some (List.replicate extra '"' ++ text, rest.drop extra)
  | '\\' :: 'u' :: a :: b :: c :: d :: rest, text =>
    match character? [a, b, c, d] with
    | some x => scanQuotedLines false rest (x :: text)
    | none => none
  | '\\' :: 'U' :: a :: b :: c :: d :: e :: f :: g :: h :: rest, text =>
    match character? [a, b, c, d, e, f, g, h] with
    | some x => scanQuotedLines false rest (x :: text)
    | none => none
  | '\r' :: '\n' :: rest, text =>
    if trimming then scanQuotedLines true rest text else scanQuotedLines false rest ('\n' :: text)
  | '\\' :: e :: rest, text =>
    match escaped? e with
    | some x => scanQuotedLines false rest (x :: text)
    | none => if endsLine (e :: rest) then scanQuotedLines true (e :: rest) text else none
  | c :: rest, text =>
    if trimming && (isBlank c || c = '\n') then scanQuotedLines true rest text
    else if c = '\n' || (isPlain c && c != '\\') then scanQuotedLines false rest (c :: text)
    else none

/-- As `scanQuoted`, for a text between apostrophes. -/
def scanVerbatim : List Char → List Char → Option (List Char × List Char)
  | [], _ => none
  | c :: rest, text =>
    if c = '\'' then some (text, rest)
    else if isPlain c then scanVerbatim rest (c :: text)
    else none

/-- As `scanQuoted`, for a text between tripled apostrophes. -/
def scanVerbatimLines : List Char → List Char → Option (List Char × List Char)
  | [], _ => none
  | '\'' :: '\'' :: '\'' :: rest, text =>
    let extra := spare (3 + (rest.takeWhile (· = '\'')).length)
    some (List.replicate extra '\'' ++ text, rest.drop extra)
  | '\r' :: '\n' :: rest, text => scanVerbatimLines rest ('\n' :: text)
  | c :: rest, text =>
    if c = '\n' || isPlain c then scanVerbatimLines rest (c :: text) else none

/-- The text after the end of a line that follows an opening tripled quote directly. -/
def skipFirstLine : List Char → List Char
  | '\n' :: rest => rest
  | '\r' :: '\n' :: rest => rest
  | cs => cs

/-- The text on one line at the start of a document part, and what follows it. -/
def readLineText? : List Char → Option (String × List Char)
  | '"' :: rest => (scanQuoted rest []).map fun (t, rest) => (String.ofList t.reverse, rest)
  | '\'' :: rest => (scanVerbatim rest []).map fun (t, rest) => (String.ofList t.reverse, rest)
  | _ => none

/-- The text at the start of a document part, and what follows it. -/
def readText? : List Char → Option (String × List Char)
  | '"' :: '"' :: '"' :: rest =>
    (scanQuotedLines false (skipFirstLine rest) []).map fun (t, rest) =>
      (String.ofList t.reverse, rest)
  | '\'' :: '\'' :: '\'' :: rest =>
    (scanVerbatimLines (skipFirstLine rest) []).map fun (t, rest) =>
      (String.ofList t.reverse, rest)
  | cs => readLineText? cs

end ExchangeLoad.Toml
