import ExchangeLoad.Calendar
import ExchangeLoad.Text.Blank

/-!
Cookies: what an answer asks to have sent along with later messages to the same server. A cookie is
known by its name and its path. It goes with messages to that path and to paths below it, until its
time is over. All times are milliseconds of universal time, counted from the start of 1970.
-/

namespace ExchangeLoad.Http

/-- A cookie. -/
structure Cookie where
  name : String
  value : String
  path : String
  /-- From when on it is not sent, if it does not last for ever. -/
  ends : Option Int
deriving DecidableEq, Repr, Inhabited

namespace Cookie

/-- What stands before the first equals sign and what stands after it, if there is one. -/
def sides (s : String) : String × Option String :=
  match s.splitOn "=" with
  | [] => ("", none)
  | [name] => (Text.trim name, none)
  | name :: rest => (Text.trim name, some (Text.trim ("=".intercalate rest)))

/-- The value of an attribute that is there and has one; the last one counts. -/
def attribute? (attributes : List (String × Option String)) (name : String) : Option String :=
  (attributes.reverse.find? fun a => a.1.toLower == name && a.2.isSome).bind (·.2)

/-- The number that decimal digits name. -/
def number? (s : String) : Option Nat :=
  if !s.isEmpty && s.toList.all Char.isDigit then
    some (s.toList.foldl (fun n c => 10 * n + (c.toNat - 48)) 0)
  else none

/-- The names of the months. -/
def months : List String :=
  ["Jan", "Feb", "Mar", "Apr", "May", "Jun", "Jul", "Aug", "Sep", "Oct", "Nov", "Dec"]

/-- The moment that a date names in the form of the standard: weekday, day, month, year and time. -/
def moment? (s : String) : Option Int :=
  match s.splitOn " " with
  | [_, day, month, year, clock, "GMT"] =>
    match clock.splitOn ":" with
    | [hour, minute, second] => do
      let days := Calendar.dayNumber (← number? year) ((← months.idxOf? month) + 1) (← number? day)
      return 1000 * (86400 * days + 3600 * (← number? hour) + 60 * (← number? minute) + (← number? second))
    | _ => none
  | _ => none

/-- The age of so many seconds after which a cookie ends; none is below zero. -/
def age? (s : String) : Option Nat :=
  match s.toList with
  | '-' :: digits => if digits.all Char.isDigit then some 0 else none
  | _ => number? s

/-- When a cookie ends that was set at a time: an age goes before a date. -/
def ending (attributes : List (String × Option String)) (now : Int) : Option Int :=
  match (attribute? attributes "max-age").bind age? with
  | some seconds => some (now + 1000 * seconds)
  | none => (attribute? attributes "expires").bind moment?

/-- The path of a cookie that names none: that of the message answered, without its last part. -/
def parent (path : String) : String :=
  match (path.toList.reverse.dropWhile (· != '/')).drop 1 with
  | [] => "/"
  | cs => String.ofList cs.reverse

/-- The cookie that a line of an answer sets, where `path` is that of the message answered. A line
    without a name sets none. -/
def read? (path : String) (now : Int) (line : String) : Option Cookie :=
  match line.splitOn ";" with
  | [] => none
  | first :: rest =>
    let attributes := rest.map sides
    match sides first with
    | (name, some value) =>
      if name.isEmpty then none
      else
        let named := (attribute? attributes "path").filter (·.startsWith "/")
        some ⟨name, value, named.getD (parent path), ending attributes now⟩
    | (_, none) => none

/-- Whether a cookie is still sent at a time. -/
def lasts (c : Cookie) (now : Int) : Bool := c.ends.all (now < ·)

/-- Whether a cookie goes with messages to a path. -/
def covers (c : Cookie) (path : String) : Bool :=
  match c.path.toList.isPrefixOf path.toList, path.toList.drop c.path.length with
  | true, [] => true
  | true, next :: _ => next == '/' || c.path.endsWith "/"
  | false, _ => false

/-- The text that is sent. -/
def text (c : Cookie) : String := c.name ++ "=" ++ c.value

end Cookie

/-- The cookies of a session. -/
structure Jar where
  cookies : List Cookie
deriving DecidableEq, Repr, Inhabited

namespace Jar

/-- No cookie was set. -/
def empty : Jar := ⟨[]⟩

/-- A cookie is set in place of the one with its name and path; one that does not last is only taken
    out. -/
def put (jar : Jar) (now : Int) (c : Cookie) : Jar :=
  let others := jar.cookies.filter fun d => !(d.name == c.name && d.path == c.path)
  ⟨if c.lasts now then others ++ [c] else others⟩

/-- The lines of an answer to a message to a path set their cookies. -/
def putAll (jar : Jar) (path : String) (now : Int) (lines : List String) : Jar :=
  (lines.filterMap (Cookie.read? path now)).foldl (·.put now) jar

/-- What is sent along with a message to a path. -/
def sent (jar : Jar) (path : String) (now : Int) : List String :=
  (jar.cookies.filter fun c => c.lasts now && c.covers path).map Cookie.text

end Jar

end ExchangeLoad.Http
