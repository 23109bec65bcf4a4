import ExchangeLoad.Http.Form
import ExchangeLoad.Http.Status
import ExchangeLoad.RunError

/-!
Messages to a server and how they fare. A message may be answered, run out of time, or fail for
another reason before any answer; the body of an answer may break off.
-/

namespace ExchangeLoad.Http

/-- A message to a server. -/
structure Message where
  method : String
  url : String
  contentType : Option String
  /-- The cookies that are sent along. -/
  cookies : List String
  body : String
deriving DecidableEq, Repr, Inhabited

/-- The body of an answer. -/
inductive Body where
  | whole (text : String)
  /-- It broke off, or time ran out while it was read. -/
  | broken (outOfTime : Bool)
deriving DecidableEq, Repr, Inhabited

/-- The text of a body, empty where it broke off. -/
def Body.text : Body → String
  | whole text => text
  | broken _ => ""

/-- How a message fared, up to the head of the answer. -/
inductive Fate where
  /-- It failed before any answer, and not for want of time. -/
  | refused
  /-- Time ran out before any answer. -/
  | outOfTime
  /-- `setting` holds the lines that set cookies. -/
  | answered (status : Nat) (setting : List String) (body : Body)
deriving DecidableEq, Repr, Inhabited

/-- How a message fared, and how long that took up to the head of the answer, in milliseconds. -/
structure Delivery where
  fate : Fate
  elapsed : Nat
deriving DecidableEq, Repr, Inhabited

/-- An address without the slashes at its end. -/
def trimSlashes (s : String) : String :=
  String.ofList (s.toList.reverse.dropWhile (· = '/')).reverse

/-- What a status that means no success is told as. -/
def statusFault (server path : String) (status : Nat) (text : String) : Fault :=
  .plain (server ++ path ++ " returned " ++ statusText status ++ ": " ++ text)

end ExchangeLoad.Http
