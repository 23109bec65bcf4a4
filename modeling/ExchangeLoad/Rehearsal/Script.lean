import ExchangeLoad.Client
import ExchangeLoad.Investor.Basic

/-!
What the bank, the exchange and scripted investors do in a rehearsal.
-/

namespace ExchangeLoad

/-- Numbers for which something is to happen. -/
inductive Picks where
  | listed (numbers : List Nat)
  | every
deriving DecidableEq, Repr, Inhabited

/-- Whether something is to happen for a number. -/
def Picks.has : Picks → Nat → Bool
  | listed numbers, n => numbers.contains n
  | every, _ => true

/-- What the bank does. -/
structure BankScript where
  /-- How long a registration takes, in milliseconds; it is decided at once where nothing is said. -/
  delay : Option Nat
  /-- The registrations that fail, by their number. -/
  reject : Picks
  /-- How many registrations succeed at most. -/
  accept : Option Nat
  /-- The deposits that fail, by their number. -/
  depositFail : Picks
deriving DecidableEq, Repr, Inhabited

/-- Whether the registration with a number succeeds, after so many that did. -/
def BankScript.accepts (b : BankScript) (number succeeded : Nat) : Bool :=
  !b.reject.has number && b.accept.all (succeeded < ·)

/-- The word for a kind of request. -/
def Request.kind : Request → String
  | .boot _ => "initialize"
  | .signUp => "signup"
  | .signIn => "signin"
  | .info _ => "info"
  | .order .. => "order"

/-- What the exchange does. -/
structure ExchangeScript where
  /-- How many clients can be created. -/
  failFrom : Option Nat
  /-- The kinds of request that fail. -/
  fail : List String
  /-- The kind of request whose success retires its client. -/
  retireOn : Option String
  ask : Option Int
  bid : Option Int
  traded : List Int
  /-- The cursor that is answered; one more than the one given where nothing is said. -/
  cursor : Option Int
deriving DecidableEq, Repr, Inhabited

namespace ExchangeScript

/-- Why no further client can be created after so many, if none can. -/
def refusal (x : ExchangeScript) (created : Nat) : Option Fault :=
  match x.failFrom with
  | some n =>
    if n ≤ created then some ((Fault.plain "socket error").within "cookie jar exhausted") else none
  | none => none

/-- The answer to a request. -/
def reply (x : ExchangeScript) (request : Request) : Reply :=
  if x.fail.contains request.kind then .failed (.plain (request.kind ++ " refused"))
  else
    match request with
    | .info cursor => .market ⟨x.cursor.getD (Word.wrap (cursor + 1)), x.ask, x.bid, x.traded⟩
    | .order .. => .placed 1
    | _ => .done

/-- Whether the answer to a request retires the client. -/
def retires (x : ExchangeScript) (request : Request) : Bool :=
  !x.fail.contains request.kind && x.retireOn == some request.kind

end ExchangeScript

/-- What scripted investors do, by their number. -/
structure CastScript where
  startFail : Picks
  startScore : Int
  /-- Those that have nothing to do. -/
  idle : Picks
  nextFail : Picks
  nextScore : Int
  nextPrice : Option Int
  /-- Those that retire after their first work. -/
  nextRetire : Picks
  startDelay : Nat
  nextDelay : Nat
  /-- How much longer than the one before it each of them takes, in milliseconds. -/
  delayStep : Nat
deriving DecidableEq, Repr, Inhabited

/-- A script that does nothing but fail. -/
def Script.failing (why : String) : Script := ⟨none, false, 0, none, some why⟩

/-- A script that scores and changes its investor. -/
def Script.scoring (score : Int) (change : Change) : Script := ⟨none, false, score, some change, none⟩

/-- The part of the investor with a number. -/
def CastScript.part (c : CastScript) (number : Nat) : Part where
  start :=
    ⟨"fake-start", c.startDelay + number * c.delayStep,
      if c.startFail.has number then .failing "start failed"
      else .scoring c.startScore ⟨number, some .signedIn, none⟩⟩
  next :=
    if c.idle.has number then none
    else some ⟨"fake-next", c.nextDelay + number * c.delayStep,
      if c.nextFail.has number then .failing "next failed"
      else .scoring c.nextScore
        ⟨number, if c.nextRetire.has number then some .retired else none, c.nextPrice⟩⟩

/-- The part of an investor that never does anything. -/
def Part.still : Part := ⟨⟨"still", 0, default⟩, none⟩

end ExchangeLoad
