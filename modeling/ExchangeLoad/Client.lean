import ExchangeLoad.Credentials
import ExchangeLoad.Json.Printer
import ExchangeLoad.Market
import ExchangeLoad.Params
import ExchangeLoad.RunError

/-!
Clients of the exchange as the rest of a run sees them: a client asks, some time later it is
answered, and once it has retired it stays so. Everything asked and every answer is kept, oldest
first.
-/

namespace ExchangeLoad

/-- What a client asks of the exchange. -/
inductive Request where
  /-- To be made ready for a run. -/
  | boot (b : Bootstrap)
  | signUp
  | signIn
  /-- What is new in the market since a cursor. -/
  | info (cursor : Int)
  | order (kind : OrderKind) (amount price : Int)
deriving DecidableEq, Repr, Inhabited

/-- What a client is told. -/
inductive Reply where
  | done
  | market (m : Market)
  /-- The number of an accepted order. -/
  | placed (order : Int)
  | failed (why : Fault)
deriving DecidableEq, Repr, Inhabited

namespace Request

/-- A request in one line. -/
def text : Request → String
  | boot b => "initialize:" ++ b.toJson.compact
  | signUp => "signup"
  | signIn => "signin"
  | info cursor => "info:" ++ toString cursor
  | order kind amount price => kind.text ++ ":" ++ toString amount ++ "@" ++ toString price

/-- Whether a reply is one that a request can be answered with. -/
def Admits : Request → Reply → Bool
  | _, .failed _ => true
  | boot _, .done => true
  | signUp, .done => true
  | signIn, .done => true
  | info _, .market _ => true
  | order .., .placed _ => true
  | _, _ => false

end Request

/-- A session with the exchange, owned by one investor or by the guest that makes the exchange ready. -/
structure Client where
  endpoint : String
  credentials : Credentials
  timeouts : Timeouts
  /-- It gave up on the exchange. -/
  retired : Bool
  /-- Everything asked so far. -/
  asked : Array Request
  /-- Every answer so far, with what it answers. -/
  answers : Array (Request × Reply)
deriving DecidableEq, Repr, Inhabited

namespace Client

/-- A client that has asked nothing. -/
def fresh (endpoint : String) (credentials : Credentials) (timeouts : Timeouts) : Client :=
  ⟨endpoint, credentials, timeouts, false, #[], #[]⟩

/-- The identity a client acts under; the empty one for a guest. -/
def identity (c : Client) : Identity := c.credentials.identity.getD ⟨""⟩

/-- The client after asking something. -/
def ask (c : Client) (request : Request) : Client := { c with asked := c.asked.push request }

/-- The client after an answer. -/
def hear (c : Client) (request : Request) (reply : Reply) : Client :=
  { c with answers := c.answers.push (request, reply) }

/-- The client after it gave up. -/
def retire (c : Client) : Client := { c with retired := true }

end Client

end ExchangeLoad
