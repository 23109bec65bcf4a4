import ExchangeLoad.Client
import ExchangeLoad.Http.Cookie
import ExchangeLoad.Http.Message
import ExchangeLoad.Json.Decode
import ExchangeLoad.Json.Parser

/-!
Clients that talk to the exchange in forms and read documents. A message that runs out of time before
its answer, or takes as long as the retire timeout, retires the client for good; the body of an answer
has no part in that. Cookies that an answer sets are sent along from then on, whatever its status.
-/

namespace ExchangeLoad

namespace Market

/-- The keys of the document about the market, in order. -/
def keys : List String := ["cursor", "lowest_sell_price", "highest_buy_price", "traded_orders"]

/-- A number that may be missing or null. -/
def quote? : Option Json → Option (Option Int)
  | none => some none
  | some .null => some none
  | some v => v.word?.map some

/-- The price in the document of a trade. -/
def tradePrice? (v : Json) : Option Int := do
  match ← v.record? ["price"] with
  | [some price] => price.word?
  | _ => none

/-- The price at which an order traded, none inside for an order that did not. -/
def orderPrice? (v : Json) : Option (Option Int) := do
  match ← v.record? ["trade"] with
  | [none] => return none
  | [some .null] => return none
  | [some trade] => return some (← tradePrice? trade)
  | _ => none

/-- The prices of the orders in a list that traded, in order. -/
def tradedPrices? : Option Json → Option (List Int)
  | none => some []
  | some (.arr orders) => (orders.mapM orderPrice?).map fun prices => prices.filterMap id
  | some _ => none

/-- The market that a document describes: a missing cursor is zero, a missing or null quote is none,
    and missing orders are no orders. -/
def ofJson? (v : Json) : Option Market := do
  match ← v.record? keys with
  | [cursor, ask, bid, orders] =>
    return ⟨← cursor.elim (some 0) Json.word?, ← quote? ask, ← quote? bid, ← tradedPrices? orders⟩
  | _ => none

end Market

namespace Http

/-- The number of an accepted order in a document. -/
def orderNumber? (v : Json) : Option Int := do
  match ← v.record? ["id"] with
  | [some id] => id.word?
  | _ => none

/-- A session with the exchange. -/
structure Session where
  base : String
  credentials : Credentials
  /-- A message that takes this long retires the client, in milliseconds. -/
  retireAfter : Nat
  retired : Bool
  jar : Jar
deriving DecidableEq, Repr, Inhabited

namespace Session

/-- A session in which nothing was asked. -/
def fresh (endpoint : String) (credentials : Credentials) (timeouts : Timeouts) : Session :=
  ⟨trimSlashes endpoint, credentials, timeouts.retire, false, .empty⟩

/-- The path that a request goes to. -/
def path : Request → String
  | .boot _ => "/initialize"
  | .signUp => "/signup"
  | .signIn => "/signin"
  | .info _ => "/info"
  | .order .. => "/orders"

/-- The address of a request, without what is asked of it. -/
def url (s : Session) (request : Request) : String := s.base ++ path request

/-- The path that cookies for a request go by: what stands behind the server's name. -/
def cookiePath (s : Session) (request : Request) : String :=
  let named := "://".intercalate (((s.url request).splitOn "://").drop 1)
  String.ofList ((named.toList.dropWhile (· != '/')).takeWhile fun c => c != '?' && c != '#')

/-- The cookies that go with a request at a time. -/
def cookies (s : Session) (now : Int) (request : Request) : List String :=
  s.jar.sent (s.cookiePath request) now

/-- A message that carries a form. -/
def post (s : Session) (now : Int) (request : Request) (fields : List (String × String)) : Message :=
  ⟨"POST", s.url request, some "application/x-www-form-urlencoded", s.cookies now request, form fields⟩

/-- What is said when a guest is to sign up or in. -/
def noIdentity : Fault := .plain "Guest client has no identity"

/-- The message that a request is sent as at a time; a guest cannot sign up or in. -/
def message (s : Session) (now : Int) (request : Request) : Except Fault Message :=
  match request with
  | .boot b =>
    .ok (s.post now request [("bank_endpoint", b.bankEndpoint), ("bank_appid", b.bankAppId),
      ("log_endpoint", b.logEndpoint), ("log_appid", b.logAppId)])
  | .signUp =>
    match s.credentials.identity with
    | some id =>
      .ok (s.post now request [("name", s.credentials.displayName), ("bank_id", id.token),
        ("password", s.credentials.secret)])
    | none => .error noIdentity
  | .signIn =>
    match s.credentials.identity with
    | some id => .ok (s.post now request [("bank_id", id.token), ("password", s.credentials.secret)])
    | none => .error noIdentity
  | .info cursor =>
    .ok ⟨"GET", s.url request ++ "?cursor=" ++ toString cursor, none, s.cookies now request, ""⟩
  | .order kind amount price =>
    .ok (s.post now request [("type", kind.text), ("amount", toString amount), ("price", toString price)])

/-- Whether a delivery retires the client. -/
def tooSlow (s : Session) (d : Delivery) : Bool := d.fate == .outOfTime || s.retireAfter ≤ d.elapsed

/-- The document in a body, if it is whole and holds one. -/
def document? : Body → Option Json
  | .whole text => Json.parse text
  | .broken _ => none

/-- What an answer that means success says about a request. -/
def read (request : Request) (body : Body) : Reply :=
  match request with
  | .info _ =>
    match (document? body).bind Market.ofJson? with
    | some m => .market m
    | none => .failed (.plain "Failed to parse /info response")
  | .order .. =>
    match (document? body).bind orderNumber? with
    | some id => .placed id
    | none => .failed (.plain "Failed to parse /orders response")
  | _ => .done

/-- What a delivery means for a request. -/
def reply (request : Request) (d : Delivery) : Reply :=
  match d.fate with
  | .answered status _ body =>
    if isSuccess status then read request body
    else .failed (statusFault "" (path request) status body.text)
  | _ => .failed (.plain ("Request to " ++ path request ++ " failed"))

/-- The cookies after a delivery of a request that was sent at a time. -/
def keep (s : Session) (now : Int) (request : Request) (d : Delivery) : Jar :=
  match d.fate with
  | .answered _ setting _ => s.jar.putAll (s.cookiePath request) (now + d.elapsed) setting
  | _ => s.jar

/-- The session after a delivery of a request that was sent at a time. -/
def deliver (s : Session) (now : Int) (request : Request) (d : Delivery) : Session :=
  { s with retired := s.retired || s.tooSlow d, jar := s.keep now request d }

/-- Asks something at a time: `send` tells how the message fares. A request that cannot be sent leaves
    the session as it is. -/
def ask (s : Session) (now : Int) (request : Request) (send : Message → Delivery) : Session × Reply :=
  match s.message now request with
  | .error why => (s, .failed why)
  | .ok m => (s.deliver now request (send m), reply request (send m))

end Session

end Http

end ExchangeLoad
