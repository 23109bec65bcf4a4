import ExchangeLoad.Investor.Basic

/-!
The jobs of a trader, cut where they wait for an answer. Each stretch between two waits is one
function, which tells what the job waits for next or how it ended, and what it earned.

Signing up and signing in earn one point each, a look at the market earns one, and an accepted order
five. A job whose run has been aborted signs nobody up and places no order.
-/

namespace ExchangeLoad

/-- The answer that a trader's job waits for. -/
inductive Point where
  | signingUp
  | signingIn
  /-- What is new in the market since a cursor, in order to place an order near `price`. -/
  | asking (price cursor : Int)
  | ordering (price : Int)
deriving DecidableEq, Repr, Inhabited

namespace Point

/-- What a failure at a point of a job is told as. -/
def context (kind : OrderKind) : Point → String
  | signingUp => "signup failed"
  | signingIn => "signin failed"
  | asking .. => "info failed"
  | ordering _ => kind.text ++ " order failed"

/-- Whether a point belongs to a trade. -/
def trades : Point → Bool
  | asking .. => true
  | ordering _ => true
  | _ => false

end Point

/-- How far a stretch brought a job. -/
inductive Progress where
  | waits (point : Point)
  | ended (failure : Option Fault)
deriving DecidableEq, Repr, Inhabited

/-- Keeps an order from crossing the book at a worse price than needed: nobody buys above the lowest
    ask or sells below the highest bid. -/
def bookPrice (kind : OrderKind) (price : Int) (m : Market) : Int :=
  match kind with
  | .buy => m.lowestAsk.elim price (min price)
  | .sell => m.highestBid.elim price (max price)

namespace Investor

/-- Where the trader's next look at the market starts. -/
def cursor (v : Investor) : Int :=
  match v.manner with
  | .trader _ _ cursor => cursor
  | .scripted _ => 0

/-- What a trader asks for at a point of its job. -/
def request (v : Investor) : Point → Request
  | .signingUp => .signUp
  | .signingIn => .signIn
  | .asking _ cursor => .info cursor
  | .ordering price => .order v.params.kind.orderKind v.params.unit price

/-- Asks for what a point of the job waits for. -/
def askAt (v : Investor) (p : Point) : Investor × Progress :=
  ({ v with client := v.client.ask (v.request p) }, .waits p)

/-- The trader after a trade of its own came to an end, however it did. -/
def free (v : Investor) : Investor :=
  match v.manner with
  | .trader _ coins cursor => { v with manner := .trader false coins cursor }
  | .scripted _ => v

/-- The trader after an answer about the market. -/
def learn (v : Investor) (m : Market) : Investor :=
  match v.manner with
  | .trader busy coins _ =>
    { v with manner := .trader busy coins m.cursor, price := m.latest?.getD v.price }
  | .scripted _ => v

/-- The trader after an order was accepted: what is sold is gone. -/
def settle (v : Investor) : Investor :=
  match v.manner, v.params.kind with
  | .trader busy coins cursor, .coinHeavy =>
    { v with manner := .trader busy (Word.wrap (coins - v.params.unit)) cursor }
  | _, _ => v

/-- The first stretch of signing in. -/
def beginSignIn (v : Investor) (aborted : Bool) : Investor × Progress :=
  if aborted then (v, .ended none) else v.askAt .signingUp

/-- The first stretch of a trade near a price. -/
def beginTrade (v : Investor) (price : Int) : Investor × Progress := v.askAt (.asking price v.cursor)

/-- The stretch of a job after an answer: the trader, the points earned, and how far it came. There
    is none for an answer to something else. -/
def resume (v : Investor) (p : Point) (reply : Reply) (aborted : Bool) :
    Option (Investor × Int × Progress) :=
  let heard := { v with client := v.client.hear (v.request p) reply }
  match p, reply with
  | _, .failed why =>
    let after := if p.trades then heard.free else heard
    some (after, 0, .ended (some (why.within (p.context v.params.kind.orderKind))))
  | .signingUp, .done =>
    let (after, progress) := heard.askAt .signingIn
    some (after, 1, progress)
  | .signingIn, .done => some ({ heard with stage := .signedIn }, 1, .ended none)
  | .asking price _, .market m =>
    let learnt := heard.learn m
    if aborted then some (learnt.free, 1, .ended none)
    else
      let (after, progress) := learnt.askAt (.ordering (bookPrice v.params.kind.orderKind price m))
      some (after, 1, progress)
  | .ordering _, .placed _ => some (heard.settle.free, 5, .ended none)
  | _, _ => none

end Investor

end ExchangeLoad
