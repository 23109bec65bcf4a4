import ExchangeLoad.Client
import ExchangeLoad.Lifecycle
import ExchangeLoad.Task
import ExchangeLoad.Word

/-!
Investors: participants that hand out work when they are started and on every tick. A trader signs
up and in, and then places one order at a time near its base price: buyers buy, sellers sell until
their coins run out. A scripted investor hands out the work that its part says.
-/

namespace ExchangeLoad

/-- What is drawn at random for one trade. -/
structure Draw where
  /-- The pause before it, in milliseconds. -/
  pause : Fin 501
  /-- How far the price lies above the lowest one that is near the base price. -/
  shift : Fin 5
deriving DecidableEq, Repr, Inhabited

/-- The price drawn around a base price: at most two away from it, and never below one. The sum is one of
    counters, and wraps around at the ends of their range. -/
def Draw.price (d : Draw) (base : Int) : Int := max (Word.wrap (base + ((d.shift.val : Int) - 2))) 1

/-- A task that a part hands out. -/
structure Cue where
  label : String
  /-- In milliseconds. -/
  delay : Nat
  script : Script
deriving DecidableEq, Repr, Inhabited

/-- What a scripted investor hands out: on its start, and on every tick while it is signed in. -/
structure Part where
  start : Cue
  next : Option Cue
deriving DecidableEq, Repr, Inhabited

/-- How an investor goes about things. -/
inductive Manner where
  /-- `busy` while a trade is handed out, `coins` not yet sold, `cursor` for the next look at the
      market. -/
  | trader (busy : Bool) (coins cursor : Int)
  | scripted (part : Part)
deriving DecidableEq, Repr, Inhabited

/-- How a trader with given parameters begins. -/
def Manner.newTrader (params : Params) : Manner := .trader false params.coins 0

/-- A participant. -/
structure Investor where
  client : Client
  params : Params
  /-- How far in life it got, whatever became of its client. -/
  stage : Lifecycle
  /-- The price of the latest trade it saw; zero before the first. -/
  price : Int
  manner : Manner
deriving DecidableEq, Repr, Inhabited

namespace Investor

/-- An investor that has not been started. -/
def fresh (client : Client) (params : Params) (manner : Manner) : Investor :=
  ⟨client, params, .notStarted, 0, manner⟩

/-- The identity of an investor is that of its client. -/
def identity (v : Investor) : Identity := v.client.identity

/-- The credit deposited for an investor. -/
def credit (v : Investor) : Int := v.params.credit

/-- Where an investor is in its life; a trader has retired when its client has. -/
def life (v : Investor) : Lifecycle :=
  match v.manner with
  | .trader .. => if v.client.retired then .retired else v.stage
  | .scripted _ => v.stage

/-- The coins an investor has not sold. -/
def coins (v : Investor) : Int :=
  match v.manner with
  | .trader _ coins _ => coins
  | .scripted _ => v.params.coins

/-- Whether an investor has what its next order takes. -/
def hasStock (v : Investor) : Bool :=
  match v.params.kind with
  | .creditHeavy => true
  | .coinHeavy => v.params.unit ≤ v.coins

/-- Starts the investor with a number: it counts as started, and its sign-in work is handed out. -/
def start (v : Investor) (number : Nat) : Investor × Task :=
  ({ v with stage := .started },
    match v.manner with
    | .trader .. => .exec "sign-in" 0 (.signIn number)
    | .scripted part => .exec part.start.label part.start.delay (.scripted part.start.script))

/-- The work of the investor with a number for one tick, if it has any. A trader has none before it
    is signed in, without stock, and while a trade of its own is handed out. -/
def next (v : Investor) (number : Nat) (draw : Draw) : Option (Investor × Task) :=
  match v.manner with
  | .trader busy coins cursor =>
    if v.life = .signedIn ∧ v.hasStock ∧ ¬busy then
      some ({ v with manner := .trader true coins cursor },
        .exec "trade" draw.pause.val (.trade number (draw.price v.params.base)))
    else none
  | .scripted part =>
    if v.life = .signedIn then
      part.next.map fun cue => (v, .exec cue.label cue.delay (.scripted cue.script))
    else none

/-- Whether handing out work uses up a draw. -/
def draws (v : Investor) : Bool :=
  match v.manner with
  | .trader .. => true
  | .scripted _ => false

/-- The investor after a scripted job changed it. -/
def change (v : Investor) (c : Change) : Investor :=
  { v with stage := c.life.getD v.stage, price := c.price.getD v.price }

end Investor

end ExchangeLoad
