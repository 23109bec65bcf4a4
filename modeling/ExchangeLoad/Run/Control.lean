import ExchangeLoad.Run.Tasks

/-!
Calls of the controller: the start, and one call for every tick. Each holds the controller from its
first stretch to its end, so that calls do not overlap; a call that is given up lets the next one on.

A tick starts the earliest registered investor that has not been started, collects the work of all
that are signed in, and raises the level for as long as the score it found allows and the errors do
not forbid it. Raising the level brings a batch of investors, to be enrolled by tasks.
-/

namespace ExchangeLoad.Run

/-- A call is over: it frees the controller. What it hands out goes to its caller, who submits it at
    once if it is the timed loop. -/
def endControl (r : Run) (c : Nat) (result : Except RunError (List Task)) : Run :=
  let driven := (r.controls[c]?).elim false Control.driven
  let r := { r with line := r.line.erase c }.withStand c (.ended result)
  match result with
  | .error _ => r
  | .ok tasks => if driven then r.submitAll tasks else { r with held := r.held ++ tasks }

/-- A call is made, and stands in line for the controller. -/
def enter (r : Run) (command : Command) (driven : Bool) : Run :=
  { r with
    controls := r.controls.push ⟨command, driven, none, none, .queued⟩
    line := r.line ++ [r.controls.size] }

/-- A call waits for an identity. -/
def awaitIdentity (r : Run) (c : Nat) (stand : Nat → Stand) : Run :=
  let (pipeline, ticket) := r.pipeline.join
  { r with pipeline }.withStand c (stand ticket)

/-- The start goes on to a founding slot, or is over after the last. -/
def toSlot (r : Run) (scene : Scene) (c slot : Nat) (tasks : List Task) : Run :=
  if slot < scene.settings.workers then r.awaitIdentity c (.founding slot · tasks)
  else r.endControl c (.ok tasks)

/-- Whether a tick that found a score raises the level: the score is enough to leave the level, and no
    more errors have been counted than the least error limit. -/
def mayRise (r : Run) (score : Int) : Bool :=
  requiredScore r.level ≤ score && r.tracker.errors ≤ r.tracker.floor

/-- A tick looks at the level: it is over, or raises the level and goes on to the first slot of the
    batch that the level brings. An ascent by empty batches waits for nothing between its looks, and at
    the largest score it never ends. It is cut here at each look all the same, so that the endless one has
    steps as well. What is given up is that the looks of such an ascent follow each other at once: here
    others may get in between, time may not. Only settings without workers have empty batches, and
    no configuration that is accepted has none. -/
def weigh (r : Run) (scene : Scene) (c : Nat) (climb : Climb) : Run :=
  let rose := if r.mayRise climb.score then some r.marketPrice else none
  let r := { r with
    weighings := r.weighings.push ⟨c, r.level, climb.score, r.tracker.errors, rose⟩ }
  match rose with
  | none => r.endControl c (.ok climb.tasks)
  | some price =>
    let climb := { climb with price }
    let r := { r with level := r.level + 1 }
    if scene.settings.workers = 0 then r.withStand c (.weighing climb)
    else r.awaitIdentity c (.raising climb 0)

/-- Starts the investor with a number; the work that it hands out. -/
def startInvestor (r : Run) (i : Nat) : Run × List Task :=
  match r.investors[i]? with
  | none => (r, [])
  | some v =>
    let (v, task) := v.start i
    ({ r with starts := r.starts.push i }.withInvestor i v, [task])

/-- Starts the earliest registered investor that has not been started. -/
def startFirst (r : Run) : Run × List Task :=
  (r.registry.firstNotStarted? r.life).elim (r, []) r.startInvestor

/-- Collects the work of the investor with a number. -/
def collectFrom (scene : Scene) (rt : Run × List Task) (i : Nat) : Run × List Task :=
  match rt.1.investors[i]? with
  | none => rt
  | some v =>
    match v.next i (scene.draw rt.1.drawn) with
    | none => rt
    | some (w, task) =>
      let r := rt.1.withInvestor i w
      ({ r with drawn := if v.draws then r.drawn + 1 else r.drawn }, rt.2 ++ [task])

/-- Collects the work of all investors that are signed in, in the order of the registry. -/
def collectAll (r : Run) (scene : Scene) : Run × List Task :=
  (r.registry.signedIn r.life).foldl (collectFrom scene) (r, [])

/-- The first stretch of a tick. -/
def beginTick (r : Run) (scene : Scene) (c : Nat) : Run :=
  let (r, started) := r.startFirst
  let (r, collected) := r.collectAll scene
  let outset : Outset := ⟨r.tracker.score, started ++ collected⟩
  let r := { r with controls := r.controls.modify c fun x => { x with outset := some outset } }
  r.weigh scene c ⟨outset.score, 0, outset.tasks⟩

/-- The first stretch of the start; `made` tells why no client could be created, if none could. -/
def beginStart (r : Run) (scene : Scene) (c : Nat) (made : Option Fault) : Run :=
  match made with
  | some why => r.endControl c (.error (.bootstrap why.chain))
  | none =>
    let guest := (Client.fresh scene.settings.app .guest scene.settings.init).ask
      (.boot scene.settings.bootstrap)
    { r with
      guests := r.guests.push guest
      sessions := r.sessions.push (.guest r.guests.size)
      controls := r.controls.modify c fun x => { x with guest := some r.guests.size } }.withStand c
        (.booting r.guests.size)

/-- The call at the head of the line gets the controller. -/
def proceed (r : Run) (scene : Scene) (c : Nat) (made : Option Fault) : Option Run := do
  let x ← r.controls[c]?
  match x.stand with
  | .queued =>
    if r.line.head? = some c then
      match x.command with
      | .start => some (r.beginStart scene c made)
      | .tick => some (r.beginTick scene c)
    else none
  | _ => none

/-- The exchange answers the guest that is to make it ready. -/
def booted (r : Run) (scene : Scene) (c : Nat) (reply : Reply) : Option Run := do
  let x ← r.controls[c]?
  match x.stand with
  | .booting guest => do
    let request := Request.boot scene.settings.bootstrap
    let heard := { r with guests := r.guests.modify guest (·.hear request reply) }
    match reply with
    | .done => return heard.toSlot scene c 0 []
    | .failed why => return heard.endControl c (.error (.bootstrap why.chain))
    | _ => none
  | _ => none

/-- Creates the client of a new investor and builds the investor around it, unless no client could be
    created. -/
def build (r : Run) (scene : Scene) (id : Identity) (params : Params) (origin : Origin)
    (made : Option Fault) : Run × Except Fault Nat :=
  let credentials := Credentials.investor id (scene.displayName r.named) (scene.secret r.named)
  let r := { r with named := r.named + 1 }
  match made with
  | some why => (r, .error why)
  | none =>
    let client := Client.fresh scene.settings.app credentials scene.settings.client
    let number := r.investors.size
    ({ r with
        investors := r.investors.push (.fresh client params (scene.manner number params))
        origins := r.origins.push origin
        sessions := r.sessions.push (.investor number) }, .ok number)

/-- An identity is there for the investor of a founding slot, whose credit is deposited next. -/
def fund (r : Run) (scene : Scene) (c slot : Nat) (tasks : List Task) (id : Identity)
    (made : Option Fault) : Run :=
  match r.build scene id (Batch.founding slot) (.founding c slot) made with
  | (r, .error why) => r.endControl c (.error (.provisioning why.chain))
  | (r, .ok i) =>
    { r with deposits := r.deposits.push ⟨r.identity i, (Batch.founding slot).credit, none⟩ }.withStand
      c (.funding slot i r.deposits.size tasks)

/-- An identity is there for the investor of a slot of the batch that the level brings. -/
def recruit (r : Run) (scene : Scene) (c slot : Nat) (climb : Climb) (id : Identity)
    (made : Option Fault) : Run :=
  let params := Batch.rising r.level climb.price slot
  match r.build scene id params (.rising c r.level climb.price slot) made with
  | (r, .error why) => r.endControl c (.error (.provisioning why.chain))
  | (r, .ok i) =>
    let climb := { climb with tasks := climb.tasks ++ [.enrol i params.credit] }
    if slot + 1 < scene.settings.workers then r.awaitIdentity c (.raising climb (slot + 1))
    else r.weigh scene c climb

/-- What a call is told that finds the pipeline closed. -/
def noIdentity : RunError :=
  .provisioning ("no identity available: " ++ RunError.pipelineClosed.message)

/-- The pipeline answers a call that waits for an identity. -/
def provide (r : Run) (scene : Scene) (c : Nat) (made : Option Fault) : Option Run := do
  let x ← r.controls[c]?
  match x.stand with
  | .founding slot ticket tasks => do
    let (pipeline, id) ← r.pipeline.take ticket
    let r := { r with pipeline }
    match id with
    | some id => return r.fund scene c slot tasks id made
    | none => return r.endControl c (.error noIdentity)
  | .raising climb slot ticket => do
    let (pipeline, id) ← r.pipeline.take ticket
    let r := { r with pipeline }
    match id with
    | some id => return r.recruit scene c slot climb id made
    | none => return r.endControl c (.error noIdentity)
  | _ => none

/-- The deposit for the investor of a founding slot is decided; whatever became of it, the investor is
    registered and started. -/
def funded (r : Run) (scene : Scene) (c : Nat) (accepted : Bool) : Option Run := do
  let x ← r.controls[c]?
  match x.stand with
  | .funding slot i deposit tasks => do
    let r := r.settleDeposit deposit accepted
    let (r, started) := { r with registry := r.registry.add i }.startInvestor i
    return r.toSlot scene c (slot + 1) (tasks ++ started)
  | _ => none

/-- A tick that raised the level by an empty batch looks at the score again, in a step of its own: see
    `weigh` for what this gives up. -/
def weighAgain (r : Run) (scene : Scene) (c : Nat) : Option Run := do
  let x ← r.controls[c]?
  match x.stand with
  | .weighing climb => some (r.weigh scene c climb)
  | _ => none

/-- The ticket that a call waits with for an identity. -/
def ticketOf : Stand → Option Nat
  | .founding _ ticket _ => some ticket
  | .raising _ _ ticket => some ticket
  | _ => none

/-- A call is given up: it leaves every line it stands in, and what it did stays done. -/
def giveUp (r : Run) (c : Nat) : Option Run := do
  let x ← r.controls[c]?
  match x.stand with
  | .ended _ => none
  | .dropped => none
  | stand =>
    let pipeline := (ticketOf stand).elim r.pipeline r.pipeline.leave
    return { r with pipeline, line := r.line.erase c }.withStand c .dropped

end ExchangeLoad.Run
