import ExchangeLoad.Identity

/-!
Identities registered ahead of need. One producer registers a fresh identity at the bank and puts it
into a bounded buffer, again and again; callers who want an identity stand in line, and the first in
line takes the oldest from the buffer. Once the producer has stopped and the buffer is empty, the
pipeline is closed.

A producer looks for a cancellation between two registrations, while it waits for room, and while it
pauses after a registration that failed; a registration under way is always decided.
-/

namespace ExchangeLoad

/-- What the producer is doing. -/
inductive Producer where
  /-- Nobody has run it. -/
  | unstarted
  /-- The bank is to decide on an identity. -/
  | registering (id : Identity)
  /-- A registration failed; the next is tried at a time. -/
  | pausing (wake : Nat)
  /-- A registered identity waits for room in the buffer. -/
  | offering (id : Identity)
  | stopped
deriving DecidableEq, Repr, Inhabited

/-- The producer, the buffer, and the callers in line. -/
structure Pipeline where
  capacity : Nat
  producer : Producer
  /-- Identities to be taken, oldest first. -/
  buffer : List Identity
  cancelled : Bool
  /-- The tickets of the callers in line; the first holds the buffer's end. -/
  line : List Nat
  /-- How many tickets have been given out. -/
  tickets : Nat
  /-- How many identities have been drawn from the source. -/
  drawn : Nat
  /-- Every registration that was decided, and whether it succeeded, oldest first. -/
  decided : Array (Identity × Bool)
  /-- Every identity that was taken, with the ticket it went to, oldest first. -/
  granted : Array (Nat × Identity)
  /-- The tickets that were answered by the closing of the pipeline, oldest first. -/
  refused : Array Nat
deriving DecidableEq, Repr, Inhabited

namespace Pipeline

/-- A pipeline that nobody has run, on a source from which some identities were drawn before. -/
def fresh (capacity drawn : Nat) : Pipeline :=
  ⟨capacity, .unstarted, [], false, [], 0, drawn, #[], #[], #[]⟩

/-- How many identities the buffer holds at most: at least one. -/
def room (p : Pipeline) : Nat := max p.capacity 1

/-- Whether the buffer takes one more identity. -/
def hasRoom (p : Pipeline) : Bool := p.buffer.length < p.room

/-- The identities whose registration succeeded, oldest first. -/
def registered (p : Pipeline) : List Identity :=
  (p.decided.toList.filter (·.2)).map (·.1)

/-- The identities that were taken, oldest first. -/
def taken (p : Pipeline) : List Identity := p.granted.toList.map (·.2)

/-- The producer between two registrations: it stops if it was cancelled, and otherwise sends the next
    identity of the source to the bank. -/
def proceed (p : Pipeline) (source : Nat → Identity) : Pipeline :=
  if p.cancelled then { p with producer := .stopped }
  else { p with producer := .registering (source p.drawn), drawn := p.drawn + 1 }

/-- The producer is run; only the first time does anything. -/
def run (p : Pipeline) (source : Nat → Identity) : Pipeline :=
  match p.producer with
  | .unstarted => p.proceed source
  | _ => p

/-- Puts a registered identity into the buffer, unless the producer was cancelled meanwhile or there
    is no room. -/
def offer (p : Pipeline) (source : Nat → Identity) (id : Identity) : Pipeline :=
  if p.cancelled then { p with producer := .stopped }
  else if p.hasRoom then { p with buffer := p.buffer ++ [id] }.proceed source
  else { p with producer := .offering id }

/-- The bank decides on the registration under way; `pause` is when the next is tried if it fails. -/
def decide (p : Pipeline) (source : Nat → Identity) (accepted : Bool) (pause : Nat) :
    Option Pipeline :=
  match p.producer with
  | .registering id =>
    let p := { p with decided := p.decided.push (id, accepted) }
    if accepted then some (p.offer source id)
    else if p.cancelled then some { p with producer := .stopped }
    else some { p with producer := .pausing pause }
  | _ => none

/-- Whether a producer that waits could go on. -/
def canWake (p : Pipeline) (now : Nat) : Bool :=
  match p.producer with
  | .pausing wake => p.cancelled || wake ≤ now
  | .offering _ => p.cancelled || p.hasRoom
  | _ => false

/-- A producer that waits goes on. -/
def wake (p : Pipeline) (source : Nat → Identity) (now : Nat) : Option Pipeline :=
  if p.canWake now then
    match p.producer with
    | .pausing _ => some (p.proceed source)
    | .offering id => some (p.offer source id)
    | _ => none
  else none

/-- Asks the producer to stop. -/
def cancel (p : Pipeline) : Pipeline := { p with cancelled := true }

/-- Ends the producer where it is. -/
def abandon (p : Pipeline) : Pipeline :=
  match p.producer with
  | .unstarted => p
  | _ => { p with producer := .stopped }

/-- A caller stands in line, and is given a ticket. -/
def join (p : Pipeline) : Pipeline × Nat :=
  ({ p with line := p.line ++ [p.tickets], tickets := p.tickets + 1 }, p.tickets)

/-- A caller leaves the line. -/
def leave (p : Pipeline) (ticket : Nat) : Pipeline := { p with line := p.line.erase ticket }

/-- No identity will be handed out any more. -/
def closed (p : Pipeline) : Bool := p.producer == .stopped && p.buffer.isEmpty

/-- Whether a caller would be answered now. -/
def canTake (p : Pipeline) (ticket : Nat) : Bool :=
  p.line.head? == some ticket && (!p.buffer.isEmpty || p.closed)

/-- Answers the first caller in line: with the oldest identity, or with none where the pipeline is
    closed. -/
def take (p : Pipeline) (ticket : Nat) : Option (Pipeline × Option Identity) :=
  if p.line.head? = some ticket then
    match p.buffer with
    | id :: rest =>
      some ({ p with buffer := rest, line := p.line.tail, granted := p.granted.push (ticket, id) },
        some id)
    | [] =>
      if p.producer = .stopped then
        some ({ p with line := p.line.tail, refused := p.refused.push ticket }, none)
      else none
  else none

end Pipeline

end ExchangeLoad
