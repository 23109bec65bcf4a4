import ExchangeLoad.Run.Drive

/-!
The steps of a run. A step is one stretch of one activity, from one wait to the next, with the answer
that ended the wait. Any order of steps is a run: nothing here says which of the activities that can
go on goes on first. Time passes only while none of them can, and never beyond the moment for which
one of them waits.
-/

namespace ExchangeLoad.Run

/-- One stretch of one activity. -/
inductive Step where
  /-- Time passes. -/
  | wait (ms : Nat)
  /-- Somebody runs the producer of the pipeline. -/
  | produce
  /-- The bank decides on the registration under way. -/
  | decide (accepted : Bool)
  /-- The producer goes on after a pause, with room, or because it was cancelled. -/
  | wake
  | cancelProducer
  /-- The producer is ended where it is. -/
  | abandonProducer
  /-- Somebody outside the controller stands in line for an identity. -/
  | fetch
  /-- Somebody outside the controller is answered by the pipeline. -/
  | take (ticket : Nat)
  /-- Somebody outside the controller leaves the line. -/
  | leaveLine (ticket : Nat)
  | enter (command : Command)
  /-- A call gets the controller; `made` tells why its client could not be created. -/
  | proceed (c : Nat) (made : Option Fault)
  | booted (c : Nat) (reply : Reply)
  | provide (c : Nat) (made : Option Fault)
  | funded (c : Nat) (accepted : Bool)
  | weighAgain (c : Nat)
  | giveUp (c : Nat)
  /-- The task at a place among those held is submitted. -/
  | submit (place : Nat)
  /-- The task at a place among those held is executed while its caller waits. -/
  | execute (place : Nat)
  /-- The task at a place among those held is forgotten. -/
  | discard (place : Nat)
  | look (e : Nat)
  | elapse (e : Nat)
  | forgo (e : Nat)
  | hear (e : Nat) (reply : Reply)
  | finish (e : Nat)
  | stop (e : Nat)
  | enrol (e : Nat) (accepted : Bool)
  | abort
  /-- Somebody begins to wait for the tasks under way. -/
  | shutdown (grace : Nat)
  /-- Somebody who waits for the tasks under way is answered. -/
  | answer (k : Nat)
  | signal
  | drive
  | collect
  | tick
  | leave (cause : Cause)
  /-- The client of an investor retires. -/
  | retire (i : Nat)
  /-- The client of a guest retires. -/
  | retireGuest (i : Nat)
  /-- Somebody outside adds to the score. -/
  | score (delta : Int)
  /-- Somebody outside counts an error. -/
  | error
  /-- Somebody outside takes investors out of the registry. -/
  | remove (id : Identity)
  /-- Somebody outside changes a scripted investor. -/
  | alter (c : Change)
deriving Repr, Inhabited

/-- Hands over the task at a place among those held. -/
def handOver (r : Run) (place : Nat) (submitted : Bool) : Option Run := do
  let task ← r.held[place]?
  return { r with held := r.held.eraseIdx place }.launch task submitted

/-- Whether somebody who waits for the tasks under way could be answered: that all ended, or that they
    did not in time. -/
def answerable (r : Run) (x : Shutdown) : Bool :=
  x.answer.isNone && (r.inFlight = 0 || x.begun + x.grace ≤ r.now)

/-- Answers somebody who waits for the tasks under way. -/
def answerShutdown (r : Run) (k : Nat) : Option Run := do
  let x ← r.shutdowns[k]?
  if r.answerable x then
    return { r with
      shutdowns := r.shutdowns.modify k fun x => { x with answer := some (r.inFlight = 0, r.now) } }
  else none

/-- The moment for which somebody waits who waits for the tasks under way. -/
def shutdownMoment (x : Shutdown) : Option Nat :=
  if x.answer.isNone then some (x.begun + x.grace) else none

/-- Whether an execution could go on by itself. -/
def restless (r : Run) (e : Execution) : Bool :=
  match e.phase with
  | .waiting => true
  | .delayed wake => r.aborted || wake ≤ r.now
  | .working wake => (r.aborted && !e.stubborn) || wake ≤ r.now
  | _ => false

/-- Whether the call with a number could go on by itself. -/
def stirring (r : Run) (c : Nat) : Bool :=
  match (r.controls[c]?).map Control.stand with
  | some .queued => true
  | some (.founding _ ticket _) => r.pipeline.canTake ticket
  | some (.raising _ _ ticket) => r.pipeline.canTake ticket
  | some (.weighing _) => true
  | _ => false

/-- Whether the call with a number holds the controller and could go on by itself. -/
def stirs (r : Run) (c : Nat) : Bool := r.line.head? == some c && r.stirring c

/-- Whether the timed loop could go on by itself. -/
def ticking (r : Run) : Bool :=
  match r.loop with
  | .unstarted => false
  | .ended .. => false
  | .resting due => due ≤ r.now || r.deadline ≤ r.now || r.aborted || r.signalled
  | .starting c => (r.resultOf c).isSome || r.deadline ≤ r.now || r.aborted || r.signalled
  | .ticking c _ => (r.resultOf c).isSome || r.deadline ≤ r.now || r.aborted || r.signalled

/-- Whether nothing can go on before time passes or somebody outside answers. -/
def quiet (r : Run) : Bool :=
  !r.pipeline.canWake r.now && r.executions.all (!r.restless ·) &&
    r.shutdowns.all (!r.answerable ·) && (r.line.head?.all fun c => !r.stirring c) && !r.ticking

/-- The moments for which the timed loop waits. -/
def loopMoments (r : Run) : List Nat :=
  match r.loop with
  | .unstarted => []
  | .ended .. => []
  | .resting due => [due, r.deadline]
  | _ => [r.deadline]

/-- The moment for which the producer waits. -/
def producerMoment (r : Run) : Option Nat :=
  match r.pipeline.producer with
  | .pausing wake => some wake
  | _ => none

/-- The earlier of two moments, of which either may be missing. -/
def earlier : Option Nat → Option Nat → Option Nat
  | none, b => b
  | a, none => a
  | some a, some b => some (min a b)

/-- The next moment for which anything in the run waits. -/
def horizon (r : Run) : Option Nat :=
  let loop := r.loopMoments.foldl (fun a m => earlier a (some m)) none
  let shutdowns := r.shutdowns.foldl (fun a x => earlier a (shutdownMoment x)) none
  earlier (earlier loop r.producerMoment)
    (earlier shutdowns (r.executions.foldl (fun a e => earlier a e.moment) none))

/-- Time passes, unless something can go on now or waits for a moment before. -/
def wait (r : Run) (ms : Nat) : Option Run :=
  if r.quiet && r.horizon.all (r.now + ms ≤ ·) then some { r with now := r.now + ms } else none

/-- The run after a step; none where the activity cannot take it. -/
def step (scene : Scene) (r : Run) : Step → Option Run
  | .wait ms => r.wait ms
  | .produce => some { r with pipeline := r.pipeline.run scene.identity }
  | .decide accepted => do
    let pipeline ← r.pipeline.decide scene.identity accepted (r.now + scene.retryDelay)
    return { r with pipeline }
  | .wake => do
    let pipeline ← r.pipeline.wake scene.identity r.now
    return { r with pipeline }
  | .cancelProducer => some { r with pipeline := r.pipeline.cancel }
  | .abandonProducer => some { r with pipeline := r.pipeline.abandon }
  | .fetch => some { r with pipeline := r.pipeline.join.1 }
  | .take ticket =>
    if r.controls.any (ticketOf ·.stand = some ticket) then none
    else do
      let (pipeline, _) ← r.pipeline.take ticket
      return { r with pipeline }
  | .leaveLine ticket =>
    if r.controls.any (ticketOf ·.stand = some ticket) then none
    else some { r with pipeline := r.pipeline.leave ticket }
  | .enter command => some (r.enter command false)
  | .proceed c made => r.proceed scene c made
  | .booted c reply => r.booted scene c reply
  | .provide c made => r.provide scene c made
  | .funded c accepted => r.funded scene c accepted
  | .weighAgain c => r.weighAgain scene c
  | .giveUp c => r.giveUp c
  | .submit place => r.handOver place true
  | .execute place => r.handOver place false
  | .discard place =>
    if place < r.held.length then some { r with held := r.held.eraseIdx place } else none
  | .look e => r.look e
  | .elapse e => r.elapse e
  | .forgo e => r.forgo e
  | .hear e reply => r.hear e reply
  | .finish e => r.finish e
  | .stop e => r.stop e
  | .enrol e accepted => r.enrol e accepted
  | .abort => some { r with aborted := true }
  | .shutdown grace => some { r with shutdowns := r.shutdowns.push ⟨r.now, grace, none⟩ }
  | .answer k => r.answerShutdown k
  | .signal => some { r with signalled := true }
  | .drive => r.drive scene
  | .collect => r.collect
  | .tick => r.tick scene
  | .leave cause => r.leave cause
  | .retire i => (r.investors[i]?).map fun v => r.withInvestor i { v with client := v.client.retire }
  | .retireGuest i =>
    if i < r.guests.size then some { r with guests := r.guests.modify i Client.retire } else none
  | .score delta => some { r with tracker := r.tracker.addScore delta }
  | .error => some { r with tracker := r.tracker.countError }
  | .remove id => some { r with registry := (r.registry.remove r.identity id).1 }
  | .alter c => (r.investors[c.investor]?).map fun v => r.withInvestor c.investor (v.change c)

/-- The runs that a run can become. -/
inductive Reaches (scene : Scene) : Run → Run → Prop where
  | refl (r : Run) : Reaches scene r r
  | step {r s t : Run} (a : Step) : Reaches scene r s → step scene s a = some t → Reaches scene r t

end ExchangeLoad.Run
