import ExchangeLoad.Rehearsal.Stage

/-!
What somebody can wait for in the foreground of a rehearsal, and how the stage performs it: calls of
the controller, a task, the draining of the executor, identities, the producer, the timed loop, or
time alone.
-/

namespace ExchangeLoad

/-- What somebody waits for; `due` is when they give up. -/
inductive Foreground where
  | time (due : Nat)
  | calls (cs : List Nat) (due : Nat)
  | execution (e : Nat)
  | shutdown (k due : Nat)
  | identities (tickets : List Nat) (due : Nat)
  | producer (due : Nat)
  | loop
deriving DecidableEq, Repr, Inhabited

namespace Foreground

/-- When somebody gives up waiting. -/
def due : Foreground → Option Nat
  | time due => some due
  | calls _ due => some due
  | execution _ => none
  | shutdown _ due => some due
  | identities _ due => some due
  | producer due => some due
  | loop => none

end Foreground

namespace Rehearsal

/-- Whether the call with a number is over. -/
def callOver (s : Rehearsal) (c : Nat) : Bool :=
  match (s.run.controls[c]?).map Control.stand with
  | some (.ended _) => true
  | some .dropped => true
  | none => true
  | _ => false

/-- Why no client could be created now, if none could. -/
def refusal (s : Rehearsal) : Option Fault := s.exchange.refusal s.run.sessions.size

/-- Lets the call with a number go on as far as it can without waiting. -/
def turnCall (s : Rehearsal) (c : Nat) : Nat → Rehearsal
  | 0 => s
  | fuel + 1 =>
    match (s.run.controls[c]?).map Control.stand with
    | some .queued =>
      if s.run.line.head? = some c then (s.act (.proceed c s.refusal)).turnCall c fuel else s
    | some (.booting guest) =>
      let request := Request.boot s.scene.settings.bootstrap
      let s := if s.exchange.retires request then s.act (.retireGuest guest) else s
      (s.act (.booted c (s.exchange.reply request))).turnCall c fuel
    | some (.founding _ ticket _) =>
      if s.run.pipeline.canTake ticket then (s.act (.provide c s.refusal)).turnCall c fuel else s
    | some (.raising _ _ ticket) =>
      if s.run.pipeline.canTake ticket then (s.act (.provide c s.refusal)).turnCall c fuel else s
    | some (.funding _ _ deposit _) =>
      (s.act (.funded c (!s.bank.depositFail.has deposit))).turnCall c fuel
    | some (.weighing _) => (s.act (.weighAgain c)).turnCall c fuel
    | _ => s

/-- Lets the timed loop go on as far as it can without waiting. -/
def turnLoop (s : Rehearsal) : Nat → Rehearsal
  | 0 => s
  | fuel + 1 =>
    let heed (s : Rehearsal) : Rehearsal :=
      if s.run.aborted then s.act (.leave .abort)
      else if s.run.deadline ≤ s.now then s.act (.leave .deadline)
      else if s.run.signalled then s.act (.leave .signal)
      else s
    match s.run.loop with
    | .unstarted => (s.act .drive).turnLoop fuel
    | .resting due => if due ≤ s.now then (s.act .tick).turnLoop fuel else heed s
    | .starting c =>
      let s := s.turnCall c plenty
      if s.callOver c then (s.act .collect).turnLoop fuel else heed s
    | .ticking c _ =>
      let s := s.turnCall c plenty
      if s.callOver c then (s.act .collect).turnLoop fuel else heed s
    | .ended .. => s

/-- Whether a ticket has been answered. -/
def answered (s : Rehearsal) (ticket : Nat) : Bool := !s.run.pipeline.line.contains ticket

/-- Whether somebody who waits could go on. -/
def canTurn (s : Rehearsal) : Foreground → Bool
  | .time due => due ≤ s.now
  | .calls cs due => due ≤ s.now || cs.any s.run.stirs || cs.all s.callOver
  | .execution e => (s.run.executions[e]?).elim true fun x => x.finished || s.run.restless x
  | .shutdown k _ => (s.run.shutdowns[k]?).all s.run.answerable
  | .identities tickets due =>
    due ≤ s.now || tickets.any s.run.pipeline.canTake || tickets.all s.answered
  | .producer due =>
    due ≤ s.now || s.run.pipeline.canWake s.now || s.verdict.any (· ≤ s.now) ||
      s.run.pipeline.producer == .stopped
  | .loop => s.run.ticking || (s.run.drivenCall.any s.run.stirs)

/-- Lets somebody who waits go on; the answer tells whether they wait no longer. -/
def turnForeground (s : Rehearsal) : Foreground → Rehearsal × Bool
  | .time due => (s, due ≤ s.now)
  | .calls cs due =>
    let s := cs.foldl (fun s c => s.turnCall c plenty) s
    if cs.all s.callOver then (s, true)
    else if due ≤ s.now then ((cs.filter (!s.callOver ·)).foldl (fun s c => s.act (.giveUp c)) s, true)
    else (s, false)
  | .execution e =>
    let s := s.turnExecution e 16
    (s, (s.run.executions[e]?).elim true Execution.finished)
  | .shutdown k _ =>
    let s := s.act (.answer k)
    (s, (s.run.shutdowns[k]?).all fun x => x.answer.isSome)
  | .identities tickets due =>
    let s := tickets.foldl (fun s t => s.act (.take t)) s
    if tickets.all s.answered then (s, true)
    else if due ≤ s.now then
      ((tickets.filter (!s.answered ·)).foldl (fun s t => s.act (.leaveLine t)) s, true)
    else (s, false)
  | .producer due =>
    let s := s.produce plenty
    (s, s.run.pipeline.producer == .stopped || due ≤ s.now)
  | .loop =>
    let s := s.turnLoop plenty
    (s, !s.run.driving)

/-- Performs in the background until somebody who waits could go on, and so on until they wait no
    longer. -/
def performUntil (f : Foreground) (s : Rehearsal) : Nat → Rehearsal
  | 0 => s
  | fuel + 1 =>
    if s.canTurn f then
      let (s, done) := s.turnForeground f
      if done then s else performUntil f s fuel
    else if !s.ready.isEmpty then performUntil f (s.burst burstLength) fuel
    else
      match s.nextMoment f.due with
      | none => s
      | some time => performUntil f (s.passUntil time) fuel

/-- Performs until somebody waits no longer. -/
def await (s : Rehearsal) (f : Foreground) : Rehearsal :=
  let (s, done) := s.turnForeground f
  if done then s else performUntil f s plenty

/-- Everybody in the background goes on until time would have to pass. -/
def calm (s : Rehearsal) : Rehearsal := s.settle plenty

end Rehearsal

end ExchangeLoad
