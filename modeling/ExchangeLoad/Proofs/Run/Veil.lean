import ExchangeLoad.Proofs.Run.History
import ExchangeLoad.Proofs.Run.Work

/-!
Records that no activity reads. What became of a deposit, and who waits for the tasks under way, are
written down and never looked at by the controller, the executor or the timed loop: a run over whose
records a veil is drawn takes the same steps, and comes to the same run with the veil drawn over it.
-/

namespace ExchangeLoad

/-- A change of what is told of deposits and of those who wait for the tasks under way. A deposit that
    is not decided is told as it is, and one that is decided is told otherwise in its outcome only. -/
structure Veil where
  deposit : Deposit → Deposit
  shutdowns : Array Shutdown → Array Shutdown
  /-- What is told of a deposit that is decided. -/
  verdict : Bool → Bool
  undecided : ∀ id amount, deposit ⟨id, amount, none⟩ = ⟨id, amount, none⟩
  decided : ∀ d accepted, deposit { d with outcome := some accepted } =
    { deposit d with outcome := some (verdict accepted) }

/-- The step with another verdict on the deposit that it decides. -/
def Run.Step.told (verdict : Bool → Bool) : Run.Step → Run.Step
  | .enrol e accepted => .enrol e (verdict accepted)
  | .funded c accepted => .funded c (verdict accepted)
  | a => a

/-- Whether a step begins or ends a wait for the tasks under way. -/
def Run.Step.watches : Run.Step → Bool
  | .shutdown _ => true
  | .answer _ => true
  | _ => false

namespace Veil

/-- The run with the veil drawn over its records. -/
def veiled (v : Veil) (r : Run) : Run :=
  { r with deposits := r.deposits.map v.deposit, shutdowns := v.shutdowns r.shutdowns }

variable (v : Veil) (r : Run) (scene : Scene) (c e i : Nat)

theorem elim_veiled {α : Type} (found : Option α) {f g : α → Run} (h : ∀ x, g x = v.veiled (f x)) :
    found.elim (v.veiled r) g = v.veiled (found.elim r f) := by
  cases found with
  | none => rfl
  | some x => exact h x

theorem bind_veiled {α : Type} (found : Option α) {f g : α → Option Run} (h : ∀ x, g x = (f x).map v.veiled) :
    found.bind g = (found.bind f).map v.veiled := by
  cases found with
  | none => rfl
  | some x => exact h x

theorem ite_veiled {p : Prop} [Decidable p] {s t s' t' : Option Run} (hs : s' = s.map v.veiled)
    (ht : t' = t.map v.veiled) : (if p then s' else t') = (if p then s else t).map v.veiled := by
  rw [hs, ht, apply_ite (Option.map v.veiled)]

section Tasks

theorem conclude (failure : Option Fault) :
    (v.veiled r).conclude e failure = v.veiled (r.conclude e failure) := by
  cases failure <;> rfl

theorem advance (after : Investor × Progress) :
    (v.veiled r).advance e i after = v.veiled (r.advance e i after) := by
  unfold Run.advance
  cases after.2 with
  | waits point => rfl
  | ended failure => exact v.conclude (r.withInvestor i after.1) e failure

theorem perform (script : Script) : (v.veiled r).perform e script = v.veiled (r.perform e script) := by
  let scored : Run := { r with tracker := r.tracker.addScore script.score }
  unfold Run.perform
  cases script.change with
  | none => exact v.conclude scored e _
  | some change =>
    have hchanged := v.elim_veiled scored scored.investors[change.investor]?
      (f := fun w => scored.withInvestor change.investor (w.change change)) fun _ => rfl
    exact (congrArg (Run.conclude · e _) hchanged).trans (v.conclude _ e _)

theorem beginScript (label : String) (script : Script) :
    (v.veiled r).beginScript e label script = v.veiled (r.beginScript e label script) := by
  unfold Run.beginScript
  rw [show (v.veiled r).aborted = r.aborted from rfl]
  generalize (if r.aborted then "run-cancelled" else "run") = what
  cases script.work with
  | none => exact v.perform (r.note label what) e script
  | some ms =>
    simp only
    rw [apply_ite v.veiled]
    exact ite_congr rfl (fun _ => v.conclude ((r.note label what).note label "stopped") e none) fun _ => rfl

theorem settleDeposit (deposit : Nat) (accepted : Bool) :
    (v.veiled r).settleDeposit deposit (v.verdict accepted) = v.veiled (r.settleDeposit deposit accepted) := by
  have hdeposits : (r.deposits.map v.deposit).modify deposit
      (fun d => { d with outcome := some (v.verdict accepted) }) =
      (r.deposits.modify deposit fun d => { d with outcome := some accepted }).map v.deposit := by
    refine Array.ext_getElem? fun k => ?_
    simp only [Array.getElem?_modify, Array.getElem?_map]
    split
    · cases r.deposits[k]? with
      | none => rfl
      | some d => simp [v.decided]
    · rfl
  simp only [Run.settleDeposit, veiled, hdeposits]

/-- The deposit that somebody is about to ask for is told as it is. -/
theorem askDeposit (id : Identity) (amount : Int) :
    { v.veiled r with deposits := (v.veiled r).deposits.push ⟨id, amount, none⟩ } =
      v.veiled { r with deposits := r.deposits.push ⟨id, amount, none⟩ } := by
  simp [veiled, Array.map_push, v.undecided]

theorem size_deposits : (v.veiled r).deposits.size = r.deposits.size := Array.size_map ..

theorem beginBody : (v.veiled r).beginBody e = v.veiled (r.beginBody e) := by
  unfold Run.beginBody
  rw [← Run.begun, ← Run.begun, show (v.veiled r).begun e = v.veiled (r.begun e) from rfl]
  generalize r.begun e = s
  simp only [show (v.veiled s).executions = s.executions from rfl]
  cases (s.executions[e]?).map Execution.task with
  | none => rfl
  | some task =>
    cases task with
    | exec label delay job =>
      cases job with
      | signIn i => exact v.elim_veiled s s.investors[i]? fun w => v.advance s e i (w.beginSignIn s.aborted)
      | trade i price => exact v.elim_veiled s s.investors[i]? fun w => v.advance s e i (w.beginTrade price)
      | scripted script => exact v.beginScript s e label script
    | enrol i credit =>
      have hasked := v.askDeposit s (s.identity i) credit
      simp only [v.size_deposits]
      exact congrArg (Run.withPhase · e (.depositing s.deposits.size)) hasked

theorem look : (v.veiled r).look e = (r.look e).map v.veiled := by
  refine v.bind_veiled r.executions[e]? fun x => ?_
  cases x.phase with
  | waiting => exact v.ite_veiled (congrArg some (v.beginBody r e)) (v.ite_veiled rfl rfl)
  | _ => rfl

theorem elapse : (v.veiled r).elapse e = (r.elapse e).map v.veiled := by
  refine v.bind_veiled r.executions[e]? fun x => ?_
  cases x.phase with
  | delayed wake => exact v.ite_veiled (congrArg some (v.beginBody r e)) rfl
  | _ => rfl

theorem forgo : (v.veiled r).forgo e = (r.forgo e).map v.veiled := by
  refine v.bind_veiled r.executions[e]? fun x => ?_
  cases x.phase with
  | delayed wake => exact v.ite_veiled rfl rfl
  | _ => rfl

theorem hear (reply : Reply) : (v.veiled r).hear e reply = (r.hear e reply).map v.veiled := by
  refine v.bind_veiled r.executions[e]? fun x => ?_
  cases x.phase with
  | asking point =>
    refine v.bind_veiled (Run.traderOf x.task) fun i => v.bind_veiled r.investors[i]? fun w => ?_
    refine v.bind_veiled (w.resume point reply r.aborted) fun ⟨w, gain, progress⟩ => ?_
    exact congrArg some (v.advance { r with tracker := r.tracker.addScore gain } e i (w, progress))
  | _ => rfl

theorem finish : (v.veiled r).finish e = (r.finish e).map v.veiled := by
  refine v.bind_veiled r.executions[e]? fun x => ?_
  cases x.phase with
  | working wake =>
    cases x.task with
    | exec label delay job =>
      cases job with
      | scripted script => exact v.ite_veiled (congrArg some (v.perform (r.note label "done") e script)) rfl
      | _ => rfl
    | _ => rfl
  | _ => rfl

theorem stop : (v.veiled r).stop e = (r.stop e).map v.veiled := by
  refine v.bind_veiled r.executions[e]? fun x => ?_
  cases x.phase with
  | working wake =>
    cases x.task with
    | exec label delay job =>
      cases job with
      | scripted script => exact v.ite_veiled (congrArg some (v.conclude (r.note label "stopped") e none)) rfl
      | _ => rfl
    | _ => rfl
  | _ => rfl

theorem enrol (accepted : Bool) :
    (v.veiled r).enrol e (v.verdict accepted) = (r.enrol e accepted).map v.veiled := by
  refine v.bind_veiled r.executions[e]? fun x => ?_
  cases x.phase with
  | depositing deposit =>
    cases x.task with
    | enrol i credit =>
      simp only [v.settleDeposit]
      rfl
    | _ => rfl
  | _ => rfl

end Tasks

section Calls

theorem submitAll (tasks : List Task) : (v.veiled r).submitAll tasks = v.veiled (r.submitAll tasks) := by
  induction tasks generalizing r with
  | nil => rfl
  | cons task rest ih => exact ih (r.launch task true)

theorem endControl (result : Except RunError (List Task)) :
    (v.veiled r).endControl c result = v.veiled (r.endControl c result) := by
  unfold Run.endControl
  cases result with
  | error why => rfl
  | ok tasks =>
    simp only [show (v.veiled r).controls = r.controls from rfl]
    rw [apply_ite v.veiled]
    refine ite_congr rfl (fun _ => ?_) fun _ => rfl
    exact v.submitAll ({ r with line := r.line.erase c }.withStand c (.ended (.ok tasks))) tasks

theorem toSlot (slot : Nat) (tasks : List Task) :
    (v.veiled r).toSlot scene c slot tasks = v.veiled (r.toSlot scene c slot tasks) := by
  unfold Run.toSlot
  rw [apply_ite v.veiled]
  exact ite_congr rfl (fun _ => rfl) fun _ => v.endControl r c _

theorem weigh (climb : Climb) : (v.veiled r).weigh scene c climb = v.veiled (r.weigh scene c climb) := by
  unfold Run.weigh
  simp only [show (v.veiled r).mayRise climb.score = r.mayRise climb.score from rfl,
    show (v.veiled r).marketPrice = r.marketPrice from rfl]
  cases (if r.mayRise climb.score then some r.marketPrice else none) with
  | none => exact v.endControl { r with weighings := _ } c _
  | some price =>
    simp only
    rw [apply_ite v.veiled]
    exact ite_congr rfl (fun _ => rfl) fun _ => rfl

theorem startInvestor : (v.veiled r).startInvestor i = (r.startInvestor i).map v.veiled id := by
  unfold Run.startInvestor
  rw [show (v.veiled r).investors = r.investors from rfl]
  cases r.investors[i]? <;> rfl

theorem startFirst : (v.veiled r).startFirst = r.startFirst.map v.veiled id := by
  unfold Run.startFirst
  rw [show (v.veiled r).registry.firstNotStarted? (v.veiled r).life = r.registry.firstNotStarted? r.life from rfl]
  cases r.registry.firstNotStarted? r.life with
  | none => rfl
  | some i => exact v.startInvestor r i

theorem collectFrom (tasks : List Task) :
    Run.collectFrom scene (v.veiled r, tasks) i = (Run.collectFrom scene (r, tasks) i).map v.veiled id := by
  unfold Run.collectFrom
  simp only [show (v.veiled r).investors = r.investors from rfl, show (v.veiled r).drawn = r.drawn from rfl]
  cases r.investors[i]? with
  | none => rfl
  | some w =>
    simp only
    cases w.next i (scene.draw r.drawn) <;> rfl

theorem collectAll : (v.veiled r).collectAll scene = (r.collectAll scene).map v.veiled id := by
  have hfold (members : List Nat) (tasks : List Task) :
      members.foldl (Run.collectFrom scene) (v.veiled r, tasks) =
        (members.foldl (Run.collectFrom scene) (r, tasks)).map v.veiled id := by
    induction members generalizing r tasks with
    | nil => rfl
    | cons i rest ih =>
      rw [List.foldl_cons, List.foldl_cons, v.collectFrom]
      exact ih (Run.collectFrom scene (r, tasks) i).1 _
  exact hfold _ []

theorem beginTick : (v.veiled r).beginTick scene c = v.veiled (r.beginTick scene c) := by
  unfold Run.beginTick
  rw [v.startFirst]
  simp only [Prod.map, v.collectAll]
  exact v.weigh { (r.startFirst.1.collectAll scene).1 with controls := _ } scene c _

theorem beginStart (made : Option Fault) :
    (v.veiled r).beginStart scene c made = v.veiled (r.beginStart scene c made) := by
  unfold Run.beginStart
  cases made with
  | some why => exact v.endControl r c _
  | none => rfl

theorem build (identity : Identity) (params : Params) (origin : Origin) (made : Option Fault) :
    (v.veiled r).build scene identity params origin made =
      (r.build scene identity params origin made).map v.veiled id := by
  unfold Run.build
  cases made <;> rfl

theorem fund (slot : Nat) (tasks : List Task) (identity : Identity) (made : Option Fault) :
    (v.veiled r).fund scene c slot tasks identity made = v.veiled (r.fund scene c slot tasks identity made) := by
  unfold Run.fund
  rw [v.build]
  cases r.build scene identity (Batch.founding slot) (.founding c slot) made with
  | mk s result =>
    cases result with
    | error why => exact v.endControl s c _
    | ok i =>
      have hasked := v.askDeposit s (s.identity i) (Batch.founding slot).credit
      simp only [Prod.map, id, v.size_deposits]
      exact congrArg (Run.withStand · c (.funding slot i s.deposits.size tasks)) hasked

theorem recruit (slot : Nat) (climb : Climb) (identity : Identity) (made : Option Fault) :
    (v.veiled r).recruit scene c slot climb identity made =
      v.veiled (r.recruit scene c slot climb identity made) := by
  unfold Run.recruit
  simp only [v.build, show (v.veiled r).level = r.level from rfl]
  cases r.build scene identity (Batch.rising r.level climb.price slot) (.rising c r.level climb.price slot) made with
  | mk s result =>
    cases result with
    | error why => exact v.endControl s c _
    | ok i =>
      simp only [Prod.map, id]
      rw [apply_ite v.veiled]
      exact ite_congr rfl (fun _ => rfl) fun _ => v.weigh s scene c _

theorem proceed (made : Option Fault) :
    (v.veiled r).proceed scene c made = (r.proceed scene c made).map v.veiled := by
  refine v.bind_veiled r.controls[c]? fun x => ?_
  cases x.stand with
  | queued =>
    refine v.ite_veiled ?_ rfl
    cases x.command with
    | start => exact congrArg some (v.beginStart r scene c made)
    | tick => exact congrArg some (v.beginTick r scene c)
  | _ => rfl

theorem booted (reply : Reply) : (v.veiled r).booted scene c reply = (r.booted scene c reply).map v.veiled := by
  refine v.bind_veiled r.controls[c]? fun x => ?_
  cases x.stand with
  | booting guest =>
    let heard : Run := { r with guests := r.guests.modify guest (·.hear (.boot scene.settings.bootstrap) reply) }
    cases reply with
    | done => exact congrArg some (v.toSlot heard scene c 0 [])
    | failed why => exact congrArg some (v.endControl heard c _)
    | _ => rfl
  | _ => rfl

theorem provide (made : Option Fault) :
    (v.veiled r).provide scene c made = (r.provide scene c made).map v.veiled := by
  refine v.bind_veiled r.controls[c]? fun x => ?_
  cases x.stand with
  | founding slot ticket tasks =>
    refine v.bind_veiled (r.pipeline.take ticket) fun ⟨pipeline, id⟩ => ?_
    cases id with
    | some id => exact congrArg some (v.fund { r with pipeline } scene c slot tasks id made)
    | none => exact congrArg some (v.endControl { r with pipeline } c _)
  | raising climb slot ticket =>
    refine v.bind_veiled (r.pipeline.take ticket) fun ⟨pipeline, id⟩ => ?_
    cases id with
    | some id => exact congrArg some (v.recruit { r with pipeline } scene c slot climb id made)
    | none => exact congrArg some (v.endControl { r with pipeline } c _)
  | _ => rfl

theorem funded (accepted : Bool) :
    (v.veiled r).funded scene c (v.verdict accepted) = (r.funded scene c accepted).map v.veiled := by
  refine v.bind_veiled r.controls[c]? fun x => ?_
  cases x.stand with
  | funding slot i deposit tasks =>
    let enlisted : Run :=
      { r.settleDeposit deposit accepted with registry := (r.settleDeposit deposit accepted).registry.add i }
    have hstarted : Run.startInvestor { v.veiled (r.settleDeposit deposit accepted) with
        registry := (r.settleDeposit deposit accepted).registry.add i } i =
        (enlisted.startInvestor i).map v.veiled id := v.startInvestor enlisted i
    simp only [v.settleDeposit]
    refine congrArg some ((congrArg (fun rt => rt.1.toSlot scene c (slot + 1) (tasks ++ rt.2)) hstarted).trans ?_)
    exact v.toSlot (enlisted.startInvestor i).1 scene c (slot + 1) _
  | _ => rfl

theorem weighAgain : (v.veiled r).weighAgain scene c = (r.weighAgain scene c).map v.veiled := by
  refine v.bind_veiled r.controls[c]? fun x => ?_
  cases x.stand with
  | weighing climb => exact congrArg some (v.weigh r scene c climb)
  | _ => rfl

theorem giveUp : (v.veiled r).giveUp c = (r.giveUp c).map v.veiled := by
  refine v.bind_veiled r.controls[c]? fun x => ?_
  cases x.stand <;> rfl

end Calls

section Loop

theorem drive : (v.veiled r).drive scene = (r.drive scene).map v.veiled := by
  unfold Run.drive
  rw [show (v.veiled r).loop = r.loop from rfl]
  cases r.loop <;> rfl

theorem tick : (v.veiled r).tick scene = (r.tick scene).map v.veiled := by
  unfold Run.tick
  rw [show (v.veiled r).loop = r.loop from rfl]
  cases r.loop with
  | resting due => exact v.ite_veiled rfl rfl
  | _ => rfl

theorem collect : (v.veiled r).collect = r.collect.map v.veiled := by
  refine v.bind_veiled r.drivenCall fun c => v.bind_veiled (r.resultOf c) fun result => ?_
  cases result with
  | error why => rfl
  | ok tasks =>
    simp only [show (v.veiled r).loop = r.loop from rfl]
    cases r.loop <;> rfl

theorem leave (cause : Run.Cause) : (v.veiled r).leave cause = (r.leave cause).map v.veiled := by
  unfold Run.leave
  rw [show (v.veiled r).driving = r.driving from rfl,
    show (v.veiled r).holds cause = r.holds cause by cases cause <;> rfl]
  refine v.ite_veiled ?_ rfl
  have hstopped : ((v.veiled r).drivenCall.bind (v.veiled r).giveUp).getD (v.veiled r) =
      v.veiled ((r.drivenCall.bind r.giveUp).getD r) := by
    have hbind : (v.veiled r).drivenCall.bind (v.veiled r).giveUp = (r.drivenCall.bind r.giveUp).map v.veiled :=
      v.bind_veiled r.drivenCall fun c => v.giveUp r c
    rw [hbind]
    exact Option.getD_map ..
  exact congrArg (fun s : Run => some { s with loop := .ended cause.outcome r.now }) hstopped

end Loop

/-- The veil is drawn over a run step by step: nothing but the passing of time and those who wait for the
    tasks under way can look behind it. -/
theorem step {a : Run.Step} (hwait : ∀ ms, a ≠ .wait ms) (hwatch : a.watches = false) :
    (v.veiled r).step scene (a.told v.verdict) = (r.step scene a).map v.veiled := by
  cases a with
  | wait ms => exact absurd rfl (hwait ms)
  | shutdown grace => cases hwatch
  | answer k => cases hwatch
  | proceed c made => exact v.proceed r scene c made
  | booted c reply => exact v.booted r scene c reply
  | provide c made => exact v.provide r scene c made
  | funded c accepted => exact v.funded r scene c accepted
  | weighAgain c => exact v.weighAgain r scene c
  | giveUp c => exact v.giveUp r c
  | look e => exact v.look r e
  | elapse e => exact v.elapse r e
  | forgo e => exact v.forgo r e
  | hear e reply => exact v.hear r e reply
  | finish e => exact v.finish r e
  | stop e => exact v.stop r e
  | enrol e accepted => exact v.enrol r e accepted
  | drive => exact v.drive r scene
  | collect => exact v.collect r
  | tick => exact v.tick r scene
  | leave cause => exact v.leave r cause
  | decide accepted =>
    exact v.bind_veiled (r.pipeline.decide scene.identity accepted (r.now + scene.retryDelay)) fun _ => rfl
  | wake => exact v.bind_veiled (r.pipeline.wake scene.identity r.now) fun _ => rfl
  | take ticket => exact v.ite_veiled rfl (v.bind_veiled (r.pipeline.take ticket) fun _ => rfl)
  | leaveLine ticket => exact v.ite_veiled rfl rfl
  | submit place => exact v.bind_veiled r.held[place]? fun _ => rfl
  | execute place => exact v.bind_veiled r.held[place]? fun _ => rfl
  | discard place => exact v.ite_veiled rfl rfl
  | retire i =>
    simp only [Run.Step.told, Run.step, show (v.veiled r).investors = r.investors from rfl]
    cases r.investors[i]? <;> rfl
  | retireGuest i => exact v.ite_veiled rfl rfl
  | alter change =>
    simp only [Run.Step.told, Run.step, show (v.veiled r).investors = r.investors from rfl]
    cases r.investors[change.investor]? <;> rfl
  | _ => rfl

end Veil

end ExchangeLoad
