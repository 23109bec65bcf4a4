import ExchangeLoad.Proofs.Pipeline.History
import ExchangeLoad.Run.Step

/-!
What a step of a run can do, said once. A step takes on a call of the controller, the execution of a
task, or neither; each of these comes to one of a few things, with what it needs.
-/

namespace ExchangeLoad.Run

/-- The call that a step takes on. -/
def Step.call? : Step → Option Nat
  | .proceed c _ => some c
  | .booted c _ => some c
  | .provide c _ => some c
  | .funded c _ => some c
  | .weighAgain c => some c
  | .giveUp c => some c
  | _ => none

/-- The execution that a step takes on. -/
def Step.execution? : Step → Option Nat
  | .look e => some e
  | .elapse e => some e
  | .forgo e => some e
  | .hear e _ => some e
  | .finish e => some e
  | .stop e => some e
  | .enrol e _ => some e
  | _ => none

/-- Whether a step begins the body of the execution with a number: a look at a task without delay, or the
    end of its delay. -/
def opens (r : Run) (e : Nat) : Step → Bool
  | .look k => k == e && (r.executions[e]?).any fun x => decide (x.task.delay = 0)
  | .elapse k => k == e
  | _ => false

/-- The run once an investor has been registered, whatever became of its deposit. -/
def registered (r : Run) (i deposit : Nat) (accepted : Bool) : Run :=
  { r.settleDeposit deposit accepted with registry := r.registry.add i }

/-- What a step comes to that takes on a call. -/
inductive CallMove (scene : Scene) (c : Nat) (r : Run) (x : Control) : Step → Run → Prop where
  | start (made : Option Fault) (hstand : x.stand = .queued) (hcommand : x.command = .start)
      (hline : r.line.head? = some c) : CallMove scene c r x (.proceed c made) (r.beginStart scene c made)
  | tick (made : Option Fault) (hstand : x.stand = .queued) (hcommand : x.command = .tick)
      (hline : r.line.head? = some c) : CallMove scene c r x (.proceed c made) (r.beginTick scene c)
  | boot (guest : Nat) (hstand : x.stand = .booting guest) :
      CallMove scene c r x (.booted c .done)
        ({ r with guests := r.guests.modify guest (·.hear (.boot scene.settings.bootstrap) .done)
          }.toSlot scene c 0 [])
  | unready (guest : Nat) (why : Fault) (hstand : x.stand = .booting guest) :
      CallMove scene c r x (.booted c (.failed why))
        ({ r with guests := r.guests.modify guest (·.hear (.boot scene.settings.bootstrap) (.failed why))
          }.endControl c (.error (.bootstrap why.chain)))
  | fund (slot ticket : Nat) (tasks : List Task) (pipeline : Pipeline) (id : Identity) (made : Option Fault)
      (hstand : x.stand = .founding slot ticket tasks)
      (htake : r.pipeline.take ticket = some (pipeline, some id)) :
      CallMove scene c r x (.provide c made) ({ r with pipeline }.fund scene c slot tasks id made)
  | recruit (climb : Climb) (slot ticket : Nat) (pipeline : Pipeline) (id : Identity) (made : Option Fault)
      (hstand : x.stand = .raising climb slot ticket)
      (htake : r.pipeline.take ticket = some (pipeline, some id)) :
      CallMove scene c r x (.provide c made) ({ r with pipeline }.recruit scene c slot climb id made)
  | refuse (ticket : Nat) (pipeline : Pipeline) (made : Option Fault) (hstand : ticketOf x.stand = some ticket)
      (htake : r.pipeline.take ticket = some (pipeline, none)) :
      CallMove scene c r x (.provide c made) ({ r with pipeline }.endControl c (.error noIdentity))
  | register (slot i deposit : Nat) (tasks : List Task) (accepted : Bool)
      (hstand : x.stand = .funding slot i deposit tasks) :
      CallMove scene c r x (.funded c accepted)
        (((r.registered i deposit accepted).startInvestor i).1.toSlot scene c (slot + 1)
          (tasks ++ ((r.registered i deposit accepted).startInvestor i).2))
  | weigh (climb : Climb) (hstand : x.stand = .weighing climb) :
      CallMove scene c r x (.weighAgain c) (r.weigh scene c climb)
  | giveUp (hended : ∀ result, x.stand ≠ .ended result) (hdropped : x.stand ≠ .dropped) :
      CallMove scene c r x (.giveUp c) ({ r with
        pipeline := (ticketOf x.stand).elim r.pipeline r.pipeline.leave
        line := r.line.erase c }.withStand c .dropped)

/-- What a step comes to that takes on an execution. -/
inductive TaskMove (e : Nat) (r : Run) (x : Execution) : Step → Run → Prop where
  | begin (a : Step) (hphase : x.phase = .waiting ∧ x.task.delay = 0 ∨
      ∃ wake ≤ r.now, x.phase = .delayed wake) (hact : a = .look e ∧ x.task.delay = 0 ∨ a = .elapse e) :
      TaskMove e r x a (r.beginBody e)
  | delay (hphase : x.phase = .waiting) (hdelay : x.task.delay ≠ 0) (haborted : r.aborted = false) :
      TaskMove e r x (.look e) (r.withPhase e (.delayed (r.now + x.task.delay)))
  | drop (a : Step) (hphase : x.phase = .waiting ∧ x.task.delay ≠ 0 ∨ ∃ wake, x.phase = .delayed wake)
      (haborted : r.aborted = true) (hact : a = .look e ∧ x.task.delay ≠ 0 ∨ a = .forgo e) :
      TaskMove e r x a (r.close e (.dropped r.now))
  | hear (point : Point) (i : Nat) (v w : Investor) (reply : Reply) (gain : Int) (progress : Progress)
      (hphase : x.phase = .asking point) (htrader : traderOf x.task = some i)
      (hv : r.investors[i]? = some v) (hresume : v.resume point reply r.aborted = some (w, gain, progress)) :
      TaskMove e r x (.hear e reply)
        ({ r with tracker := r.tracker.addScore gain }.advance e i (w, progress))
  | finish (wake : Nat) (label : String) (delay : Nat) (script : Script) (hphase : x.phase = .working wake)
      (htask : x.task = .exec label delay (.scripted script)) (hwake : wake ≤ r.now) :
      TaskMove e r x (.finish e) ((r.note label "done").perform e script)
  | stop (wake : Nat) (label : String) (delay : Nat) (script : Script) (hphase : x.phase = .working wake)
      (htask : x.task = .exec label delay (.scripted script)) (haborted : r.aborted = true)
      (hstubborn : script.stubborn = false) : TaskMove e r x (.stop e)
        ((r.note label "stopped").conclude e none)
  | enrol (deposit i : Nat) (credit : Int) (accepted : Bool) (hphase : x.phase = .depositing deposit)
      (htask : x.task = .enrol i credit) :
      TaskMove e r x (.enrol e accepted) ((r.registered i deposit accepted).endExecution e none)

/-- What a step comes to that takes on neither a call of the controller nor an execution. -/
inductive OtherMove (scene : Scene) (r : Run) : Step → Run → Prop where
  | wait (ms : Nat) (hquiet : r.quiet = true) (hhorizon : r.horizon.all (r.now + ms ≤ ·) = true) :
      OtherMove scene r (.wait ms) { r with now := r.now + ms }
  | pipeline (a : Step) (acts : List Pipeline.Act) (pipeline : Pipeline)
      (hacts : r.pipeline.play scene.identity acts = some pipeline) :
      OtherMove scene r a { r with pipeline }
  | enter (command : Command) : OtherMove scene r (.enter command) (r.enter command false)
  | launch (a : Step) (place : Nat) (task : Task) (submitted : Bool) (htask : r.held[place]? = some task) :
      OtherMove scene r a ({ r with held := r.held.eraseIdx place }.launch task submitted)
  | discard (place : Nat) : OtherMove scene r (.discard place) { r with held := r.held.eraseIdx place }
  | abort : OtherMove scene r .abort { r with aborted := true }
  | shutdowns (a : Step) (shutdowns : Array Shutdown) : OtherMove scene r a { r with shutdowns }
  | signal : OtherMove scene r .signal { r with signalled := true }
  | drive {t : Run} (h : r.drive scene = some t) : OtherMove scene r .drive t
  | collect {t : Run} (h : r.collect = some t) : OtherMove scene r .collect t
  | tick {t : Run} (h : r.tick scene = some t) : OtherMove scene r .tick t
  | leave {t : Run} (cause : Cause) (h : r.leave cause = some t) : OtherMove scene r (.leave cause) t
  | investor (a : Step) (i : Nat) (v w : Investor) (hv : r.investors[i]? = some v)
      (hmanner : w.manner = v.manner) (hanswers : w.client.answers = v.client.answers)
      (hidentity : w.identity = v.identity) (hparams : w.params = v.params)
      (hact : a = .retire i ∧ w = { v with client := v.client.retire } ∨ ∃ change, a = .alter change)
      (hasked : w.client.asked = v.client.asked) :
      OtherMove scene r a (r.withInvestor i w)
  | guests (a : Step) (guests : Array Client) : OtherMove scene r a { r with guests }
  | score (delta : Int) : OtherMove scene r (.score delta) { r with tracker := r.tracker.addScore delta }
  | error : OtherMove scene r .error { r with tracker := r.tracker.countError }
  | remove (id : Identity) :
      OtherMove scene r (.remove id) { r with registry := (r.registry.remove r.identity id).1 }

variable {scene : Scene} {r t : Run} {a : Step} {c e : Nat}

theorem proceed_callMove {made : Option Fault} (h : r.proceed scene c made = some t) :
    ∃ x, r.controls[c]? = some x ∧ CallMove scene c r x (.proceed c made) t := by
  unfold proceed at h
  obtain ⟨x, hx, h⟩ := Option.bind_eq_some_iff.mp h
  refine ⟨x, hx, ?_⟩
  split at h
  · next hstand =>
    split at h
    · next hline =>
      split at h
      · next hcommand =>
        obtain rfl := Option.some.inj h
        exact .start made hstand hcommand hline
      · next hcommand =>
        obtain rfl := Option.some.inj h
        exact .tick made hstand hcommand hline
    · cases h
  · cases h

theorem booted_callMove {reply : Reply} (h : r.booted scene c reply = some t) :
    ∃ x, r.controls[c]? = some x ∧ CallMove scene c r x (.booted c reply) t := by
  unfold booted at h
  obtain ⟨x, hx, h⟩ := Option.bind_eq_some_iff.mp h
  refine ⟨x, hx, ?_⟩
  split at h
  · next guest hstand =>
    simp only at h
    split at h
    · obtain rfl := Option.some.inj h
      exact .boot guest hstand
    · obtain rfl := Option.some.inj h
      exact .unready guest _ hstand
    · cases h
  · cases h

theorem provide_callMove {made : Option Fault} (h : r.provide scene c made = some t) :
    ∃ x, r.controls[c]? = some x ∧ CallMove scene c r x (.provide c made) t := by
  unfold provide at h
  obtain ⟨x, hx, h⟩ := Option.bind_eq_some_iff.mp h
  refine ⟨x, hx, ?_⟩
  split at h
  · next slot ticket tasks hstand =>
    obtain ⟨⟨pipeline, id⟩, htake, h⟩ := Option.bind_eq_some_iff.mp h
    cases id with
    | some id =>
      obtain rfl := Option.some.inj h
      exact .fund slot ticket tasks pipeline id made hstand htake
    | none =>
      obtain rfl := Option.some.inj h
      exact .refuse ticket pipeline made (by rw [hstand, ticketOf]) htake
  · next climb slot ticket hstand =>
    obtain ⟨⟨pipeline, id⟩, htake, h⟩ := Option.bind_eq_some_iff.mp h
    cases id with
    | some id =>
      obtain rfl := Option.some.inj h
      exact .recruit climb slot ticket pipeline id made hstand htake
    | none =>
      obtain rfl := Option.some.inj h
      exact .refuse ticket pipeline made (by rw [hstand, ticketOf]) htake
  · cases h

theorem funded_callMove {accepted : Bool} (h : r.funded scene c accepted = some t) :
    ∃ x, r.controls[c]? = some x ∧ CallMove scene c r x (.funded c accepted) t := by
  unfold funded at h
  obtain ⟨x, hx, h⟩ := Option.bind_eq_some_iff.mp h
  refine ⟨x, hx, ?_⟩
  split at h
  · next slot i deposit tasks hstand =>
    obtain rfl := Option.some.inj h
    exact .register slot i deposit tasks accepted hstand
  · cases h

theorem weighAgain_callMove (h : r.weighAgain scene c = some t) :
    ∃ x, r.controls[c]? = some x ∧ CallMove scene c r x (.weighAgain c) t := by
  unfold weighAgain at h
  obtain ⟨x, hx, h⟩ := Option.bind_eq_some_iff.mp h
  refine ⟨x, hx, ?_⟩
  split at h
  · next climb hstand =>
    obtain rfl := Option.some.inj h
    exact .weigh climb hstand
  · cases h

theorem giveUp_callMove (h : r.giveUp c = some t) :
    ∃ x, r.controls[c]? = some x ∧ CallMove scene c r x (.giveUp c) t := by
  unfold giveUp at h
  obtain ⟨x, hx, h⟩ := Option.bind_eq_some_iff.mp h
  refine ⟨x, hx, ?_⟩
  split at h
  · cases h
  · cases h
  · next hended hdropped =>
    obtain rfl := Option.some.inj h
    exact .giveUp hended hdropped

theorem step_callMove (ha : a.call? = some c) (h : r.step scene a = some t) :
    ∃ x, r.controls[c]? = some x ∧ CallMove scene c r x a t := by
  cases a <;> cases ha
  case proceed => exact proceed_callMove h
  case booted => exact booted_callMove h
  case provide => exact provide_callMove h
  case funded => exact funded_callMove h
  case weighAgain => exact weighAgain_callMove h
  case giveUp => exact giveUp_callMove h

theorem look_taskMove (h : r.look e = some t) :
    ∃ x, r.executions[e]? = some x ∧ TaskMove e r x (.look e) t := by
  unfold look at h
  obtain ⟨x, hx, h⟩ := Option.bind_eq_some_iff.mp h
  refine ⟨x, hx, ?_⟩
  split at h
  · next hphase =>
    split at h
    · next hdelay =>
      obtain rfl := Option.some.inj h
      exact .begin _ (.inl ⟨hphase, hdelay⟩) (.inl ⟨rfl, hdelay⟩)
    · next hdelay =>
      split at h
      · next haborted =>
        obtain rfl := Option.some.inj h
        exact .drop _ (.inl ⟨hphase, hdelay⟩) haborted (.inl ⟨rfl, hdelay⟩)
      · next haborted =>
        obtain rfl := Option.some.inj h
        exact .delay hphase hdelay (Bool.eq_false_iff.mpr haborted)
  · cases h

theorem elapse_taskMove (h : r.elapse e = some t) :
    ∃ x, r.executions[e]? = some x ∧ TaskMove e r x (.elapse e) t := by
  unfold elapse at h
  obtain ⟨x, hx, h⟩ := Option.bind_eq_some_iff.mp h
  refine ⟨x, hx, ?_⟩
  split at h
  · next wake hphase =>
    split at h
    · next hwake =>
      obtain rfl := Option.some.inj h
      exact .begin _ (.inr ⟨wake, hwake, hphase⟩) (.inr rfl)
    · cases h
  · cases h

theorem forgo_taskMove (h : r.forgo e = some t) :
    ∃ x, r.executions[e]? = some x ∧ TaskMove e r x (.forgo e) t := by
  unfold forgo at h
  obtain ⟨x, hx, h⟩ := Option.bind_eq_some_iff.mp h
  refine ⟨x, hx, ?_⟩
  split at h
  · next wake hphase =>
    split at h
    · next haborted =>
      obtain rfl := Option.some.inj h
      exact .drop _ (.inr ⟨wake, hphase⟩) haborted (.inr rfl)
    · cases h
  · cases h

theorem hear_taskMove {reply : Reply} (h : r.hear e reply = some t) :
    ∃ x, r.executions[e]? = some x ∧ TaskMove e r x (.hear e reply) t := by
  unfold hear at h
  obtain ⟨x, hx, h⟩ := Option.bind_eq_some_iff.mp h
  refine ⟨x, hx, ?_⟩
  split at h
  · next point hphase =>
    obtain ⟨i, htrader, h⟩ := Option.bind_eq_some_iff.mp h
    obtain ⟨v, hv, h⟩ := Option.bind_eq_some_iff.mp h
    obtain ⟨⟨w, gain, progress⟩, hresume, h⟩ := Option.bind_eq_some_iff.mp h
    obtain rfl := Option.some.inj h
    exact .hear point i v w reply gain progress hphase htrader hv hresume
  · cases h

theorem finish_taskMove (h : r.finish e = some t) :
    ∃ x, r.executions[e]? = some x ∧ TaskMove e r x (.finish e) t := by
  unfold finish at h
  obtain ⟨x, hx, h⟩ := Option.bind_eq_some_iff.mp h
  refine ⟨x, hx, ?_⟩
  split at h
  · next wake label delay script hphase htask =>
    split at h
    · next hwake =>
      obtain rfl := Option.some.inj h
      exact .finish wake label delay script hphase htask hwake
    · cases h
  · cases h

theorem stop_taskMove (h : r.stop e = some t) :
    ∃ x, r.executions[e]? = some x ∧ TaskMove e r x (.stop e) t := by
  unfold stop at h
  obtain ⟨x, hx, h⟩ := Option.bind_eq_some_iff.mp h
  refine ⟨x, hx, ?_⟩
  split at h
  · next wake label delay script hphase htask =>
    split at h
    · next hstop =>
      obtain ⟨haborted, hstubborn⟩ := Bool.and_eq_true_iff.mp hstop
      obtain rfl := Option.some.inj h
      exact .stop wake label delay script hphase htask haborted (by simpa using hstubborn)
    · cases h
  · cases h

theorem enrol_taskMove {accepted : Bool} (h : r.enrol e accepted = some t) :
    ∃ x, r.executions[e]? = some x ∧ TaskMove e r x (.enrol e accepted) t := by
  unfold enrol at h
  obtain ⟨x, hx, h⟩ := Option.bind_eq_some_iff.mp h
  refine ⟨x, hx, ?_⟩
  split at h
  · next deposit i credit hphase htask =>
    obtain rfl := Option.some.inj h
    exact .enrol deposit i credit accepted hphase htask
  · cases h

/-- Only an execution that is not over goes on. -/
theorem TaskMove.unfinished {x : Execution} (h : TaskMove e r x a t) : x.finished = false := by
  cases h with
  | begin _ hphase => obtain ⟨hphase, _⟩ | ⟨_, _, hphase⟩ := hphase <;> simp [Execution.finished, hphase]
  | delay hphase => simp [Execution.finished, hphase]
  | drop _ hphase => obtain ⟨hphase, _⟩ | ⟨_, hphase⟩ := hphase <;> simp [Execution.finished, hphase]
  | hear _ _ _ _ _ _ _ hphase => simp [Execution.finished, hphase]
  | finish _ _ _ _ hphase => simp [Execution.finished, hphase]
  | stop _ _ _ _ hphase => simp [Execution.finished, hphase]
  | enrol _ _ _ _ hphase => simp [Execution.finished, hphase]

theorem step_taskMove (ha : a.execution? = some e) (h : r.step scene a = some t) :
    ∃ x, r.executions[e]? = some x ∧ TaskMove e r x a t := by
  cases a <;> cases ha
  case look => exact look_taskMove h
  case elapse => exact elapse_taskMove h
  case forgo => exact forgo_taskMove h
  case hear => exact hear_taskMove h
  case finish => exact finish_taskMove h
  case stop => exact stop_taskMove h
  case enrol => exact enrol_taskMove h

theorem step_otherMove (hcall : a.call? = none) (hexecution : a.execution? = none)
    (h : r.step scene a = some t) : OtherMove scene r a t := by
  cases a <;> cases hcall <;> cases hexecution
  case wait ms =>
    simp only [step, Run.wait] at h
    split at h
    · next hready =>
      obtain rfl := Option.some.inj h
      obtain ⟨hquiet, hhorizon⟩ := Bool.and_eq_true_iff.mp hready
      exact .wait ms hquiet hhorizon
    · cases h
  case produce =>
    obtain rfl := Option.some.inj h
    exact .pipeline _ [.run] _ rfl
  case decide accepted =>
    obtain ⟨pipeline, hdecide, h⟩ := Option.bind_eq_some_iff.mp h
    obtain rfl := Option.some.inj h
    refine .pipeline _ [.decide accepted (r.now + scene.retryDelay)] pipeline ?_
    exact Pipeline.play_cons.mpr ⟨pipeline, hdecide, rfl⟩
  case wake =>
    obtain ⟨pipeline, hwake, h⟩ := Option.bind_eq_some_iff.mp h
    obtain rfl := Option.some.inj h
    exact .pipeline _ [.wake r.now] pipeline (Pipeline.play_cons.mpr ⟨pipeline, hwake, rfl⟩)
  case cancelProducer =>
    obtain rfl := Option.some.inj h
    exact .pipeline _ [.cancel] _ rfl
  case abandonProducer =>
    obtain rfl := Option.some.inj h
    exact .pipeline _ [.abandon] _ rfl
  case fetch =>
    obtain rfl := Option.some.inj h
    exact .pipeline _ [.join] _ rfl
  case take ticket =>
    simp only [step] at h
    split at h
    · cases h
    · obtain ⟨⟨pipeline, id⟩, htake, h⟩ := Option.bind_eq_some_iff.mp h
      obtain rfl := Option.some.inj h
      refine .pipeline _ [.take ticket] pipeline ?_
      exact Pipeline.play_cons.mpr ⟨pipeline, by simp [Pipeline.act, htake], rfl⟩
  case leaveLine ticket =>
    simp only [step] at h
    split at h
    · cases h
    · obtain rfl := Option.some.inj h
      exact .pipeline _ [.leave ticket] _ rfl
  case enter command =>
    obtain rfl := Option.some.inj h
    exact .enter command
  case submit place =>
    obtain ⟨task, htask, h⟩ := Option.bind_eq_some_iff.mp h
    obtain rfl := Option.some.inj h
    exact .launch _ place task true htask
  case execute place =>
    obtain ⟨task, htask, h⟩ := Option.bind_eq_some_iff.mp h
    obtain rfl := Option.some.inj h
    exact .launch _ place task false htask
  case discard place =>
    simp only [step] at h
    split at h
    · obtain rfl := Option.some.inj h
      exact .discard place
    · cases h
  case abort =>
    obtain rfl := Option.some.inj h
    exact .abort
  case shutdown grace =>
    obtain rfl := Option.some.inj h
    exact .shutdowns _ _
  case answer k =>
    obtain ⟨x, _, h⟩ := Option.bind_eq_some_iff.mp h
    split at h
    · obtain rfl := Option.some.inj h
      exact .shutdowns _ _
    · cases h
  case signal =>
    obtain rfl := Option.some.inj h
    exact .signal
  case drive => exact .drive h
  case collect => exact .collect h
  case tick => exact .tick h
  case leave cause => exact .leave cause h
  case retire i =>
    obtain ⟨v, hv, rfl⟩ := Option.map_eq_some_iff.mp h
    exact .investor _ i v _ hv rfl rfl rfl rfl (.inl ⟨rfl, rfl⟩) rfl
  case retireGuest i =>
    simp only [step] at h
    split at h
    · obtain rfl := Option.some.inj h
      exact .guests _ _
    · cases h
  case score delta =>
    obtain rfl := Option.some.inj h
    exact .score delta
  case error =>
    obtain rfl := Option.some.inj h
    exact .error
  case remove id =>
    obtain rfl := Option.some.inj h
    exact .remove id
  case alter change =>
    obtain ⟨v, hv, rfl⟩ := Option.map_eq_some_iff.mp h
    exact .investor _ change.investor v _ hv rfl rfl rfl rfl (.inr ⟨change, rfl⟩) rfl

/-- Everything that a step can do. -/
theorem step_cases (h : r.step scene a = some t) :
    (∃ c x, r.controls[c]? = some x ∧ CallMove scene c r x a t) ∨
    (∃ e x, r.executions[e]? = some x ∧ TaskMove e r x a t) ∨ OtherMove scene r a t := by
  cases hcall : a.call? with
  | some c => exact .inl ⟨c, step_callMove hcall h⟩
  | none =>
    cases hexecution : a.execution? with
    | some e => exact .inr (.inl ⟨e, step_taskMove hexecution h⟩)
    | none => exact .inr (.inr (step_otherMove hcall hexecution h))

end ExchangeLoad.Run
