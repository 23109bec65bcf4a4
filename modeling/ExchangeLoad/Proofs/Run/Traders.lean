import ExchangeLoad.Proofs.Run.Loop
import ExchangeLoad.Proofs.Run.Work

/-!
Runs without scripts. Where every investor is built as a trader, all work that is handed out, held or
executed is that of traders, whatever happens.
-/

namespace ExchangeLoad

/-- What a call of the controller is about to hand out. -/
def Stand.tasks : Stand → List Task
  | founding _ _ tasks => tasks
  | funding _ _ _ tasks => tasks
  | raising climb _ _ => climb.tasks
  | weighing climb => climb.tasks
  | _ => []

/-- Whether every investor is built as a trader. -/
def Scene.TradersOnly (scene : Scene) : Prop := ∀ number params, scene.manner number params = .newTrader params

theorem Investor.start_ofTrader {v : Investor} (hv : v.IsTrader) (number : Nat) :
    (v.start number).1.IsTrader ∧ (v.start number).2.OfTrader := by
  obtain ⟨busy, coins, cursor, hmanner⟩ := hv
  exact ⟨⟨busy, coins, cursor, hmanner⟩, by simp [Investor.start, hmanner, Task.OfTrader]⟩

theorem Investor.next_ofTrader {v w : Investor} (hv : v.IsTrader) {number : Nat} {draw : Draw} {task : Task}
    (h : v.next number draw = some (w, task)) : w.IsTrader ∧ task.OfTrader := by
  obtain ⟨busy, coins, cursor, hmanner⟩ := hv
  unfold Investor.next at h
  rw [hmanner] at h
  simp only at h
  split at h
  · obtain ⟨rfl, rfl⟩ := Prod.mk.inj (Option.some.inj h)
    exact ⟨⟨true, coins, cursor, rfl⟩, trivial⟩
  · cases h

namespace Run

/-- All investors are traders, and there is no work but theirs. -/
structure TradersOnly (r : Run) : Prop where
  investors : ∀ v ∈ r.investors, v.IsTrader
  held : ∀ task ∈ r.held, task.OfTrader
  stands : ∀ x ∈ r.controls, ∀ task ∈ x.stand.tasks, task.OfTrader
  executions : ∀ x ∈ r.executions, x.task.OfTrader

variable {scene : Scene} {r t : Run} {c e i : Nat}

theorem forall_mem_modify {α : Type} {p : α → Prop} {xs : Array α} {k : Nat} {f : α → α}
    (h : ∀ x ∈ xs, p x) (hf : ∀ x, p x → p (f x)) : ∀ x ∈ xs.modify k f, p x := by
  intro x hx
  obtain ⟨j, hj, rfl⟩ := Array.mem_iff_getElem.mp hx
  rw [Array.size_modify] at hj
  rw [Array.getElem_modify]
  split
  · exact hf _ (h _ (Array.getElem_mem hj))
  · exact h _ (Array.getElem_mem hj)

theorem fresh_tradersOnly (floor ceiling : Int) (capacity drawn : Nat) :
    (fresh floor ceiling capacity drawn).TradersOnly := by
  constructor <;> simp [fresh]

namespace TradersOnly

variable (h : r.TradersOnly)
include h

/-- Records that do not hold investors or work may change at will. -/
theorem of_eq (hsame : (t.investors, t.held, t.controls, t.executions) =
    (r.investors, r.held, r.controls, r.executions)) : t.TradersOnly := by
  simp only [Prod.mk.injEq] at hsame
  obtain ⟨hinvestors, hheld, hcontrols, hexecutions⟩ := hsame
  obtain ⟨hi, hh, hs, he⟩ := h
  exact ⟨by rwa [hinvestors], by rwa [hheld], by rwa [hcontrols], by rwa [hexecutions]⟩

theorem noteControl {f : Control → Control} (hf : ∀ x, (f x).stand = x.stand) :
    { r with controls := r.controls.modify c f }.TradersOnly :=
  ⟨h.investors, h.held, forall_mem_modify h.stands fun x hx => by rwa [hf x], h.executions⟩

theorem withStand {stand : Stand} (hstand : ∀ task ∈ stand.tasks, task.OfTrader) :
    (r.withStand c stand).TradersOnly := by
  have hstands : ∀ x ∈ r.controls.modify c (fun x => { x with stand }), ∀ task ∈ x.stand.tasks,
      task.OfTrader := forall_mem_modify h.stands fun _ _ => hstand
  exact ⟨h.investors, h.held, hstands, h.executions⟩

theorem enter (command : Command) (driven : Bool) : (r.enter command driven).TradersOnly := by
  refine ⟨h.investors, h.held, ?_, h.executions⟩
  intro x hx
  obtain hx | rfl := Array.mem_push.mp hx
  · exact h.stands x hx
  · simp [Stand.tasks]

theorem launch {task : Task} (htask : task.OfTrader) (submitted : Bool) :
    (r.launch task submitted).TradersOnly := by
  refine ⟨h.investors, h.held, h.stands, ?_⟩
  intro x hx
  obtain hx | rfl := Array.mem_push.mp hx
  · exact h.executions x hx
  · exact htask

theorem submitAll {tasks : List Task} (htasks : ∀ task ∈ tasks, task.OfTrader) :
    (r.submitAll tasks).TradersOnly := by
  induction tasks generalizing r with
  | nil => exact h
  | cons task rest ih =>
    obtain ⟨htask, hrest⟩ := List.forall_mem_cons.mp htasks
    exact ih (h.launch htask true) hrest

theorem eraseHeld (place : Nat) : { r with held := r.held.eraseIdx place }.TradersOnly :=
  ⟨h.investors, fun task htask => h.held task (List.mem_of_mem_eraseIdx htask), h.stands, h.executions⟩

theorem endControl {result : Except RunError (List Task)}
    (hresult : ∀ tasks, result = .ok tasks → ∀ task ∈ tasks, task.OfTrader) :
    (r.endControl c result).TradersOnly := by
  have hline : { r with line := r.line.erase c }.TradersOnly := h.of_eq rfl
  have hnothing : ∀ task ∈ (Stand.ended result).tasks, task.OfTrader := by simp [Stand.tasks]
  have hended : ({ r with line := r.line.erase c }.withStand c (.ended result)).TradersOnly :=
    hline.withStand hnothing
  unfold Run.endControl
  cases result with
  | error e => exact hended
  | ok tasks =>
    simp only
    split
    · exact hended.submitAll (hresult tasks rfl)
    · have hheld := List.forall_mem_append.mpr ⟨hended.held, hresult tasks rfl⟩
      exact ⟨hended.investors, hheld, hended.stands, hended.executions⟩

theorem endWith {tasks : List Task} (htasks : ∀ task ∈ tasks, task.OfTrader) :
    (r.endControl c (.ok tasks)).TradersOnly :=
  h.endControl fun _ heq => Except.ok.inj heq ▸ htasks

theorem endFailed (e : RunError) : (r.endControl c (.error e)).TradersOnly :=
  h.endControl fun _ heq => by cases heq

theorem awaitIdentity {stand : Nat → Stand}
    (hstand : ∀ ticket, ∀ task ∈ (stand ticket).tasks, task.OfTrader) :
    (r.awaitIdentity c stand).TradersOnly := by
  refine TradersOnly.withStand ?_ (hstand _)
  exact h.of_eq rfl

theorem toSlot (slot : Nat) {tasks : List Task} (htasks : ∀ task ∈ tasks, task.OfTrader) :
    (r.toSlot scene c slot tasks).TradersOnly := by
  unfold Run.toSlot
  split
  · exact h.awaitIdentity fun _ => htasks
  · exact h.endWith htasks

theorem weigh {climb : Climb} (hclimb : ∀ task ∈ climb.tasks, task.OfTrader) :
    (r.weigh scene c climb).TradersOnly := by
  cases hrise : r.mayRise climb.score with
  | false =>
    rw [weigh_of_not_mayRise hrise]
    refine TradersOnly.endWith ?_ hclimb
    exact h.of_eq rfl
  | true =>
    rw [weigh_of_mayRise hrise]
    split
    · refine TradersOnly.withStand ?_ hclimb
      exact h.of_eq rfl
    · refine TradersOnly.awaitIdentity ?_ fun _ => hclimb
      exact h.of_eq rfl

theorem withInvestor {w : Investor} (hw : w.IsTrader) : (r.withInvestor i w).TradersOnly := by
  refine ⟨?_, h.held, h.stands, h.executions⟩
  intro v hv
  obtain hv | rfl := Array.mem_or_eq_of_mem_setIfInBounds hv
  · exact h.investors v hv
  · exact hw

theorem investor {v : Investor} (hv : r.investors[i]? = some v) : v.IsTrader :=
  h.investors v (Array.mem_of_getElem? hv)

theorem startInvestor (i : Nat) :
    (r.startInvestor i).1.TradersOnly ∧ ∀ task ∈ (r.startInvestor i).2, task.OfTrader := by
  unfold Run.startInvestor
  split
  · exact ⟨h, by simp⟩
  · next v hv =>
    obtain ⟨hinvestor, htask⟩ := Investor.start_ofTrader (h.investor hv) i
    refine ⟨TradersOnly.withInvestor ?_ hinvestor, by simpa using htask⟩
    exact h.of_eq rfl

theorem startFirst : r.startFirst.1.TradersOnly ∧ ∀ task ∈ r.startFirst.2, task.OfTrader := by
  unfold Run.startFirst
  cases r.registry.firstNotStarted? r.life with
  | none => exact ⟨h, by simp⟩
  | some i => exact h.startInvestor i

theorem collectFrom (scene : Scene) {tasks : List Task} (htasks : ∀ task ∈ tasks, task.OfTrader) (i : Nat) :
    (collectFrom scene (r, tasks) i).1.TradersOnly ∧
      ∀ task ∈ (Run.collectFrom scene (r, tasks) i).2, task.OfTrader := by
  unfold Run.collectFrom
  split
  · exact ⟨h, htasks⟩
  · next v hv =>
    split
    · exact ⟨h, htasks⟩
    · next w task hnext =>
      obtain ⟨hw, htask⟩ := Investor.next_ofTrader (h.investor hv) hnext
      refine ⟨(h.withInvestor hw).of_eq rfl, ?_⟩
      exact List.forall_mem_append.mpr ⟨htasks, List.forall_mem_singleton.mpr htask⟩

theorem collectAll (scene : Scene) :
    (r.collectAll scene).1.TradersOnly ∧ ∀ task ∈ (r.collectAll scene).2, task.OfTrader := by
  have hfold (members : List Nat) (tasks : List Task) (htasks : ∀ task ∈ tasks, task.OfTrader) :
      (members.foldl (Run.collectFrom scene) (r, tasks)).1.TradersOnly ∧
        ∀ task ∈ (members.foldl (Run.collectFrom scene) (r, tasks)).2, task.OfTrader := by
    induction members generalizing r tasks with
    | nil => exact ⟨h, htasks⟩
    | cons i rest ih =>
      obtain ⟨hrun, hcollected⟩ := h.collectFrom scene htasks i
      exact ih hrun _ hcollected
  exact hfold _ [] (by simp)

theorem beginTick : (r.beginTick scene c).TradersOnly := by
  obtain ⟨hfirst, hstarted⟩ := h.startFirst
  obtain ⟨hall, hcollected⟩ := hfirst.collectAll scene
  unfold Run.beginTick
  refine TradersOnly.weigh ?_ (List.forall_mem_append.mpr ⟨hstarted, hcollected⟩)
  exact hall.noteControl fun _ => rfl

theorem beginStart (made : Option Fault) : (r.beginStart scene c made).TradersOnly := by
  unfold Run.beginStart
  cases made with
  | some why => exact h.endFailed _
  | none =>
    have hnoted := h.noteControl (c := c) (f := fun x => { x with guest := some r.guests.size }) fun _ => rfl
    refine TradersOnly.withStand ?_ (by simp [Stand.tasks])
    exact hnoted.of_eq rfl

theorem build (hscene : scene.TradersOnly) (id : Identity) (params : Params) (origin : Origin)
    (made : Option Fault) : (r.build scene id params origin made).1.TradersOnly := by
  unfold Run.build
  cases made with
  | some why => exact h.of_eq rfl
  | none =>
    refine ⟨?_, h.held, h.stands, h.executions⟩
    intro v hv
    obtain hv | rfl := Array.mem_push.mp hv
    · exact h.investors v hv
    · exact ⟨false, params.coins, 0, hscene _ params⟩

theorem fund (hscene : scene.TradersOnly) (slot : Nat) {tasks : List Task}
    (htasks : ∀ task ∈ tasks, task.OfTrader) (id : Identity) (made : Option Fault) :
    (r.fund scene c slot tasks id made).TradersOnly := by
  have hbuilt := h.build hscene id (Batch.founding slot) (.founding c slot) made
  unfold Run.fund
  split
  · next why heq =>
    rw [heq] at hbuilt
    exact hbuilt.endFailed _
  · next i heq =>
    rw [heq] at hbuilt
    refine TradersOnly.withStand ?_ htasks
    exact hbuilt.of_eq rfl

theorem recruit (hscene : scene.TradersOnly) (slot : Nat) {climb : Climb}
    (hclimb : ∀ task ∈ climb.tasks, task.OfTrader) (id : Identity) (made : Option Fault) :
    (r.recruit scene c slot climb id made).TradersOnly := by
  have hbuilt := h.build hscene id (Batch.rising r.level climb.price slot)
    (.rising c r.level climb.price slot) made
  unfold Run.recruit
  cases heq : r.build scene id (Batch.rising r.level climb.price slot)
    (.rising c r.level climb.price slot) made with
  | mk built result =>
    rw [heq] at hbuilt
    cases result with
    | error why =>
      simp only [heq]
      exact hbuilt.endFailed _
    | ok i =>
      simp only [heq]
      have htasks : ∀ task ∈ climb.tasks ++ [.enrol i (Batch.rising r.level climb.price slot).credit],
          task.OfTrader :=
        List.forall_mem_append.mpr ⟨hclimb, List.forall_mem_singleton.mpr trivial⟩
      split
      · exact hbuilt.awaitIdentity fun _ => htasks
      · exact hbuilt.weigh htasks

/-- A call that goes on brings no work but that of traders. -/
theorem callMove (hscene : scene.TradersOnly) {x : Control} {a : Step} (hx : r.controls[c]? = some x)
    (hmove : CallMove scene c r x a t) : t.TradersOnly := by
  have htasks := h.stands x (Array.mem_of_getElem? hx)
  cases hmove with
  | start made => exact h.beginStart made
  | tick => exact h.beginTick
  | boot =>
    refine TradersOnly.toSlot ?_ 0 (by simp)
    exact h.of_eq rfl
  | unready =>
    refine TradersOnly.endFailed ?_ _
    exact h.of_eq rfl
  | fund slot ticket tasks pipeline id made hstand =>
    rw [hstand] at htasks
    refine TradersOnly.fund ?_ hscene slot htasks id made
    exact h.of_eq rfl
  | recruit climb slot ticket pipeline id made hstand =>
    rw [hstand] at htasks
    refine TradersOnly.recruit ?_ hscene slot htasks id made
    exact h.of_eq rfl
  | refuse =>
    refine TradersOnly.endFailed ?_ _
    exact h.of_eq rfl
  | register slot i deposit tasks accepted hstand =>
    rw [hstand] at htasks
    have hregistered : (r.registered i deposit accepted).TradersOnly := h.of_eq rfl
    obtain ⟨hrun, hstarted⟩ := hregistered.startInvestor i
    exact hrun.toSlot (slot + 1) (List.forall_mem_append.mpr ⟨htasks, hstarted⟩)
  | weigh climb hstand =>
    rw [hstand] at htasks
    exact h.weigh htasks
  | giveUp =>
    refine TradersOnly.withStand ?_ (by simp [Stand.tasks])
    exact h.of_eq rfl

theorem modifyExecution {f : Execution → Execution} (hf : ∀ x, (f x).task = x.task) :
    { r with executions := r.executions.modify e f }.TradersOnly :=
  ⟨h.investors, h.held, h.stands, forall_mem_modify h.executions fun x hx => by rwa [hf x]⟩

theorem withPhase (phase : Phase) : (r.withPhase e phase).TradersOnly :=
  h.modifyExecution fun _ => rfl

theorem close (phase : Phase) : (r.close e phase).TradersOnly := by
  refine TradersOnly.withPhase ?_ phase
  exact h.of_eq rfl

theorem conclude (failure : Option Fault) : (r.conclude e failure).TradersOnly := by
  cases failure with
  | none => exact h.close _
  | some why => exact (h.close (e := e) (.ended r.now (some why))).of_eq rfl

theorem advance {after : Investor × Progress} (hafter : after.1.IsTrader) :
    (r.advance e i after).TradersOnly := by
  have hinvestor := h.withInvestor (i := i) hafter
  unfold Run.advance
  cases after.2 with
  | waits point => exact hinvestor.withPhase _
  | ended failure => exact hinvestor.conclude failure

theorem beginBody {x : Execution} (hx : r.executions[e]? = some x) : (r.beginBody e).TradersOnly := by
  have htrader : x.task.OfTrader := h.executions x (Array.mem_of_getElem? hx)
  have hbegun : (r.begun e).TradersOnly := h.modifyExecution fun _ => rfl
  have htask : ((r.begun e).executions[e]?).map Execution.task = some x.task := by
    simp [begun, Array.getElem?_modify, hx]
  unfold Run.beginBody
  rw [← begun]
  simp only [htask]
  split
  · next label delay job heq =>
    split
    · next i =>
      cases hv : (r.begun e).investors[i]? with
      | none => exact hbegun
      | some v => exact hbegun.advance ((hbegun.investor hv).beginSignIn _)
    · next i price =>
      cases hv : (r.begun e).investors[i]? with
      | none => exact hbegun
      | some v => exact hbegun.advance ((hbegun.investor hv).beginTrade price)
    · next script =>
      rw [Option.some.inj heq] at htrader
      exact htrader.elim
  · refine TradersOnly.withPhase ?_ _
    exact hbegun.of_eq rfl
  · exact hbegun

/-- An execution that goes on brings no work but that of traders. -/
theorem taskMove {a : Step} {x : Execution} (hx : r.executions[e]? = some x) (hmove : TaskMove e r x a t) :
    t.TradersOnly := by
  have htrader : x.task.OfTrader := h.executions x (Array.mem_of_getElem? hx)
  cases hmove with
  | begin => exact h.beginBody hx
  | delay => exact h.withPhase _
  | drop => exact h.close _
  | hear point i v w reply gain progress _ _ hv hresume =>
    refine TradersOnly.advance ?_ ((h.investor hv).resume hresume)
    exact h.of_eq rfl
  | finish _ _ _ script _ htask =>
    rw [htask] at htrader
    exact htrader.elim
  | stop _ _ _ script _ htask =>
    rw [htask] at htrader
    exact htrader.elim
  | enrol =>
    refine TradersOnly.close ?_ _
    exact h.of_eq rfl

theorem otherMove {a : Step} (hscene : scene.TradersOnly) (hmove : OtherMove scene r a t) :
    t.TradersOnly := by
  cases hmove with
  | enter command => exact h.enter command false
  | launch _ place task submitted htask =>
    exact (h.eraseHeld place).launch (h.held task (List.mem_of_getElem? htask)) submitted
  | discard place => exact h.eraseHeld place
  | drive hdrive =>
    obtain ⟨_, rfl⟩ := drive_eq_some hdrive
    exact (h.enter .start true).of_eq rfl
  | collect hcollect =>
    obtain ⟨_, _, _, _, ⟨_, _, rfl⟩ | ⟨_, _, _, _, rfl⟩⟩ := collect_eq_some hcollect
    · exact h.of_eq rfl
    · exact h.of_eq rfl
  | tick htick =>
    obtain ⟨_, _, _, rfl⟩ := tick_eq_some htick
    exact (h.enter .tick true).of_eq rfl
  | leave _ hleave =>
    obtain ⟨_, _, s, rfl, rfl | ⟨c, x, _, hx, hmove⟩⟩ := leave_eq_some scene hleave
    · exact h.of_eq rfl
    · exact (h.callMove hscene hx hmove).of_eq rfl
  | investor _ _ _ _ hv hmanner => exact h.withInvestor ((h.investor hv).of_manner hmanner)
  | _ => exact h.of_eq rfl

end TradersOnly

/-- Whatever happens, there is no work but that of traders. -/
theorem step_tradersOnly {a : Step} (hscene : scene.TradersOnly) (h : r.step scene a = some t)
    (hr : r.TradersOnly) : t.TradersOnly := by
  obtain ⟨c, x, hx, hmove⟩ | ⟨e, x, hx, hmove⟩ | hmove := step_cases h
  · exact hr.callMove hscene hx hmove
  · exact hr.taskMove hx hmove
  · exact hr.otherMove hscene hmove

end Run

end ExchangeLoad
