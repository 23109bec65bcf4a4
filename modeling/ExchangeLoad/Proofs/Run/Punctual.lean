import ExchangeLoad.Proofs.Run.Stint

/-!
When the body of a task begins. An execution waits until it is looked at, and then for the delay of its
task; the body begins when the delay is over and not before. Until then the execution books nothing.
-/

namespace ExchangeLoad

/-- Whether the body of a task is under way or over. -/
def Phase.launched : Phase → Bool
  | asking _ => true
  | working _ => true
  | depositing _ => true
  | ended .. => true
  | _ => false

/-- An execution keeps to its time: the body began when the delay was over, or has not begun. -/
structure Execution.Punctual (now : Nat) (x : Execution) : Prop where
  since : x.since ≤ now
  began : ∀ time, x.began = some time → x.since + x.task.delay ≤ time ∧ time ≤ now
  delayed : ∀ wake, x.phase = .delayed wake → x.since + x.task.delay ≤ wake
  idle : x.began = none → x.phase.launched = false

theorem Execution.handed_punctual (now : Nat) (submitted : Bool) (task : Task) :
    (Execution.handed now submitted task).Punctual now :=
  ⟨Nat.le_refl _, by simp [Execution.handed], by simp [Execution.handed], fun _ => rfl⟩

theorem Execution.Punctual.later {x : Execution} {now later : Nat} (h : x.Punctual now) (hle : now ≤ later) :
    x.Punctual later := by
  obtain ⟨hsince, hbegan, hdelayed, hidle⟩ := h
  refine ⟨Nat.le_trans hsince hle, fun time htime => ?_, hdelayed, hidle⟩
  obtain ⟨hdelay, hnow⟩ := hbegan time htime
  exact ⟨hdelay, Nat.le_trans hnow hle⟩

/-- How much less is under way once an execution has come to where it stands. -/
def Execution.relief (x : Execution) : Nat := if x.submitted && x.finished then 1 else 0

theorem Execution.relief_of_unfinished {x : Execution} (h : x.finished = false) : x.relief = 0 := by
  simp [relief, h]

namespace Run

/-- The score, the errors and the failures are the same. -/
def SameBooks (r t : Run) : Prop := t.tracker = r.tracker ∧ t.failures = r.failures

/-- No execution went on, and work was handed over that is counted if it was submitted. -/
def Hands (r t : Run) : Prop :=
  ∃ new : List Execution, t.executions.toList = r.executions.toList ++ new ∧
    (∀ z ∈ new, t.now = r.now ∧ ∃ submitted task, z = .handed r.now submitted task) ∧
    t.inFlight = r.inFlight + new.countP Execution.submitted

/-- What a stretch of the execution `x` makes of it. -/
inductive Leg (r t : Run) (x : Execution) : Execution → Prop where
  | delay (hphase : x.phase = .waiting) (haborted : r.aborted = false) (hbooks : SameBooks r t)
      (hdelay : x.task.delay ≠ 0) : Leg r t x { x with phase := .delayed (r.now + x.task.delay) }
  | drop (hphase : x.phase = .waiting ∧ x.task.delay ≠ 0 ∨ ∃ wake, x.phase = .delayed wake)
      (haborted : r.aborted = true) (hbooks : SameBooks r t) : Leg r t x { x with phase := .dropped r.now }
  /-- A body for an investor that was never built does nothing. -/
  | begin (phase : Phase) (hphase : x.phase = .waiting ∧ x.task.delay = 0 ∨
        ∃ wake ≤ r.now, x.phase = .delayed wake)
      (hafter : phase.launched = true ∨ phase = x.phase ∧ SameBooks r t)
      (hbuilt : phase.launched = true ∨ ∃ i, traderOf x.task = some i ∧ r.investors[i]? = none) :
      Leg r t x { x with began := some r.now, phase }
  | go (phase : Phase) (hbefore : x.phase.launched = true) (hafter : phase.launched = true) :
      Leg r t x { x with phase }

/-- A stretch left the execution `x` with number `e` as it was but for a body that is under way or over,
    and counts it no longer if it is over. -/
def Lands (e : Nat) (x : Execution) (s t : Run) : Prop :=
  ∃ phase, phase.launched = true ∧ t.executions.toList = s.executions.toList.set e { x with phase } ∧
    t.inFlight = s.inFlight - Execution.relief { x with phase }

variable {scene : Scene} {r s t : Run} {e i : Nat} {x y : Execution} {a : Step}

theorem conclude_executions (failure : Option Fault) (hx : s.executions[e]? = some x) :
    (s.conclude e failure).executions.toList =
      s.executions.toList.set e { x with phase := .ended s.now failure } := by
  cases failure <;> exact toList_modify_eq_set hx

theorem close_inFlight (phase : Phase) (hfinished : Execution.finished { x with phase } = true)
    (hx : s.executions[e]? = some x) :
    (s.close e phase).inFlight = s.inFlight - Execution.relief { x with phase } := by
  simp only [close, withPhase, hx, Option.elim_some, Execution.relief, hfinished, Bool.and_true]
  split <;> rfl

theorem conclude_lands (failure : Option Fault) (hx : s.executions[e]? = some x) :
    Lands e x s (s.conclude e failure) := by
  refine ⟨.ended s.now failure, rfl, conclude_executions failure hx, ?_⟩
  cases failure <;> exact close_inFlight _ rfl hx

theorem advance_lands (after : Investor × Progress) (hx : s.executions[e]? = some x) :
    Lands e x s (s.advance e i after) := by
  unfold advance
  cases after.2 with
  | waits point =>
    exact ⟨.asking point, rfl, toList_modify_eq_set hx, by rw [Execution.relief_of_unfinished rfl]; rfl⟩
  | ended failure => exact conclude_lands (s := s.withInvestor i after.1) failure hx

theorem perform_lands (script : Script) (hx : s.executions[e]? = some x) : Lands e x s (s.perform e script) := by
  let scored : Run := { s with tracker := s.tracker.addScore script.score }
  unfold perform
  cases script.change with
  | none => exact conclude_lands (s := scored) _ hx
  | some change =>
    cases hv : scored.investors[change.investor]? with
    | none =>
      simp only [show s.investors[change.investor]? = none from hv, Option.elim_none]
      exact conclude_lands (s := scored) _ hx
    | some v =>
      simp only [show s.investors[change.investor]? = some v from hv, Option.elim_some]
      exact conclude_lands (s := scored.withInvestor change.investor (v.change change)) _ hx

theorem beginScript_lands (label : String) (script : Script) (hx : s.executions[e]? = some x) :
    Lands e x s (s.beginScript e label script) := by
  unfold beginScript
  generalize (if s.aborted then "run-cancelled" else "run") = what
  cases script.work with
  | none => exact perform_lands (s := s.note label what) script hx
  | some ms =>
    simp only
    split
    · exact conclude_lands (s := (s.note label what).note label "stopped") none hx
    · exact ⟨.working _, rfl, toList_modify_eq_set hx, by rw [Execution.relief_of_unfinished rfl]; rfl⟩

/-- The body of a task begins, unless it is for an investor that was never built. -/
theorem beginBody_lands (hx : r.executions[e]? = some x) :
    Lands e { x with began := some r.now } (r.begun e) (r.beginBody e) ∨
      r.beginBody e = r.begun e ∧ ∃ i, traderOf x.task = some i ∧ r.investors[i]? = none := by
  have hbegun : (r.begun e).executions[e]? = some { x with began := some r.now } := by
    simp [begun, Array.getElem?_modify, hx]
  unfold beginBody
  rw [← begun]
  simp only [hbegun, Option.map_some]
  generalize ({ x with began := some r.now } : Execution) = z at hbegun ⊢
  cases x.task with
  | exec label delay job =>
    cases job with
    | signIn i =>
      cases hv : (r.begun e).investors[i]? with
      | none => exact .inr ⟨by simp only [hv, Option.elim_none], i, rfl, hv⟩
      | some v =>
        simp only [hv, Option.elim_some]
        exact .inl (advance_lands _ hbegun)
    | trade i price =>
      cases hv : (r.begun e).investors[i]? with
      | none => exact .inr ⟨by simp only [hv, Option.elim_none], i, rfl, hv⟩
      | some v =>
        simp only [hv, Option.elim_some]
        exact .inl (advance_lands _ hbegun)
    | scripted script => exact .inl (beginScript_lands label script hbegun)
  | enrol i credit =>
    exact .inl ⟨.depositing _, rfl, toList_modify_eq_set hbegun, by rw [Execution.relief_of_unfinished rfl]; rfl⟩

/-- What a stretch of an execution comes to for it, for all others, and for the count of those under way;
    and whether it begins the body. -/
theorem TaskMove.stride (hx : r.executions[e]? = some x) (h : TaskMove e r x a t) :
    ∃ y, t.executions.toList = r.executions.toList.set e y ∧ Leg r t x y ∧
      t.inFlight = r.inFlight - y.relief ∧ y.began = if r.opens e a then some r.now else x.began := by
  have hunfinished := h.unfinished
  cases h with
  | begin _ hphase hact =>
    have hbegun : (r.begun e).executions.toList = r.executions.toList.set e { x with began := some r.now } :=
      toList_modify_eq_set hx
    have hopens : r.opens e a = true := by
      obtain ⟨rfl, hdelay⟩ | rfl := hact
      · simp [opens, hx, hdelay]
      · simp [opens]
    rw [if_pos hopens]
    obtain ⟨phase, hlaunched, hexecutions, hinFlight⟩ | ⟨hnothing, hunbuilt⟩ := beginBody_lands hx
    · exact ⟨_, by rw [hexecutions, hbegun, List.set_set],
        .begin phase hphase (.inl hlaunched) (.inl hlaunched), hinFlight, rfl⟩
    · refine ⟨_, by rw [hnothing, hbegun],
        .begin x.phase hphase (.inr ⟨rfl, by rw [hnothing]; exact ⟨rfl, rfl⟩⟩) (.inr hunbuilt), ?_, rfl⟩
      rw [hnothing, Execution.relief_of_unfinished (x := { x with began := some r.now }) hunfinished]
      rfl
  | delay hphase hdelay haborted =>
    exact ⟨_, toList_modify_eq_set hx, .delay hphase haborted ⟨rfl, rfl⟩ hdelay,
      by rw [Execution.relief_of_unfinished rfl]; rfl, by simp [opens, hx, hdelay]⟩
  | drop _ hphase haborted hact =>
    have hopens : r.opens e a = false := by
      obtain ⟨rfl, hdelay⟩ | rfl := hact
      · simp [opens, hx, hdelay]
      · rfl
    exact ⟨_, toList_modify_eq_set hx, .drop hphase haborted ⟨rfl, rfl⟩, close_inFlight _ rfl hx,
      by simp [hopens]⟩
  | hear point i v w reply gain progress hphase =>
    obtain ⟨phase, hlaunched, hexecutions, hinFlight⟩ :=
      advance_lands (s := { r with tracker := r.tracker.addScore gain }) (i := i) (w, progress) hx
    exact ⟨_, hexecutions, .go phase (by rw [hphase]; rfl) hlaunched, hinFlight, rfl⟩
  | finish wake label delay script hphase =>
    obtain ⟨phase, hlaunched, hexecutions, hinFlight⟩ := perform_lands (s := r.note label "done") script hx
    exact ⟨_, hexecutions, .go phase (by rw [hphase]; rfl) hlaunched, hinFlight, rfl⟩
  | stop wake label delay script hphase =>
    obtain ⟨phase, hlaunched, hexecutions, hinFlight⟩ := conclude_lands (s := r.note label "stopped") none hx
    exact ⟨_, hexecutions, .go phase (by rw [hphase]; rfl) hlaunched, hinFlight, rfl⟩
  | enrol deposit i credit accepted hphase =>
    exact ⟨_, toList_modify_eq_set hx, .go _ (by rw [hphase]; rfl) rfl,
      close_inFlight (s := r.registered i deposit accepted) _ rfl hx, rfl⟩

/-- What a stretch of an execution comes to for it, and for all others. -/
theorem TaskMove.leg (hx : r.executions[e]? = some x) (h : TaskMove e r x a t) :
    ∃ y, t.executions.toList = r.executions.toList.set e y ∧ Leg r t x y := by
  obtain ⟨y, hset, hleg, -⟩ := h.stride hx
  exact ⟨y, hset, hleg⟩

namespace Hands

theorem of_eq (hexecutions : t.executions = r.executions) (hinFlight : t.inFlight = r.inFlight) : Hands r t :=
  ⟨[], by simp [hexecutions], by simp, by simp [hinFlight]⟩

theorem getElem?_eq (h : Hands r t) (hx : r.executions[e]? = some x) : t.executions[e]? = some x := by
  obtain ⟨new, happend, -⟩ := h
  rw [← Array.getElem?_toList] at hx ⊢
  rw [happend, List.getElem?_append_left (List.getElem?_eq_some_iff.mp hx).1, hx]

end Hands

theorem Stretch.hands {c : Nat} (h : Stretch scene c r t) : Hands r t := by
  obtain ⟨tasks, hexecutions⟩ := h.executions
  have hnow : t.now = r.now := congrArg Surroundings.now h.surroundings
  have hinFlight := h.inFlight
  refine ⟨tasks.map (Execution.handed r.now true), hexecutions, fun z hz => ?_, ?_⟩
  · obtain ⟨task, -, rfl⟩ := List.mem_map.mp hz
    exact ⟨hnow, true, task, rfl⟩
  · have hsize : t.executions.size = r.executions.size + tasks.length := by
      rw [← Array.length_toList, hexecutions]
      simp
    have hcount : (tasks.map (Execution.handed r.now true)).countP Execution.submitted = tasks.length := by
      simp [List.countP_map, Execution.handed, Function.comp_def]
    omega

theorem OtherMove.hands (h : OtherMove scene r a t) : Hands r t := by
  cases h with
  | launch _ place task submitted =>
    refine ⟨[.handed r.now submitted task], by simp [Run.launch, Execution.handed],
      fun z hz => ⟨rfl, submitted, task, List.mem_singleton.mp hz⟩, ?_⟩
    cases submitted <;> rfl
  | drive hdrive =>
    obtain ⟨_, rfl⟩ := drive_eq_some hdrive
    exact .of_eq rfl rfl
  | collect hcollect =>
    obtain ⟨_, _, _, _, ⟨_, _, rfl⟩ | ⟨_, _, _, _, rfl⟩⟩ := collect_eq_some hcollect
    · exact .of_eq rfl rfl
    · exact .of_eq rfl rfl
  | tick htick =>
    obtain ⟨_, _, _, rfl⟩ := tick_eq_some htick
    exact .of_eq rfl rfl
  | leave cause hleave =>
    obtain ⟨_, _, s, rfl, rfl | ⟨c, z, _, _, hmove⟩⟩ := leave_eq_some scene hleave
    · exact .of_eq rfl rfl
    · exact show Hands r s from hmove.stretch.hands
  | _ => exact .of_eq rfl rfl

/-- A step is the stretch of one execution, or hands work over and lets no execution go on. -/
theorem step_hands (ha : a.execution? = none) (h : r.step scene a = some t) : Hands r t := by
  cases hcall : a.call? with
  | some c =>
    obtain ⟨x, -, hmove⟩ := step_callMove hcall h
    exact hmove.stretch.hands
  | none => exact (step_otherMove hcall ha h).hands

/-- No execution is ever forgotten: a step leaves it as it was, or is a stretch of it. -/
theorem step_kept (h : r.step scene a = some t) (hx : r.executions[e]? = some x) :
    ∃ y, t.executions[e]? = some y ∧ (y = x ∨ Leg r t x y ∧ t.now = r.now) := by
  cases ha : a.execution? with
  | none => exact ⟨x, (step_hands ha h).getElem?_eq hx, .inl rfl⟩
  | some k =>
    obtain ⟨z, hz, hmove⟩ := step_taskMove ha h
    obtain ⟨y, hset, hleg⟩ := hmove.leg hz
    by_cases hk : k = e
    · subst hk
      obtain rfl := Option.some.inj (hz.symm.trans hx)
      exact ⟨y, getElem?_of_set hx hset, .inr ⟨hleg, congrArg Backdrop.now (hmove.backdrop hx)⟩⟩
    · exact ⟨x, (getElem?_of_set_ne hk hset).trans hx, .inl rfl⟩

/-- Where an execution comes from that is there after a step. -/
inductive Arrived (r t : Run) (e : Nat) (y : Execution) : Prop where
  | same (hx : r.executions[e]? = some y)
  | leg (x : Execution) (hx : r.executions[e]? = some x) (hleg : Leg r t x y) (hnow : t.now = r.now)
  | handed (submitted : Bool) (task : Task) (hnone : r.executions[e]? = none)
      (heq : y = .handed r.now submitted task) (hnow : t.now = r.now)

theorem step_executions (h : r.step scene a = some t) (hy : t.executions[e]? = some y) : Arrived r t e y := by
  cases hx : r.executions[e]? with
  | some x =>
    obtain ⟨z, hz, hkept⟩ := step_kept h hx
    obtain rfl := Option.some.inj (hy.symm.trans hz)
    obtain rfl | ⟨hleg, hnow⟩ := hkept
    · exact .same hx
    · exact .leg x hx hleg hnow
  | none =>
    have hlength : r.executions.size ≤ e := by simpa using hx
    cases ha : a.execution? with
    | none =>
      obtain ⟨new, happend, hnew, -⟩ := step_hands ha h
      rw [← Array.getElem?_toList, happend, List.getElem?_append_right (by simpa using hlength)] at hy
      obtain ⟨hnow, submitted, task, heq⟩ := hnew y (List.mem_of_getElem? hy)
      exact .handed submitted task hx heq hnow
    | some k =>
      obtain ⟨z, hz, hmove⟩ := step_taskMove ha h
      obtain ⟨w, hset, -⟩ := hmove.leg hz
      rw [← Array.getElem?_toList, hset, List.getElem?_eq_none (by simpa using hlength)] at hy
      cases hy

theorem Leg.punctual (h : Leg r t x y) (hx : x.Punctual r.now) : y.Punctual r.now := by
  obtain ⟨hsince, hbegan, hdelayed, hidle⟩ := hx
  cases h with
  | delay =>
    refine ⟨hsince, hbegan, fun wake hwake => ?_, fun _ => rfl⟩
    obtain rfl := Phase.delayed.inj hwake
    exact Nat.add_le_add_right hsince _
  | drop => exact ⟨hsince, hbegan, by simp, fun _ => rfl⟩
  | begin phase hphase hafter =>
    have hdue : x.since + x.task.delay ≤ r.now := by
      obtain ⟨-, hzero⟩ | ⟨wake, hnow, hwake⟩ := hphase
      · rwa [hzero]
      · exact Nat.le_trans (hdelayed wake hwake) hnow
    refine ⟨hsince, ?_, fun wake hwake => ?_, by simp⟩
    · rintro time ⟨⟩
      exact ⟨hdue, Nat.le_refl _⟩
    · obtain hlaunched | ⟨rfl, -⟩ := hafter
      · rw [show phase = .delayed wake from hwake] at hlaunched
        cases hlaunched
      · exact hdelayed wake hwake
  | go phase hbefore hafter =>
    refine ⟨hsince, hbegan, fun wake hwake => ?_, fun hnone => ?_⟩
    · rw [show phase = .delayed wake from hwake] at hafter
      cases hafter
    · rw [hidle hnone] at hbefore
      cases hbefore

theorem Leg.task (h : Leg r t x y) : y.task = x.task := by cases h <;> rfl

/-- A body that is under way or over never goes back. -/
theorem step_launched (h : r.step scene a = some t) (hx : r.executions[e]? = some x)
    (hlaunched : x.phase.launched = true) :
    ∃ y, t.executions[e]? = some y ∧ y.phase.launched = true := by
  obtain ⟨y, hy, rfl | ⟨hleg, -⟩⟩ := step_kept h hx
  · exact ⟨y, hy, hlaunched⟩
  · refine ⟨y, hy, ?_⟩
    cases hleg with
    | delay hphase =>
      rw [hphase] at hlaunched
      cases hlaunched
    | drop hphase => obtain ⟨hphase, -⟩ | ⟨_, hphase⟩ := hphase <;> simp [hphase, Phase.launched] at hlaunched
    | begin _ hphase => obtain ⟨hphase, -⟩ | ⟨_, -, hphase⟩ := hphase <;> simp [hphase, Phase.launched] at hlaunched
    | go _ _ hafter => exact hafter

theorem Reaches.launched (h : Reaches scene r t) (hx : r.executions[e]? = some x)
    (hlaunched : x.phase.launched = true) :
    ∃ y, t.executions[e]? = some y ∧ y.phase.launched = true := by
  induction h with
  | refl => exact ⟨x, hx, hlaunched⟩
  | step a _ hstep ih =>
    obtain ⟨y, hy, hlaunched⟩ := ih
    exact step_launched hstep hy hlaunched

/-- All executions keep to their time. -/
def Punctual (r : Run) : Prop := ∀ (e : Nat) (x : Execution), r.executions[e]? = some x → x.Punctual r.now

theorem not_restless_of_quiet (h : r.quiet = true) (hx : r.executions[e]? = some x) :
    r.restless x = false := by
  simp only [quiet, Bool.and_eq_true] at h
  obtain ⟨⟨⟨⟨-, hrest⟩, -⟩, -⟩, -⟩ := h
  obtain ⟨hlength, rfl⟩ := Array.getElem?_eq_some_iff.mp hx
  simpa using Array.all_eq_true.mp hrest e hlength

theorem step_now_le (h : r.step scene a = some t) : r.now ≤ t.now := by
  obtain hnow | ⟨-, hle, -⟩ := (step_onward h).clock
  · exact Nat.le_of_eq hnow.symm
  · exact hle

theorem step_punctual (hr : r.Punctual) (h : r.step scene a = some t) : t.Punctual := by
  intro e y hy
  cases step_executions h hy with
  | same hx => exact (hr e y hx).later (step_now_le h)
  | leg x hx hleg hnow => exact hnow ▸ hleg.punctual (hr e x hx)
  | handed submitted task _ heq hnow => exact heq ▸ hnow ▸ Execution.handed_punctual r.now submitted task

theorem Reaches.punctual (h : Reaches scene r t) (hr : r.executions = #[]) : t.Punctual :=
  h.preserves (fun _ _ _ hs hstep => step_punctual hs hstep) (by simp [Punctual, hr])

end Run

end ExchangeLoad
