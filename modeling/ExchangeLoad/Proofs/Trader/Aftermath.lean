import ExchangeLoad.Proofs.Run.Punctual
import ExchangeLoad.Proofs.Trader.Discipline

/-!
A run after it was aborted. Work whose delay is not over is dropped, whoever handed it over and whenever;
jobs under way and work without delay go on to their end, but sign nobody up and place no order.
-/

namespace ExchangeLoad

/-- Whether a request signs somebody up or places an order. -/
def Request.commits : Request → Bool
  | signUp => true
  | order .. => true
  | _ => false

/-- The sign-ups and orders that a client asked for, oldest first. -/
def Client.commitments (x : Client) : List Request := x.asked.toList.filter Request.commits

/-- The body of an execution has not begun, and the delay of its task is not over. -/
structure Execution.Barred (now : Nat) (x : Execution) : Prop where
  began : x.began = none
  delay : x.task.delay ≠ 0
  phase : x.phase = .waiting ∨ (∃ wake, x.phase = .delayed wake ∧ now < wake) ∨ ∃ time, x.phase = .dropped time

theorem Execution.Punctual.barred {now : Nat} {x : Execution} (h : x.Punctual now)
    (hlt : now < x.since + x.task.delay) : x.Barred now := by
  obtain ⟨hsince, hbegan, hdelayed, hidle⟩ := h
  have hnone : x.began = none := by
    by_contra hsome
    obtain ⟨time, htime⟩ := Option.ne_none_iff_exists'.mp hsome
    obtain ⟨hdelay, hnow⟩ := hbegan time htime
    omega
  refine ⟨hnone, by omega, ?_⟩
  have hidle := hidle hnone
  cases hphase : x.phase with
  | waiting => exact .inl rfl
  | delayed wake => exact .inr (.inl ⟨wake, rfl, Nat.lt_of_lt_of_le hlt (hdelayed wake hphase)⟩)
  | dropped time => exact .inr (.inr ⟨time, rfl⟩)
  | _ => simp [hphase, Phase.launched] at hidle

theorem Execution.Barred.not_launched {now : Nat} {x : Execution} (h : x.Barred now) :
    x.phase.launched = false := by
  obtain hphase | ⟨_, hphase, -⟩ | ⟨_, hphase⟩ := h.phase <;> rw [hphase] <;> rfl

namespace Investor

variable {v w : Investor} {p : Point} {reply : Reply} {gain : Int} {progress : Progress}

theorem askAt_commitments (h : (v.request p).commits = false) :
    (v.askAt p).1.client.commitments = v.client.commitments := by
  simp [askAt, Client.ask, Client.commitments, h]

theorem heard_commitments : (v.heard p reply).client.commitments = v.client.commitments := rfl

theorem beginSignIn_commitments : (v.beginSignIn true).1.client.commitments = v.client.commitments := rfl

theorem beginTrade_commitments {price : Int} :
    (v.beginTrade price).1.client.commitments = v.client.commitments :=
  askAt_commitments rfl

/-- A job that goes on after the abort asks for nothing but to sign in. -/
theorem Resumed.commitments (h : Resumed v true p reply w gain progress) :
    w.client.commitments = v.client.commitments := by
  cases h with
  | trouble => exact heard_commitments
  | setback => rw [free_client, heard_commitments]
  | signedUp => rw [askAt_commitments rfl, heard_commitments]
  | signedIn => exact heard_commitments
  | desisted => rw [free_client, learn_client, heard_commitments]
  | ordered _ _ _ haborted => cases haborted
  | placed => rw [free_client, settle_client, heard_commitments]

end Investor

namespace Run

/-- The sign-ups and orders that the investor with a number asked for, oldest first; none before it is
    built. -/
def commitments (r : Run) (i : Nat) : List Request := (r.clients[i]?).elim [] Client.commitments

/-- Nobody asked to be signed up or placed an order. -/
def Idles (r t : Run) : Prop := ∀ i, t.commitments i = r.commitments i

variable {scene : Scene} {r r₀ s t : Run} {c e i : Nat} {x y : Execution} {v w : Investor} {a : Step}

namespace Idles

theorem refl (r : Run) : Idles r r := fun _ => rfl

theorem of_investors (h : t.investors = r.investors) : Idles r t := by
  intro i
  simp only [commitments, clients, h]

theorem trans (h : Idles r s) (h' : Idles s t) : Idles r t := fun i => (h' i).trans (h i)

theorem withInvestor (hv : r.investors[i]? = some v) (h : w.client.commitments = v.client.commitments) :
    Idles r (r.withInvestor i w) := by
  intro k
  have hclient : r.clients[i]? = some v.client := by simp [clients, hv]
  unfold commitments
  rw [clients_withInvestor, List.getElem?_set]
  split
  · next hi =>
    subst hi
    obtain ⟨hlength, -⟩ := List.getElem?_eq_some_iff.mp hclient
    rw [if_pos hlength, hclient]
    exact h
  · rfl

theorem conclude (h : Idles r s) (failure : Option Fault) : Idles r (s.conclude e failure) := by
  refine h.trans (.of_investors ?_)
  cases failure <;> rfl

theorem advance (hv : s.investors[i]? = some v) {after : Investor × Progress}
    (h : after.1.client.commitments = v.client.commitments) : Idles s (s.advance e i after) := by
  have hinvestor : Idles s (s.withInvestor i after.1) := .withInvestor hv h
  unfold Run.advance
  cases after.2 with
  | waits point => exact hinvestor.trans (.of_investors rfl)
  | ended failure => exact hinvestor.conclude failure

theorem perform (script : Script) : Idles s (s.perform e script) := by
  have hscored : Idles s { s with tracker := s.tracker.addScore script.score } := .of_investors rfl
  unfold Run.perform
  cases script.change with
  | none => exact hscored.conclude _
  | some change =>
    cases hv : s.investors[change.investor]? with
    | none =>
      simp only [hv, Option.elim_none]
      exact hscored.conclude _
    | some v =>
      simp only [hv, Option.elim_some]
      exact (hscored.trans (.withInvestor (w := v.change change) hv rfl)).conclude _

theorem beginScript (label : String) (script : Script) : Idles s (s.beginScript e label script) := by
  unfold Run.beginScript
  generalize (if s.aborted then "run-cancelled" else "run") = what
  have hnoted : Idles s (s.note label what) := .of_investors rfl
  cases script.work with
  | none => exact hnoted.trans (.perform script)
  | some ms =>
    simp only
    split
    · have hstopped : Idles s ((s.note label what).note label "stopped") := .of_investors rfl
      exact hstopped.conclude none
    · exact hnoted.trans (.of_investors rfl)

end Idles

theorem beginBody_idles (haborted : r.aborted = true) (hx : r.executions[e]? = some x) :
    Idles r (r.beginBody e) := by
  have hbegun : Idles r (r.begun e) := .of_investors rfl
  have htask : ((r.begun e).executions[e]?).map Execution.task = some x.task := by
    simp [begun, Array.getElem?_modify, hx]
  unfold beginBody
  rw [← begun]
  simp only [htask]
  cases x.task with
  | exec label delay job =>
    cases job with
    | signIn i =>
      cases hv : (r.begun e).investors[i]? with
      | none =>
        simp only [hv, Option.elim_none]
        exact hbegun
      | some v =>
        simp only [hv, Option.elim_some, show (r.begun e).aborted = true from haborted]
        exact hbegun.trans (.advance hv Investor.beginSignIn_commitments)
    | trade i price =>
      cases hv : (r.begun e).investors[i]? with
      | none =>
        simp only [hv, Option.elim_none]
        exact hbegun
      | some v =>
        simp only [hv, Option.elim_some]
        exact hbegun.trans (.advance hv Investor.beginTrade_commitments)
    | scripted script => exact hbegun.trans (.beginScript label script)
  | enrol i credit => exact .of_investors rfl

theorem TaskMove.idles (haborted : r.aborted = true) (hx : r.executions[e]? = some x) (h : TaskMove e r x a t) :
    Idles r t := by
  cases h with
  | begin => exact beginBody_idles haborted hx
  | delay => exact .of_investors rfl
  | drop => exact .of_investors rfl
  | hear point i v w reply gain progress _ _ hv hresume =>
    let scored : Run := { r with tracker := r.tracker.addScore gain }
    have hscored : Idles r scored := .of_investors rfl
    rw [haborted] at hresume
    have hquiet := (Investor.resumed_of_resume hresume).commitments
    have hinvestor : scored.investors[i]? = some v := hv
    have hadvanced : Idles scored (scored.advance e i (w, progress)) := .advance hinvestor hquiet
    exact hscored.trans hadvanced
  | finish _ label _ script =>
    have hnoted : Idles r (r.note label "done") := .of_investors rfl
    exact hnoted.trans (.perform script)
  | stop => exact .of_investors rfl
  | enrol => exact .of_investors rfl

theorem CallMove.idles {x : Control} (h : CallMove scene c r x a t) : Idles r t := by
  obtain ⟨built, hnew, hclients⟩ := h.stretch.clients
  intro i
  unfold commitments
  rw [hclients, List.getElem?_append]
  split
  · rfl
  · next hlength =>
    rw [List.getElem?_eq_none (Nat.le_of_not_lt hlength)]
    cases hi : built[i - r.clients.length]? with
    | none => rfl
    | some z => simp [Client.commitments, (hnew z (List.mem_of_getElem? hi)).1]

theorem OtherMove.idles (h : OtherMove scene r a t) : Idles r t := by
  cases h with
  | drive hdrive =>
    obtain ⟨_, rfl⟩ := drive_eq_some hdrive
    exact .of_investors rfl
  | collect hcollect =>
    obtain ⟨_, _, _, _, ⟨_, _, rfl⟩ | ⟨_, _, _, _, rfl⟩⟩ := collect_eq_some hcollect
    · exact .of_investors rfl
    · exact .of_investors rfl
  | tick htick =>
    obtain ⟨_, _, _, rfl⟩ := tick_eq_some htick
    exact .of_investors rfl
  | leave _ hleave =>
    obtain ⟨_, _, s, rfl, rfl | ⟨_, _, _, _, hmove⟩⟩ := leave_eq_some scene hleave
    · exact .of_investors rfl
    · exact hmove.idles
  | investor _ _ v w hv _ _ _ _ _ hasked =>
    exact .withInvestor hv (by rw [Client.commitments, Client.commitments, hasked])
  | _ => exact .of_investors rfl

/-- In a run that has been aborted no step signs anybody up or places an order. -/
theorem step_idles (haborted : r.aborted = true) (h : r.step scene a = some t) : Idles r t := by
  obtain ⟨_, _, _, hmove⟩ | ⟨_, _, hx, hmove⟩ | hmove := step_cases h
  · exact hmove.idles
  · exact hmove.idles haborted hx
  · exact hmove.idles

/-- While an aborted run is quiet, everything whose delay was not over has been dropped. -/
theorem dropped_of_quiet (hquiet : r.quiet = true) (haborted : r.aborted = true)
    (hx : r.executions[e]? = some x) (h : x.Barred r.now) : ∃ time, x.phase = .dropped time := by
  have hrest := not_restless_of_quiet hquiet hx
  obtain hphase | ⟨wake, hphase, -⟩ | hdropped := h.phase
  · simp [restless, hphase] at hrest
  · simp [restless, hphase, haborted] at hrest
  · exact hdropped

theorem Leg.barred (h : Leg r t x y) (haborted : r.aborted = true) (hx : x.Barred r.now) : y.Barred r.now := by
  obtain ⟨hbegan, hdelay, hphase⟩ := hx
  cases h with
  | delay _ hnot => cases hnot.symm.trans haborted
  | drop => exact ⟨hbegan, hdelay, .inr (.inr ⟨_, rfl⟩)⟩
  | begin _ hready =>
    obtain ⟨-, hzero⟩ | ⟨wake, hnow, hwake⟩ := hready
    · exact absurd hzero hdelay
    · obtain hphase | ⟨late, hphase, hlate⟩ | ⟨_, hphase⟩ := hphase
      · cases hwake.symm.trans hphase
      · obtain rfl := Phase.delayed.inj (hwake.symm.trans hphase)
        omega
      · cases hwake.symm.trans hphase
  | go _ hbefore =>
    obtain hphase | ⟨_, hphase, -⟩ | ⟨_, hphase⟩ := hphase <;> simp [hphase, Phase.launched] at hbefore

/-- In `r` the execution with number `e` is of a task with a delay, which is not over. -/
def Pending (r : Run) (e : Nat) (task : Task) : Prop :=
  task.delay ≠ 0 ∧ ∀ y, r.executions[e]? = some y → r.now < y.since + y.task.delay

/-- The run was aborted, and bars everything that was pending at some moment. -/
structure Bars (r₀ r : Run) : Prop where
  aborted : r.aborted = true
  barred : ∀ (e : Nat) (x : Execution), r.executions[e]? = some x → r₀.Pending e x.task → x.Barred r.now

theorem Punctual.bars (hr : r.Punctual) (haborted : r.aborted = true) : Bars r r :=
  ⟨haborted, fun e x hx hpending => (hr e x hx).barred (hpending.2 x hx)⟩

theorem step_bars (hr : Bars r₀ r) (h : r.step scene a = some t) : Bars r₀ t := by
  obtain ⟨haborted, hbarred⟩ := hr
  refine ⟨step_aborted h haborted, fun e y hy hpending => ?_⟩
  cases step_executions h hy with
  | same hx =>
    have hbefore := hbarred e y hx hpending
    obtain hnow | ⟨hquiet, -, -⟩ := (step_onward h).clock
    · rwa [hnow]
    · exact ⟨hbefore.began, hbefore.delay, .inr (.inr (dropped_of_quiet hquiet haborted hx hbefore))⟩
  | leg x hx hleg hnow =>
    rw [hleg.task] at hpending
    exact hnow ▸ hleg.barred haborted (hbarred e x hx hpending)
  | handed submitted task _ heq hnow =>
    subst heq
    exact ⟨rfl, hpending.1, .inl rfl⟩

/-- A stretch of an execution that is dropped in the end books nothing. -/
theorem sameBooks_of_dropped {time : Nat} (h : r.step scene a = some s) (ha : a.execution? = some e)
    (hs : Reaches scene s t) (hx : t.executions[e]? = some x) (hdropped : x.phase = .dropped time) :
    SameBooks r s := by
  obtain ⟨z, hz, hmove⟩ := step_taskMove ha h
  obtain ⟨y, hset, hleg⟩ := hmove.leg hz
  have hy : s.executions[e]? = some y := getElem?_of_set hz hset
  have hnot : y.phase.launched ≠ true := by
    intro hlaunched
    obtain ⟨x', hx', hlaunched⟩ := hs.launched hy hlaunched
    obtain rfl := Option.some.inj (hx.symm.trans hx')
    simp [hdropped, Phase.launched] at hlaunched
  cases hleg with
  | delay _ _ hbooks => exact hbooks
  | drop _ _ hbooks => exact hbooks
  | begin _ _ hafter =>
    obtain hlaunched | ⟨-, hbooks⟩ := hafter
    · exact absurd hlaunched hnot
    · exact hbooks
  | go _ _ hafter => exact absurd hafter hnot

/-- From any moment at which a run has been aborted: no body begins of a task with a delay that was not
    over, or that was handed over later; nobody is signed up and no order is placed any more. And the
    stretches of an execution that is dropped change neither score nor errors, whenever they were. -/
theorem nothing_begins_after_abort (h₀ : r₀.executions = #[]) (h : Reaches scene r₀ r)
    (haborted : r.aborted = true) (hs : Reaches scene r s) :
    (∀ (e : Nat) (x : Execution), s.executions[e]? = some x → x.task.delay ≠ 0 →
      (∀ y, r.executions[e]? = some y → r.now < y.since + y.task.delay) →
      x.began = none ∧ x.phase.launched = false) ∧
    (∀ i, s.commitments i = r.commitments i) ∧
    (∀ (e : Nat) (x : Execution) (time : Nat), s.executions[e]? = some x → x.phase = .dropped time →
      ∀ u a v, Reaches scene r₀ u → u.step scene a = some v → Reaches scene v s → a.execution? = some e →
        v.tracker = u.tracker ∧ v.failures = u.failures) := by
  refine ⟨fun e x hx hdelay hlate => ?_, ?_, ?_⟩
  · have hbars : Bars r s :=
      hs.preserves (fun _ _ _ hr hstep => step_bars hr hstep) ((h.punctual h₀).bars haborted)
    have hbarred := hbars.barred e x hx ⟨hdelay, hlate⟩
    exact ⟨hbarred.began, hbarred.not_launched⟩
  · have hkept : s.aborted = true ∧ Idles r s := by
      induction hs with
      | refl => exact ⟨haborted, .refl r⟩
      | step a _ hstep ih =>
        obtain ⟨haborted, hidles⟩ := ih
        exact ⟨step_aborted hstep haborted, hidles.trans (step_idles haborted hstep)⟩
    exact hkept.2
  · intro e x time hx hdropped u a v _ hstep hv ha
    exact sameBooks_of_dropped hstep ha hv hx hdropped

/-- A seller waits to be signed up and a scripted job is in its delay when the run is aborted; another such
    job is handed over later. Neither job begins, and nobody is signed up again. -/
theorem nothing_begins_after_abort_of_sign_up :
    let scene := Scene.plain 1 0
    let late : Task := .exec "late" 5 (.scripted ⟨none, false, 3, none, none⟩)
    let r₀ : Run := { ofSeller with held := [late, late] }
    let before : List Step := [.submit 0, .look 0, .enter .tick, .proceed 0 none, .execute 1, .look 1, .abort]
    let after : List Step := [.forgo 0, .submit 0, .look 2, .hear 1 .done]
    ∃ r s x y, r₀.play scene before = some r ∧ r.play scene after = some s ∧ s.commitments 0 = [.signUp] ∧
      s.executions[0]? = some x ∧ x.task = late ∧ x.began = none ∧
      s.executions[2]? = some y ∧ y.task = late ∧ y.began = none := by
  intro scene late r₀ before after
  have hplayed : (r₀.play scene before).bind (fun r => (r.play scene after).bind fun s =>
      (r.executions[0]?).bind fun w => (s.executions[0]?).bind fun x => (s.executions[2]?).map fun (y : Execution) =>
      (r.aborted, [r.now, r.executions.size, w.since], r.commitments 0, [w.task, x.task, y.task])) =
      some (true, [0, 2, 0], [.signUp], [late, late, late]) := by
    decide +kernel
  obtain ⟨r, hr, hplayed⟩ := Option.bind_eq_some_iff.mp hplayed
  obtain ⟨s, hs, hplayed⟩ := Option.bind_eq_some_iff.mp hplayed
  obtain ⟨w, hw, hplayed⟩ := Option.bind_eq_some_iff.mp hplayed
  obtain ⟨x, hx, hplayed⟩ := Option.bind_eq_some_iff.mp hplayed
  obtain ⟨y, hy, hvalues⟩ := Option.map_eq_some_iff.mp hplayed
  simp only [Prod.mk.injEq, List.cons.injEq, and_true] at hvalues
  obtain ⟨haborted, ⟨hnow, hsize, hsince⟩, hcommitted, hwlate, hxlate, hylate⟩ := hvalues
  have hdelay : late.delay = 5 := rfl
  obtain ⟨hbegins, hkept, -⟩ := nothing_begins_after_abort rfl (reaches_of_play hr) haborted (reaches_of_play hs)
  refine ⟨r, s, x, y, hr, hs, (hkept 0).trans hcommitted, hx, hxlate, ?_, hy, hylate, ?_⟩
  · refine (hbegins 0 x hx (by simp [hxlate, hdelay]) fun z hz => ?_).1
    obtain rfl := Option.some.inj (hw.symm.trans hz)
    simp [hnow, hsince, hwlate, hdelay]
  · refine (hbegins 2 y hy (by simp [hylate, hdelay]) fun z hz => ?_).1
    simp [Array.getElem?_eq_none (Nat.le_of_eq hsize)] at hz

end Run

end ExchangeLoad
