import ExchangeLoad.Proofs.Run.Moves

/-!
What a call of the controller can do between two waits. It counts nothing, fails no job, and leaves
the clock and the timed loop alone. To clients it does nothing but create them, to the pipeline
nothing that another caller could not do, and to executions nothing but submit more. It ends with no
error for which the whole run would have to stop.
-/

namespace ExchangeLoad

/-- The execution of a task that was handed over at a time, and at which nobody has looked. -/
def Execution.handed (time : Nat) (submitted : Bool) (task : Task) : Execution :=
  ⟨task, submitted, time, none, .waiting⟩

theorem Investor.next_client {v w : Investor} {number : Nat} {draw : Draw} {task : Task}
    (h : v.next number draw = some (w, task)) : w.client = v.client := by
  unfold Investor.next at h
  split at h
  · split at h
    · obtain ⟨rfl, -⟩ := Prod.mk.inj (Option.some.inj h)
      rfl
    · cases h
  · split at h
    · obtain ⟨cue, _, hcue⟩ := Option.map_eq_some_iff.mp h
      obtain ⟨rfl, -⟩ := Prod.mk.inj hcue
      rfl
    · cases h

namespace Run

/-- What stays as it is while the controller is called. -/
structure Surroundings where
  now : Nat
  tracker : Tracker
  failures : Array Tracker
  aborted : Bool
  signalled : Bool
  shutdowns : Array Shutdown
  notes : Array Note
  loop : Loop
  deadline : Nat

/-- What stays as it is while the controller is called. -/
def surroundings (r : Run) : Surroundings :=
  ⟨r.now, r.tracker, r.failures, r.aborted, r.signalled, r.shutdowns, r.notes, r.loop, r.deadline⟩

/-- The clients of the investors, in the order of building. -/
def clients (r : Run) : List Client := r.investors.toList.map Investor.client

/-- The call with a number went on from one run to another. -/
structure Stretch (scene : Scene) (c : Nat) (r t : Run) : Prop where
  surroundings : t.surroundings = r.surroundings
  pipeline : ∃ acts, r.pipeline.play scene.identity acts = some t.pipeline
  clients : ∃ built, (∀ x ∈ built, x.asked = #[] ∧ x.answers = #[]) ∧ t.clients = r.clients ++ built
  executions : ∃ tasks : List Task,
    t.executions.toList = r.executions.toList ++ tasks.map (Execution.handed r.now true)
  controls : ∀ k, k ≠ c → t.controls[k]? = r.controls[k]?
  result : ∀ e, t.resultOf c = some (.error e) → r.resultOf c = some (.error e) ∨ e.fatal = false
  /-- Whatever is handed over is under way. -/
  inFlight : t.inFlight + r.executions.size = r.inFlight + t.executions.size

variable {scene : Scene} {c : Nat} {r s t : Run}

namespace Stretch

theorem refl (scene : Scene) (c : Nat) (r : Run) : Stretch scene c r r :=
  ⟨rfl, ⟨[], rfl⟩, ⟨[], by simp⟩, ⟨[], by simp⟩, fun _ _ => rfl, fun _ he => .inl he, rfl⟩

theorem trans (h : Stretch scene c r s) (h' : Stretch scene c s t) : Stretch scene c r t := by
  obtain ⟨acts, hacts⟩ := h.pipeline
  obtain ⟨more, hmore⟩ := h'.pipeline
  obtain ⟨built, hnew, hbuilt⟩ := h.clients
  obtain ⟨built', hnew', hbuilt'⟩ := h'.clients
  obtain ⟨tasks, htasks⟩ := h.executions
  obtain ⟨tasks', htasks'⟩ := h'.executions
  have hnow : s.now = r.now := congrArg Surroundings.now h.surroundings
  refine ⟨h'.surroundings.trans h.surroundings, ⟨acts ++ more, ?_⟩, ⟨built ++ built', ?_, ?_⟩,
    ⟨tasks ++ tasks', ?_⟩, ?_, ?_, ?_⟩
  · exact Pipeline.play_append.mpr ⟨s.pipeline, hacts, hmore⟩
  · intro x hx
    obtain hx | hx := List.mem_append.mp hx
    · exact hnew x hx
    · exact hnew' x hx
  · rw [hbuilt', hbuilt, List.append_assoc]
  · rw [htasks', htasks, hnow, List.map_append, List.append_assoc]
  · intro k hk
    rw [h'.controls k hk, h.controls k hk]
  · intro e he
    obtain he | hharmless := h'.result e he
    · exact h.result e he
    · exact .inr hharmless
  · have hbefore := h.inFlight
    have hafter := h'.inFlight
    omega

/-- Records that no part of a stretch looks at may change at will. -/
theorem of_eq (h : (t.surroundings, t.pipeline, t.investors, t.executions, t.inFlight, t.controls) =
    (r.surroundings, r.pipeline, r.investors, r.executions, r.inFlight, r.controls)) :
    Stretch scene c r t := by
  simp only [Prod.mk.injEq] at h
  obtain ⟨hsurroundings, hpipeline, hinvestors, hexecutions, hinFlight, hcontrols⟩ := h
  refine ⟨hsurroundings, ⟨[], by rw [hpipeline]; rfl⟩, ⟨[], by simp, ?_⟩, ⟨[], ?_⟩, ?_, ?_, ?_⟩
  · simp [Run.clients, hinvestors]
  · simp [hexecutions]
  · intro k _
    rw [hcontrols]
  · intro e he
    exact .inl (by simpa only [resultOf, hcontrols] using he)
  · rw [hinFlight, hexecutions]

end Stretch

theorem resultOf_of_getElem? {x : Control} (h : r.controls[c]? = some x) :
    r.resultOf c = match x.stand with
      | .ended result => some result
      | _ => none := by
  unfold resultOf
  rw [h, Option.map_some]
  cases x.stand <;> rfl

theorem weigh_of_not_mayRise {climb : Climb} (h : r.mayRise climb.score = false) :
    r.weigh scene c climb =
      { r with weighings := r.weighings.push ⟨c, r.level, climb.score, r.tracker.errors, none⟩
        }.endControl c (.ok climb.tasks) := by
  simp [weigh, h]

theorem weigh_of_mayRise {climb : Climb} (h : r.mayRise climb.score = true) :
    r.weigh scene c climb =
      if scene.settings.workers = 0 then
        { r with
          weighings := r.weighings.push ⟨c, r.level, climb.score, r.tracker.errors, some r.marketPrice⟩
          level := r.level + 1 }.withStand c (.weighing { climb with price := r.marketPrice })
      else
        { r with
          weighings := r.weighings.push ⟨c, r.level, climb.score, r.tracker.errors, some r.marketPrice⟩
          level := r.level + 1 }.awaitIdentity c (.raising { climb with price := r.marketPrice } 0) := by
  simp [weigh, h]

theorem clients_withInvestor {i : Nat} {w : Investor} :
    (r.withInvestor i w).clients = r.clients.set i w.client := by
  simp [clients, withInvestor, List.map_set]

namespace Stretch

variable (h : Stretch scene c r s)
include h

/-- A call may note things down about itself. -/
theorem noteControl {f : Control → Control} (hf : ∀ x, (f x).stand = x.stand) :
    Stretch scene c r { s with controls := s.controls.modify c f } := by
  refine h.trans ⟨rfl, ⟨[], rfl⟩, ⟨[], by simp, by simp [Run.clients]⟩, ⟨[], by simp⟩, ?_, ?_, rfl⟩
  · intro k hk
    simp [Array.getElem?_modify, hk.symm]
  · intro e he
    refine .inl ?_
    simpa [resultOf, Array.getElem?_modify, Function.comp_def, hf] using he

theorem withStand {stand : Stand} (hstand : ∀ e, stand = .ended (.error e) → e.fatal = false) :
    Stretch scene c r (s.withStand c stand) := by
  refine h.trans ⟨rfl, ⟨[], rfl⟩, ⟨[], by simp, by simp [Run.clients, Run.withStand]⟩,
    ⟨[], by simp [Run.withStand]⟩, ?_, ?_, rfl⟩
  · intro k hk
    simp [Run.withStand, Array.getElem?_modify, hk.symm]
  · intro e he
    cases hx : s.controls[c]? with
    | none => simp [resultOf, Run.withStand, Array.getElem?_modify, hx] at he
    | some x =>
      have hmodified : (s.withStand c stand).controls[c]? = some { x with stand } := by
        simp [Run.withStand, Array.getElem?_modify, hx]
      rw [resultOf_of_getElem? hmodified] at he
      refine .inr (hstand e ?_)
      cases stand <;> simp_all

theorem submitAll (tasks : List Task) : Stretch scene c r (s.submitAll tasks) := by
  induction tasks generalizing s with
  | nil => exact h
  | cons task rest ih =>
    have hlaunch : Stretch scene c s (s.launch task true) := by
      refine ⟨rfl, ⟨[], rfl⟩, ⟨[], by simp, by simp [Run.clients, launch]⟩, ⟨[task], ?_⟩,
        fun _ _ => rfl, fun _ he => .inl he, ?_⟩
      · simp [launch, Execution.handed]
      · simp only [launch, if_true, Array.size_push]
        omega
    exact ih (h.trans hlaunch)

theorem endControl {result : Except RunError (List Task)}
    (hresult : ∀ e, result = .error e → e.fatal = false) :
    Stretch scene c r (s.endControl c result) := by
  have hline : Stretch scene c s { s with line := s.line.erase c } := .of_eq rfl
  have hended := (h.trans hline).withStand fun e he => hresult e (Stand.ended.inj he)
  unfold Run.endControl
  cases result with
  | error e => exact hended
  | ok tasks =>
    simp only
    split
    · exact hended.submitAll tasks
    · exact hended.trans (.of_eq rfl)

theorem endWith (tasks : List Task) : Stretch scene c r (s.endControl c (.ok tasks)) :=
  h.endControl fun _ he => by cases he

theorem endProvisioning (why : String) :
    Stretch scene c r (s.endControl c (.error (.provisioning why))) :=
  h.endControl fun _ he => Except.error.inj he ▸ rfl

theorem endBootstrap (why : String) : Stretch scene c r (s.endControl c (.error (.bootstrap why))) :=
  h.endControl fun _ he => Except.error.inj he ▸ rfl

theorem play (acts : List Pipeline.Act) {pipeline : Pipeline}
    (hacts : s.pipeline.play scene.identity acts = some pipeline) :
    Stretch scene c r { s with pipeline } :=
  h.trans ⟨rfl, ⟨acts, hacts⟩, ⟨[], by simp, by simp [Run.clients]⟩, ⟨[], by simp⟩, fun _ _ => rfl,
    fun _ he => .inl he, rfl⟩

theorem awaitIdentity {stand : Nat → Stand} (hstand : ∀ ticket e, stand ticket ≠ .ended (.error e)) :
    Stretch scene c r (s.awaitIdentity c stand) :=
  (h.play [.join] rfl).withStand fun e he => absurd he (hstand _ e)

theorem toSlot (slot : Nat) (tasks : List Task) : Stretch scene c r (s.toSlot scene c slot tasks) := by
  unfold Run.toSlot
  split
  · exact h.awaitIdentity fun _ _ => Stand.noConfusion
  · exact h.endWith tasks

theorem weigh (climb : Climb) : Stretch scene c r (s.weigh scene c climb) := by
  cases hrise : s.mayRise climb.score with
  | false =>
    rw [weigh_of_not_mayRise hrise]
    refine Stretch.endWith ?_ _
    exact h.trans (.of_eq rfl)
  | true =>
    rw [weigh_of_mayRise hrise]
    split
    · refine Stretch.withStand ?_ fun _ he => by cases he
      exact h.trans (.of_eq rfl)
    · refine Stretch.awaitIdentity ?_ fun _ _ => Stand.noConfusion
      exact h.trans (.of_eq rfl)

/-- What the controller makes of an investor leaves its client alone. -/
theorem withInvestor {i : Nat} {v w : Investor} (hv : s.investors[i]? = some v)
    (hclient : w.client = v.client) : Stretch scene c r (s.withInvestor i w) := by
  refine h.trans ⟨rfl, ⟨[], rfl⟩, ⟨[], by simp, ?_⟩, ⟨[], by simp [Run.withInvestor]⟩, fun _ _ => rfl,
    fun _ he => .inl he, rfl⟩
  obtain ⟨hi, rfl⟩ := Array.getElem?_eq_some_iff.mp hv
  have hi' : i < s.clients.length := by simpa [Run.clients] using hi
  have hsame : s.clients[i] = s.investors[i].client := by simp [Run.clients]
  rw [clients_withInvestor, hclient, List.append_nil, ← hsame, List.set_getElem_self]

theorem startInvestor (i : Nat) : Stretch scene c r (s.startInvestor i).1 := by
  unfold Run.startInvestor
  split
  · exact h
  · next v hv =>
    refine Stretch.withInvestor (v := v) ?_ hv rfl
    exact h.trans (.of_eq rfl)

theorem startFirst : Stretch scene c r s.startFirst.1 := by
  unfold Run.startFirst
  cases s.registry.firstNotStarted? s.life with
  | none => exact h
  | some i => exact h.startInvestor i

theorem collectFrom (tasks : List Task) (i : Nat) :
    Stretch scene c r (collectFrom scene (s, tasks) i).1 := by
  unfold Run.collectFrom
  split
  · exact h
  · next v hv =>
    split
    · exact h
    · next w task hnext =>
      have hinvestor := h.withInvestor hv (Investor.next_client hnext)
      exact hinvestor.trans (.of_eq rfl)

theorem collectAll : Stretch scene c r (s.collectAll scene).1 := by
  have hfold (members : List Nat) (tasks : List Task) :
      Stretch scene c r (members.foldl (Run.collectFrom scene) (s, tasks)).1 := by
    induction members generalizing s tasks with
    | nil => exact h
    | cons i rest ih => exact ih (h.collectFrom tasks i) _
  exact hfold _ []

theorem beginTick : Stretch scene c r (s.beginTick scene c) := by
  unfold Run.beginTick
  refine Stretch.weigh ?_ _
  exact (h.startFirst.collectAll).noteControl fun _ => rfl

theorem beginStart (made : Option Fault) : Stretch scene c r (s.beginStart scene c made) := by
  unfold Run.beginStart
  cases made with
  | some why =>
    exact h.endBootstrap _
  | none =>
    refine Stretch.withStand ?_ fun _ he => by cases he
    have hnoted := h.noteControl (f := fun x => { x with guest := some s.guests.size }) fun _ => rfl
    exact hnoted.trans (.of_eq rfl)

theorem build (id : Identity) (params : Params) (origin : Origin) (made : Option Fault) :
    Stretch scene c r (s.build scene id params origin made).1 := by
  unfold Run.build
  cases made with
  | some why => exact h.trans (.of_eq rfl)
  | none =>
    let credentials := Credentials.investor id (scene.displayName s.named) (scene.secret s.named)
    refine h.trans ⟨rfl, ⟨[], rfl⟩,
      ⟨[.fresh scene.settings.app credentials scene.settings.client], ?_, ?_⟩, ⟨[], by simp⟩,
      fun _ _ => rfl, fun _ he => .inl he, rfl⟩
    · intro x hx
      obtain rfl := List.mem_singleton.mp hx
      exact ⟨rfl, rfl⟩
    · simp [Run.clients, Investor.fresh, credentials]

theorem fund (slot : Nat) (tasks : List Task) (id : Identity) (made : Option Fault) :
    Stretch scene c r (s.fund scene c slot tasks id made) := by
  have hbuilt := h.build id (Batch.founding slot) (.founding c slot) made
  unfold Run.fund
  split
  · next why heq =>
    rw [heq] at hbuilt
    exact hbuilt.endProvisioning _
  · next i heq =>
    rw [heq] at hbuilt
    refine Stretch.withStand ?_ fun _ he => by cases he
    exact hbuilt.trans (.of_eq rfl)

theorem recruit (slot : Nat) (climb : Climb) (id : Identity) (made : Option Fault) :
    Stretch scene c r (s.recruit scene c slot climb id made) := by
  have hbuilt := h.build id (Batch.rising s.level climb.price slot)
    (.rising c s.level climb.price slot) made
  unfold Run.recruit
  cases heq : s.build scene id (Batch.rising s.level climb.price slot)
    (.rising c s.level climb.price slot) made with
  | mk built result =>
    rw [heq] at hbuilt
    cases result with
    | error why =>
      simp only [heq]
      exact hbuilt.endProvisioning _
    | ok i =>
      simp only [heq]
      split
      · exact hbuilt.awaitIdentity fun _ _ => Stand.noConfusion
      · exact hbuilt.weigh _

end Stretch

theorem take_stretch {ticket : Nat} {id : Option Identity} {pipeline : Pipeline}
    (h : r.pipeline.take ticket = some (pipeline, id)) : Stretch scene c r { r with pipeline } := by
  refine (Stretch.refl scene c r).play [.take ticket] ?_
  exact Pipeline.play_cons.mpr ⟨pipeline, by simp [Pipeline.act, h], rfl⟩

/-- A call that goes on is a stretch of the controller. -/
theorem CallMove.stretch {x : Control} {a : Step} (h : CallMove scene c r x a t) : Stretch scene c r t := by
  cases h with
  | start made => exact (Stretch.refl scene c r).beginStart made
  | tick => exact (Stretch.refl scene c r).beginTick
  | boot =>
    refine Stretch.toSlot ?_ _ _
    exact .of_eq rfl
  | unready =>
    refine Stretch.endBootstrap ?_ _
    exact .of_eq rfl
  | fund slot ticket tasks pipeline id made _ htake => exact (take_stretch htake).fund slot tasks id made
  | recruit climb slot ticket pipeline id made _ htake =>
    exact (take_stretch htake).recruit slot climb id made
  | refuse ticket pipeline made _ htake => exact (take_stretch htake).endProvisioning _
  | register slot i =>
    refine Stretch.toSlot (Stretch.startInvestor ?_ i) _ _
    exact .of_eq rfl
  | weigh climb => exact (Stretch.refl scene c r).weigh climb
  | giveUp =>
    refine Stretch.withStand ?_ fun _ he => by cases he
    cases ticketOf x.stand with
    | none => exact .of_eq rfl
    | some ticket =>
      have hleft := (Stretch.refl scene c r).play [.leave ticket] rfl
      exact hleft.trans (.of_eq rfl)

/-- Only a call that is not over goes on. -/
theorem CallMove.not_ended {x : Control} {a : Step} (h : CallMove scene c r x a t)
    (result : Except RunError (List Task)) : x.stand ≠ .ended result := by
  intro hended
  cases h with
  | refuse ticket _ _ hstand =>
    rw [hended] at hstand
    cases hstand
  | giveUp hnot => exact hnot result hended
  | _ => simp_all

end Run

end ExchangeLoad
