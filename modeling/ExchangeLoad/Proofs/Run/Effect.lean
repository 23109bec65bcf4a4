import ExchangeLoad.Proofs.Run.Account
import ExchangeLoad.Proofs.Run.Stint
import ExchangeLoad.Proofs.Run.Turn

/-!
What any step comes to for the calls of the controller, the work that they hand out, and the census.
A call goes on, an execution goes on, a call is made, or work changes hands; somebody outside may
throw work away and take investors out of the registry. All other steps leave these things alone.
-/

namespace ExchangeLoad

/-- What no deposit and no registration changes. -/
def Census.history (b : Census) : Nat × List Weighing × List Origin × List (Identity × Params) :=
  (b.level, b.weighings, b.origins, b.cards)

namespace Run

/-- The calls of the controller, the work that was handed out, and the census. -/
structure Affairs where
  controls : Array Control
  line : List Nat
  held : List Task
  executions : Array Execution
  census : Census

/-- The calls of the controller, the work that was handed out, and the census. -/
def affairs (r : Run) : Affairs := ⟨r.controls, r.line, r.held, r.executions, r.census⟩

/-- What a step comes to. -/
inductive Effect (scene : Scene) (a : Step) (r t : Run) : Prop where
  | aside (hsame : t.affairs = r.affairs)
  | turn (c : Nat) (x y : Control) (hx : r.controls[c]? = some x) (h : Turn scene c r x t y)
  | stint (e : Nat) (x y : Execution) (hx : r.executions[e]? = some x) (h : Stint e r x t y)
  | enter (command : Command) (driven : Bool) (hsame : t.affairs = { r.affairs with
      controls := r.controls.push ⟨command, driven, none, none, .queued⟩
      line := r.line ++ [r.controls.size] })
  | launch (place : Nat) (task : Task) (submitted : Bool) (htask : r.held[place]? = some task)
      (hsame : t.affairs = { r.affairs with
        held := r.held.eraseIdx place
        executions := r.executions.push (.handed r.now submitted task) })
  | discard (place : Nat) (ha : a = .discard place)
      (hsame : t.affairs = { r.affairs with held := r.held.eraseIdx place })
  | remove (id : Identity) (ha : a = .remove id) (hsame : t.affairs = { r.affairs with
      census := { r.census with entries := (r.registry.remove r.identity id).1.entries } })

/-- What a step comes to, with what it does to the identities taken and to the counters. -/
structure Advance (scene : Scene) (a : Step) (r t : Run) : Prop where
  effect : Effect scene a r t
  taken : r.pipeline.taken <+: t.pipeline.taken
  floor : t.tracker.floor = r.tracker.floor
  errors : t.tracker.errors = r.tracker.errors ∨ t.tracker.errors = Word.wrap (r.tracker.errors + 1)

/-- No call goes on, though one may be made, and nothing is written that matters to calls. -/
structure Idle (r t : Run) : Prop where
  history : t.census.history = r.census.history
  calls : (t.controls, t.line) = (r.controls, r.line) ∨ ∃ command driven, (t.controls, t.line) =
    (r.controls.push ⟨command, driven, none, none, .queued⟩, r.line ++ [r.controls.size])

/-- No enrolment waits for a delay. -/
def Prompt (r : Run) : Prop :=
  ∀ x ∈ r.executions, ∀ wake, x.phase = .delayed wake → x.task.enrolment? = none

variable {scene : Scene} {kind : Step → Prop} {r s t : Run} {a : Step}

theorem affairs_of_eq (hwork : (t.controls, t.line, t.held, t.executions) =
    (r.controls, r.line, r.held, r.executions)) (hcensus : t.census = r.census) : t.affairs = r.affairs := by
  simp only [Prod.mk.injEq] at hwork
  obtain ⟨hcontrols, hline, hheld, hexecutions⟩ := hwork
  simp only [affairs, hcontrols, hline, hheld, hexecutions, hcensus]

/-- A turn does not depend on where the timed loop stands afterwards. -/
theorem Turn.withLoop {c : Nat} {x y : Control} (h : Turn scene c r x t y) (loop : Loop) :
    Turn scene c r x { t with loop } y :=
  ⟨⟨h.control, h.line, h.work⟩, h.before, h.command, h.driven, h.others, h.tracker, h.deed⟩

theorem OtherMove.effect (h : OtherMove scene r a t) : Effect scene a r t := by
  cases h with
  | enter command => exact .enter command false rfl
  | launch _ place task submitted htask => exact .launch place task submitted htask rfl
  | discard place => exact .discard place rfl rfl
  | remove id => exact .remove id rfl rfl
  | drive hdrive =>
    obtain ⟨_, rfl⟩ := drive_eq_some hdrive
    exact .enter .start true rfl
  | collect hcollect =>
    obtain ⟨_, _, _, _, ⟨_, _, rfl⟩ | ⟨_, _, _, _, rfl⟩⟩ := collect_eq_some hcollect
    · exact .aside rfl
    · exact .aside rfl
  | tick htick =>
    obtain ⟨_, _, _, rfl⟩ := tick_eq_some htick
    exact .enter .tick true rfl
  | leave _ hleave =>
    obtain ⟨_, _, s, rfl, rfl | ⟨c, x, _, hx, hmove⟩⟩ := leave_eq_some scene hleave
    · exact .aside rfl
    · obtain ⟨y, hturn⟩ := hmove.turn hx
      exact .turn c x y hx (hturn.withLoop _)
  | investor _ i v w hv _ _ hidentity hparams =>
    exact .aside (affairs_of_eq rfl (census_withInvestor hv (Investor.card_eq hidentity hparams)))
  | _ => exact .aside rfl

theorem step_effect (hr : r.Prompt) (h : r.step scene a = some t) : Effect scene a r t := by
  obtain ⟨c, x, hx, hmove⟩ | ⟨e, x, hx, hmove⟩ | hmove := step_cases h
  · obtain ⟨y, hturn⟩ := hmove.turn hx
    exact .turn c x y hx hturn
  · obtain ⟨y, hstint⟩ := hmove.stint hx (hr x (Array.mem_of_getElem? hx))
    exact .stint e x y hx hstint
  · exact hmove.effect

/-- A step counts at most one error, and never moves the floor. -/
theorem step_errors (h : r.step scene a = some t) : t.tracker.floor = r.tracker.floor ∧
    (t.tracker.errors = r.tracker.errors ∨ t.tracker.errors = Word.wrap (r.tracker.errors + 1)) := by
  by_cases herror : a = .error
  · subst herror
    obtain rfl := Option.some.inj h
    exact ⟨rfl, .inr rfl⟩
  by_cases habort : a = .abort
  · subst habort
    obtain rfl := Option.some.inj h
    exact ⟨rfl, .inl rfl⟩
  obtain ⟨_, booked, failed, hgrew, hbooked⟩ := step_booked ⟨herror, habort⟩ h
  have hsame : booked.floor = r.tracker.floor ∧ booked.errors = r.tracker.errors := by
    obtain rfl | ⟨gain, rfl⟩ := hgrew <;> exact ⟨rfl, rfl⟩
  rw [hbooked.tracker, ← hsame.1, ← hsame.2]
  cases failed with
  | false => exact ⟨rfl, .inl rfl⟩
  | true => exact ⟨rfl, .inr rfl⟩

theorem step_advance (hr : r.Prompt) (h : r.step scene a = some t) : Advance scene a r t := by
  obtain ⟨acts, hacts⟩ := step_pipeline h
  obtain ⟨hfloor, herrors⟩ := step_errors h
  exact ⟨step_effect hr h, Pipeline.play_taken hacts, hfloor, herrors⟩

theorem pass_advance (r : Run) (ms : Nat) : Advance scene (.wait ms) r { r with now := r.now + ms } :=
  ⟨.aside rfl, List.prefix_refl _, rfl, .inl rfl⟩

/-- What a call hands out at its end is submitted after all other work, or given to its caller. -/
theorem handing_executions (r : Run) (driven : Bool) (stand : Stand) : ∃ tasks : List Task,
    (r.handing driven stand).2 = r.executions.toList ++ tasks.map (Execution.handed r.now true) := by
  cases stand with
  | ended result =>
    cases result with
    | error e => exact ⟨[], by simp [handing]⟩
    | ok tasks =>
      cases driven with
      | true => exact ⟨tasks, rfl⟩
      | false => exact ⟨[], by simp [handing]⟩
  | _ => exact ⟨[], by simp [handing]⟩

theorem Effect.prompt (h : Effect scene a r t) (hr : r.Prompt) : t.Prompt := by
  have hsame (hsame : t.executions = r.executions) : t.Prompt := by rwa [Prompt, hsame]
  cases h with
  | aside h => exact hsame (congrArg Affairs.executions h)
  | turn c x y hx h =>
    intro z hz wake hwake
    obtain ⟨tasks, htasks⟩ := r.handing_executions y.driven y.stand
    have hexecutions : t.executions.toList = r.executions.toList ++ tasks.map (Execution.handed r.now true) :=
      (congrArg Prod.snd h.work).trans htasks
    rw [← Array.mem_toList_iff, hexecutions, List.mem_append] at hz
    obtain hz | hz := hz
    · exact hr z (Array.mem_toList_iff.mp hz) wake hwake
    · obtain ⟨task, _, rfl⟩ := List.mem_map.mp hz
      cases hwake
  | stint e x y hx h =>
    intro z hz wake hwake
    rw [← Array.mem_toList_iff, h.executions] at hz
    obtain hz | rfl := List.mem_or_eq_of_mem_set hz
    · exact hr z (Array.mem_toList_iff.mp hz) wake hwake
    · cases h.errand with
      | job htask => rw [h.task, htask]
      | deposit _ _ _ _ hafter => rw [hafter] at hwake; cases hwake
      | register _ _ _ _ _ _ hafter => rw [hafter] at hwake; cases hwake
  | enter _ _ h => exact hsame (congrArg Affairs.executions h)
  | launch place task submitted _ h =>
    intro z hz wake hwake
    have hexecutions : t.executions = r.executions.push (.handed r.now submitted task) :=
      congrArg Affairs.executions h
    rw [hexecutions] at hz
    obtain hz | rfl := Array.mem_push.mp hz
    · exact hr z hz wake hwake
    · cases hwake
  | discard _ _ h => exact hsame (congrArg Affairs.executions h)
  | remove _ _ h => exact hsame (congrArg Affairs.executions h)

/-- A step takes one call on, or none. -/
theorem Effect.calls (h : Effect scene a r t) :
    (∃ c x y, r.controls[c]? = some x ∧ Turn scene c r x t y) ∨ Idle r t := by
  cases h with
  | turn c x y hx h => exact .inl ⟨c, x, y, hx, h⟩
  | aside h =>
    exact .inr ⟨congrArg (·.census.history) h, .inl (congrArg (fun b => (b.controls, b.line)) h)⟩
  | stint e x y hx h =>
    refine .inr ⟨?_, .inl (congrArg (fun b => (b.controls, b.line)) h.backdrop)⟩
    cases h.errand with
    | job _ hcensus => rw [hcensus]
    | deposit _ _ _ _ _ hcensus => rw [hcensus]; rfl
    | register _ _ _ _ _ _ _ hcensus => rw [hcensus]; rfl
  | enter command driven h =>
    exact .inr ⟨congrArg (·.census.history) h,
      .inr ⟨command, driven, congrArg (fun b => (b.controls, b.line)) h⟩⟩
  | launch _ _ _ _ h =>
    exact .inr ⟨congrArg (·.census.history) h, .inl (congrArg (fun b => (b.controls, b.line)) h)⟩
  | discard _ _ h =>
    exact .inr ⟨congrArg (·.census.history) h, .inl (congrArg (fun b => (b.controls, b.line)) h)⟩
  | remove _ _ h =>
    exact .inr ⟨congrArg (·.census.history) h, .inl (congrArg (fun b => (b.controls, b.line)) h)⟩

theorem Idle.level (h : Idle r t) : t.census.level = r.census.level := congrArg Prod.fst h.history

theorem Idle.weighings (h : Idle r t) : t.census.weighings = r.census.weighings :=
  congrArg (·.2.1) h.history

theorem Idle.origins (h : Idle r t) : t.census.origins = r.census.origins := congrArg (·.2.2.1) h.history

theorem Idle.cards (h : Idle r t) : t.census.cards = r.census.cards := congrArg (·.2.2.2) h.history

theorem Idle.kept {c : Nat} {x : Control} (h : Idle r t) (hx : r.controls[c]? = some x) :
    t.controls[c]? = some x := by
  obtain heq | ⟨command, driven, heq⟩ := h.calls
  · rw [(Prod.mk.inj heq).1, hx]
  · obtain ⟨hc, _⟩ := Array.getElem?_eq_some_iff.mp hx
    rw [(Prod.mk.inj heq).1, Array.getElem?_push, if_neg (Nat.ne_of_lt hc), hx]

theorem Idle.new {c : Nat} {x : Control} (h : Idle r t) (hx : t.controls[c]? = some x) :
    r.controls[c]? = some x ∨ c = r.controls.size ∧ x.stand = .queued ∧ x.outset = none := by
  obtain heq | ⟨command, driven, heq⟩ := h.calls
  · rw [(Prod.mk.inj heq).1] at hx
    exact .inl hx
  · rw [(Prod.mk.inj heq).1, Array.getElem?_push] at hx
    split at hx
    · next hc =>
      obtain rfl := Option.some.inj hx
      exact .inr ⟨hc, rfl, rfl⟩
    · exact .inl hx

theorem Turn.calls {c k : Nat} {x y z : Control} (h : Turn scene c r x t y) (hz : t.controls[k]? = some z) :
    k = c ∧ z = y ∨ k ≠ c ∧ r.controls[k]? = some z := by
  by_cases hk : k = c
  · subst hk
    exact .inl ⟨rfl, Option.some.inj (hz.symm.trans h.control)⟩
  · exact .inr ⟨hk, (h.others k hk).symm.trans hz⟩

theorem Turn.controls_eq {c : Nat} {x y : Control} (h : Turn scene c r x t y) (hx : r.controls[c]? = some x) :
    t.controls.toList = r.controls.toList.set c y := by
  refine List.ext_getElem? fun k => ?_
  by_cases hk : k = c
  · subst hk
    obtain ⟨hc, _⟩ := Array.getElem?_eq_some_iff.mp hx
    rw [List.getElem?_set_self (by simpa using hc), Array.getElem?_toList, h.control]
  · rw [List.getElem?_set_ne (Ne.symm hk), Array.getElem?_toList, Array.getElem?_toList, h.others k hk]

theorem Turn.size_controls {c : Nat} {x y : Control} (h : Turn scene c r x t y)
    (hx : r.controls[c]? = some x) : t.controls.size = r.controls.size := by
  rw [← Array.length_toList, h.controls_eq hx, List.length_set, Array.length_toList]

theorem Idle.size_controls (h : Idle r t) : r.controls.size ≤ t.controls.size := by
  obtain heq | ⟨command, driven, heq⟩ := h.calls
  · exact Nat.le_of_eq (congrArg Array.size (Prod.mk.inj heq).1).symm
  · rw [(Prod.mk.inj heq).1, Array.size_push]
    exact Nat.le_succ _

theorem fresh_prompt (floor ceiling : Int) (capacity drawn : Nat) :
    (fresh floor ceiling capacity drawn).Prompt := by
  simp [Prompt, fresh]

theorem Becomes.prompt (h : Becomes scene kind r t) (hr : r.Prompt) : t.Prompt :=
  h.preserves (fun _ _ _ _ hs hstep => (step_effect hs hstep).prompt hs) (fun _ _ hs => hs) hr

/-- What every advance keeps, a history keeps. -/
theorem Becomes.keeps (Holds : Run → Prop) (h : Becomes scene kind r t) (hwait : ∀ ms, kind (.wait ms))
    (hadvance : ∀ a s t, kind a → Holds s → Advance scene a s t → Holds t) (hprompt : r.Prompt)
    (hr : Holds r) : Holds t := by
  induction h with
  | refl => exact hr
  | step a hs ha hstep ih => exact hadvance a _ _ ha ih (step_advance (hs.prompt hprompt) hstep)
  | pass ms hs ih => exact hadvance (.wait ms) _ _ (hwait ms) ih (pass_advance _ ms)

/-- A call that goes on does not wait for the controller any more. -/
theorem Turn.not_queued {c : Nat} {x y : Control} (h : Turn scene c r x t y) : y.stand ≠ .queued := by
  have hslot {slot : Nat} {tasks : List Task} {stand : Stand} (h : ToSlot scene slot tasks stand) :
      stand ≠ .queued := by
    cases h <;> simp_all
  have hweighed {b b' : Census} {climb : Climb} {stand : Stand} (h : Weighed scene c r b climb b' stand) :
      stand ≠ .queued := by
    cases h <;> simp_all
  cases h.deed with
  | fail _ hstand => simp [hstand]
  | drop hstand => simp [hstand]
  | boot _ _ _ _ hstand => simp [hstand]
  | found _ _ h => exact hslot h
  | fund _ _ _ _ _ hstand => simp [hstand]
  | register _ _ _ _ _ _ _ _ h => exact hslot h
  | tick _ _ _ _ _ _ h => exact hweighed h
  | recruit _ _ _ _ _ _ _ hstand => simp [hstand]
  | complete _ _ _ _ _ _ _ _ h => exact hweighed h
  | weigh _ _ _ h => exact hweighed h

theorem Effect.not_queued {c : Nat} {x : Control} (h : Effect scene a r t) (hx : r.controls[c]? = some x)
    (hstand : x.stand ≠ .queued) : ∃ y, t.controls[c]? = some y ∧ y.stand ≠ .queued ∧ y.command = x.command := by
  obtain ⟨k, z, y, hz, hturn⟩ | hidle := h.calls
  · by_cases hk : c = k
    · subst hk
      obtain rfl := Option.some.inj (hx.symm.trans hz)
      exact ⟨y, hturn.control, hturn.not_queued, hturn.command⟩
    · exact ⟨x, (hturn.others c hk).trans hx, hstand, rfl⟩
  · exact ⟨x, hidle.kept hx, hstand, rfl⟩

/-- A call gets the controller once. -/
theorem Becomes.not_queued {c : Nat} {x : Control} (h : Becomes scene kind r t) (hr : r.Prompt)
    (hx : r.controls[c]? = some x) (hstand : x.stand ≠ .queued) :
    ∃ y, t.controls[c]? = some y ∧ y.stand ≠ .queued ∧ y.command = x.command := by
  induction h with
  | refl => exact ⟨x, hx, hstand, rfl⟩
  | step a hs _ hstep ih =>
    obtain ⟨y, hy, hstand, hcommand⟩ := ih
    obtain ⟨z, hz, hstand, hcommand'⟩ := (step_effect (hs.prompt hr) hstep).not_queued hy hstand
    exact ⟨z, hz, hstand, hcommand'.trans hcommand⟩
  | pass ms _ ih => exact ih

end Run

end ExchangeLoad
