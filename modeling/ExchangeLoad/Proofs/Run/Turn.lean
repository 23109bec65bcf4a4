import ExchangeLoad.Proofs.Pipeline.Callers
import ExchangeLoad.Proofs.Run.Census

/-!
What a stretch of a call of the controller comes to, said in terms of the census. `Deed` has one case
for each kind of stretch, with where the call stood, where it stands then, and what it wrote down;
`Turn` adds what became of the controller's line and of the work that was handed out.
-/

namespace ExchangeLoad

/-- Whether a call is over. -/
def Stand.over : Stand → Bool
  | .ended _ => true
  | .dropped => true
  | _ => false

namespace Run

/-- The tasks held and those in execution, once a call has come to stand somewhere. -/
def handing (r : Run) (driven : Bool) : Stand → List Task × List Execution
  | .ended (.ok tasks) =>
    if driven then (r.held, r.executions.toList ++ tasks.map (Execution.handed r.now true))
    else (r.held ++ tasks, r.executions.toList)
  | _ => (r.held, r.executions.toList)

/-- A call has come to stand somewhere, and handed its work out if it ended well. -/
structure Leaves (c : Nat) (r t : Run) (y : Control) : Prop where
  control : t.controls[c]? = some y
  line : t.line = if y.stand.over then r.line.erase c else r.line
  work : (t.held, t.executions.toList) = r.handing y.driven y.stand

/-- A start that has come to a slot waits for an identity for it, or is over after the last slot. -/
inductive ToSlot (scene : Scene) (slot : Nat) (tasks : List Task) (stand : Stand) : Prop where
  | more (ticket : Nat) (hmore : slot < scene.settings.workers) (hstand : stand = .founding slot ticket tasks)
  | done (hdone : scene.settings.workers ≤ slot) (hstand : stand = .ended (.ok tasks))

/-- A tick looked at the level when the census was `b`, which became `b'`. -/
inductive Weighed (scene : Scene) (c : Nat) (r : Run) (b : Census) (climb : Climb) (b' : Census)
    (stand : Stand) : Prop where
  | stay (hrise : r.mayRise climb.score = false) (hstand : stand = .ended (.ok climb.tasks))
      (hcensus : b' = b.weighed ⟨c, r.level, climb.score, r.tracker.errors, none⟩)
  | again (hrise : r.mayRise climb.score = true) (hworkers : scene.settings.workers = 0)
      (hstand : stand = .weighing { climb with price := r.marketPrice })
      (hcensus : b' = b.weighed ⟨c, r.level, climb.score, r.tracker.errors, some r.marketPrice⟩)
  | raise (ticket : Nat) (hrise : r.mayRise climb.score = true) (hworkers : 0 < scene.settings.workers)
      (hstand : stand = .raising { climb with price := r.marketPrice } 0 ticket)
      (hcensus : b' = b.weighed ⟨c, r.level, climb.score, r.tracker.errors, some r.marketPrice⟩)

/-- A climb with one more enrolment to hand out. -/
def recruited (r : Run) (climb : Climb) (slot : Nat) : Climb :=
  { climb with
    tasks := climb.tasks ++ [.enrol r.investors.size (Batch.rising r.level climb.price slot).credit] }

/-- The census once the investor of a slot of a rising batch has been built. -/
def recruitedCensus (r : Run) (c slot : Nat) (climb : Climb) (id : Identity) : Census :=
  r.census.built (.rising c r.level climb.price slot) (id, Batch.rising r.level climb.price slot)

/-- What a stretch of the call `x` with number `c` does: it leaves the call as `y`, the census as `b`,
    and the identities that were taken as `taken`. -/
inductive Deed (scene : Scene) (c : Nat) (r : Run) (x y : Control) (b : Census) (taken : List Identity) :
    Prop where
  | fail (e : RunError) (hstand : y.stand = .ended (.error e)) (houtset : y.outset = x.outset)
      (hcensus : b = r.census)
  | drop (hstand : y.stand = .dropped) (houtset : y.outset = x.outset) (hcensus : b = r.census)
  | boot (guest : Nat) (hbefore : x.stand = .queued) (hcommand : x.command = .start)
      (hline : r.line.head? = some c) (hstand : y.stand = .booting guest) (houtset : y.outset = x.outset)
      (hcensus : b = r.census)
  | found (guest : Nat) (hbefore : x.stand = .booting guest) (hslot : ToSlot scene 0 [] y.stand)
      (houtset : y.outset = x.outset) (hcensus : b = r.census)
  | fund (slot ticket : Nat) (tasks : List Task) (id : Identity) (hbefore : x.stand = .founding slot ticket tasks)
      (hstand : y.stand = .funding slot r.investors.size r.deposits.size tasks)
      (houtset : y.outset = x.outset) (htaken : r.pipeline.taken ++ [id] <+: taken)
      (hcensus : b = (r.census.built (.founding c slot) (id, Batch.founding slot)).deposited id
        (Batch.founding slot).credit)
  | register (slot i deposit : Nat) (tasks started : List Task) (accepted : Bool)
      (hbefore : x.stand = .funding slot i deposit tasks) (hjobs : enrolments started = [])
      (hslot : ToSlot scene (slot + 1) (tasks ++ started) y.stand) (houtset : y.outset = x.outset)
      (hcensus : b = r.census.registered i deposit accepted)
  | tick (tasks : List Task) (hbefore : x.stand = .queued) (hcommand : x.command = .tick)
      (hline : r.line.head? = some c) (hjobs : enrolments tasks = [])
      (houtset : y.outset = some ⟨r.tracker.score, tasks⟩)
      (hweighed : Weighed scene c r r.census ⟨r.tracker.score, 0, tasks⟩ b y.stand)
  | recruit (climb : Climb) (slot ticket next : Nat) (id : Identity)
      (hbefore : x.stand = .raising climb slot ticket) (hmore : slot + 1 < scene.settings.workers)
      (hstand : y.stand = .raising (r.recruited climb slot) (slot + 1) next) (houtset : y.outset = x.outset)
      (htaken : r.pipeline.taken ++ [id] <+: taken) (hcensus : b = r.recruitedCensus c slot climb id)
  | complete (climb : Climb) (slot ticket : Nat) (id : Identity)
      (hbefore : x.stand = .raising climb slot ticket) (hlast : scene.settings.workers ≤ slot + 1)
      (houtset : y.outset = x.outset) (htaken : r.pipeline.taken ++ [id] <+: taken)
      (hweighed : Weighed scene c r (r.recruitedCensus c slot climb id) (r.recruited climb slot) b y.stand)
  | weigh (climb : Climb) (hbefore : x.stand = .weighing climb) (houtset : y.outset = x.outset)
      (hweighed : Weighed scene c r r.census climb b y.stand)

/-- A stretch of the call `x` with number `c`, which leaves it as `y`. -/
structure Turn (scene : Scene) (c : Nat) (r : Run) (x : Control) (t : Run) (y : Control) : Prop
    extends Leaves c r t y where
  before : x.stand.over = false
  command : y.command = x.command
  driven : y.driven = x.driven
  others : ∀ k, k ≠ c → t.controls[k]? = r.controls[k]?
  tracker : t.tracker = r.tracker
  deed : Deed scene c r x y t.census t.pipeline.taken

/-- On its way through a stretch, the call with number `c` has noted down `z` about itself; it still
    holds the controller, and has handed nothing out. -/
structure Midway (c : Nat) (r s : Run) (z : Control) : Prop where
  control : s.controls[c]? = some z
  line : s.line = r.line
  work : (s.held, s.executions) = (r.held, r.executions)
  clock : s.now = r.now

variable {scene : Scene} {c : Nat} {r s t : Run} {x z : Control} {a : Step}

theorem submitAll_keeps (r : Run) (tasks : List Task) :
    (r.submitAll tasks).controls = r.controls ∧ (r.submitAll tasks).line = r.line ∧
    (r.submitAll tasks).held = r.held ∧
    (r.submitAll tasks).executions.toList =
      r.executions.toList ++ tasks.map (Execution.handed r.now true) := by
  induction tasks generalizing r with
  | nil => simp [submitAll]
  | cons task rest ih =>
    obtain ⟨hcontrols, hline, hheld, hexecutions⟩ := ih (r.launch task true)
    refine ⟨hcontrols, hline, hheld, hexecutions.trans ?_⟩
    simp [launch, Execution.handed]

theorem getElem?_withStand {stand : Stand} (hz : s.controls[c]? = some z) :
    (s.withStand c stand).controls[c]? = some { z with stand } := by
  simp [withStand, Array.getElem?_modify, hz]

namespace Midway

theorem refl (hx : r.controls[c]? = some x) : Midway c r r x := ⟨hx, rfl, rfl, rfl⟩

variable (h : Midway c r s z)
include h

/-- Records other than those that matter to a call may change at will. -/
theorem of_eq (hsame : (t.controls, t.line, t.held, t.executions, t.now) =
    (s.controls, s.line, s.held, s.executions, s.now)) : Midway c r t z := by
  simp only [Prod.mk.injEq] at hsame
  obtain ⟨hcontrols, hline, hheld, hexecutions, hnow⟩ := hsame
  refine ⟨?_, hline.trans h.line, ?_, hnow.trans h.clock⟩
  · rw [hcontrols]
    exact h.control
  · rw [hheld, hexecutions]
    exact h.work

/-- A call may note something down about itself. -/
theorem noteControl (f : Control → Control) :
    Midway c r { s with controls := s.controls.modify c f } (f z) :=
  ⟨by simp [Array.getElem?_modify, h.control], h.line, h.work, h.clock⟩

theorem startInvestor (i : Nat) : Midway c r (s.startInvestor i).1 z := by
  refine h.of_eq ?_
  unfold Run.startInvestor
  split <;> rfl

theorem startFirst : Midway c r s.startFirst.1 z := by
  unfold Run.startFirst
  cases s.registry.firstNotStarted? s.life with
  | none => exact h
  | some i => exact h.startInvestor i

theorem collectFrom (scene : Scene) (tasks : List Task) (i : Nat) :
    Midway c r (collectFrom scene (s, tasks) i).1 z := by
  refine h.of_eq ?_
  unfold Run.collectFrom
  split
  · rfl
  · split <;> rfl

theorem collectAll (scene : Scene) : Midway c r (s.collectAll scene).1 z := by
  have hfold (members : List Nat) (tasks : List Task) :
      Midway c r (members.foldl (Run.collectFrom scene) (s, tasks)).1 z := by
    induction members generalizing s tasks with
    | nil => exact h
    | cons i rest ih => exact ih (h.collectFrom scene tasks i) _
  exact hfold _ []

theorem build (scene : Scene) (id : Identity) (params : Params) (origin : Origin) (made : Option Fault) :
    Midway c r (s.build scene id params origin made).1 z := by
  refine h.of_eq ?_
  unfold Run.build
  cases made <;> rfl

theorem withStand {stand : Stand} (hover : stand.over = false) :
    Leaves c r (s.withStand c stand) { z with stand } := by
  obtain ⟨hheld, hexecutions⟩ := Prod.mk.inj h.work
  refine ⟨getElem?_withStand h.control, ?_, ?_⟩
  · simp only [hover, Bool.false_eq_true, if_false]
    exact h.line
  · have hwork : ((s.withStand c stand).held, (s.withStand c stand).executions.toList) =
        (r.held, r.executions.toList) := by simp [Run.withStand, hheld, hexecutions]
    rw [hwork]
    cases stand with
    | ended => cases hover
    | _ => rfl

theorem endFailed (e : RunError) :
    Leaves c r (s.endControl c (.error e)) { z with stand := .ended (.error e) } := by
  obtain ⟨hheld, hexecutions⟩ := Prod.mk.inj h.work
  refine ⟨?_, ?_, ?_⟩
  · exact getElem?_withStand (s := { s with line := s.line.erase c }) h.control
  · simp [endControl, Run.withStand, Stand.over, h.line]
  · simp [endControl, Run.withStand, handing, hheld, hexecutions]

theorem endWith (tasks : List Task) :
    Leaves c r (s.endControl c (.ok tasks)) { z with stand := .ended (.ok tasks) } := by
  obtain ⟨u, hu⟩ : ∃ u, u = { s with line := s.line.erase c }.withStand c (.ended (.ok tasks)) := ⟨_, rfl⟩
  have hcontrol : u.controls[c]? = some { z with stand := .ended (.ok tasks) } := by
    rw [hu]
    exact getElem?_withStand (s := { s with line := s.line.erase c }) h.control
  have hline : u.line = r.line.erase c := by
    rw [hu, ← h.line]
    rfl
  have hwork : (u.held, u.executions) = (r.held, r.executions) := by
    rw [hu, ← h.work]
    rfl
  have hclock : u.now = r.now := by
    rw [hu, ← h.clock]
    rfl
  obtain ⟨hheld, hexecutions⟩ := Prod.mk.inj hwork
  by_cases hdriven : z.driven = true
  · have heq : s.endControl c (.ok tasks) = u.submitAll tasks := by
      simp [endControl, h.control, hdriven, hu]
    obtain ⟨hcontrols', hline', hheld', hexecutions'⟩ := u.submitAll_keeps tasks
    rw [heq]
    refine ⟨?_, ?_, ?_⟩
    · rw [hcontrols', hcontrol]
    · rw [hline', hline]
      rfl
    · rw [hheld', hexecutions', hheld, hexecutions, hclock]
      simp [handing, hdriven]
  · have heq : s.endControl c (.ok tasks) = { u with held := u.held ++ tasks } := by
      simp [endControl, h.control, hdriven, hu]
    rw [heq]
    refine ⟨hcontrol, hline, ?_⟩
    simp [handing, hdriven, hheld, hexecutions]

theorem awaitIdentity (stand : Nat → Stand) (hover : ∀ ticket, (stand ticket).over = false) :
    ∃ ticket, Leaves c r (s.awaitIdentity c stand) { z with stand := stand ticket } := by
  have hjoined : Midway c r { s with pipeline := s.pipeline.join.1 } z :=
    h.of_eq rfl
  exact ⟨s.pipeline.join.2, hjoined.withStand (hover _)⟩

theorem toSlot (scene : Scene) (slot : Nat) (tasks : List Task) :
    ∃ stand, ToSlot scene slot tasks stand ∧ Leaves c r (s.toSlot scene c slot tasks) { z with stand } := by
  unfold Run.toSlot
  split
  · next hmore =>
    obtain ⟨ticket, hleaves⟩ := h.awaitIdentity (.founding slot · tasks) fun _ => rfl
    exact ⟨_, .more ticket hmore rfl, hleaves⟩
  · next hdone => exact ⟨_, .done (Nat.le_of_not_lt hdone) rfl, h.endWith tasks⟩

/-- A look at the level, whatever else the census says by then. -/
theorem weigh (scene : Scene) (climb : Climb)
    (hsame : (s.tracker, s.level, s.marketPrice) = (r.tracker, r.level, r.marketPrice)) :
    ∃ stand, Weighed scene c r s.census climb (s.weigh scene c climb).census stand ∧
      Leaves c r (s.weigh scene c climb) { z with stand } := by
  simp only [Prod.mk.injEq] at hsame
  obtain ⟨htracker, hlevel, hprice⟩ := hsame
  have hmayRise : s.mayRise climb.score = r.mayRise climb.score := by
    simp only [mayRise, hlevel, htracker]
  cases hrise : s.mayRise climb.score with
  | false =>
    have hlooked : Midway c r { s with
        weighings := s.weighings.push ⟨c, s.level, climb.score, s.tracker.errors, none⟩ } z := h.of_eq rfl
    rw [weigh_of_not_mayRise hrise]
    refine ⟨_, .stay (hmayRise ▸ hrise) rfl ?_, hlooked.endWith climb.tasks⟩
    rw [census_endControl, ← hlevel, ← htracker]
    simp [census, Census.weighed]
  | true =>
    obtain ⟨u, hu⟩ : ∃ u, u = { s with
        weighings := s.weighings.push ⟨c, s.level, climb.score, s.tracker.errors, some s.marketPrice⟩
        level := s.level + 1 } := ⟨_, rfl⟩
    have hrisen : Midway c r u z := by
      rw [hu]
      exact h.of_eq rfl
    have hcensus : u.census =
        s.census.weighed ⟨c, r.level, climb.score, r.tracker.errors, some r.marketPrice⟩ := by
      rw [hu, ← hlevel, ← htracker, ← hprice]
      simp [census, Census.weighed]
    rw [weigh_of_mayRise hrise, ← hu, hprice]
    rw [hmayRise] at hrise
    split
    · next hworkers =>
      exact ⟨_, .again hrise hworkers rfl ((census_of_eq rfl).trans hcensus), hrisen.withStand rfl⟩
    · next hworkers =>
      obtain ⟨ticket, hleaves⟩ :=
        hrisen.awaitIdentity (.raising { climb with price := r.marketPrice } 0) fun _ => rfl
      refine ⟨_, .raise ticket hrise (Nat.pos_of_ne_zero hworkers) rfl ?_, hleaves⟩
      exact (census_awaitIdentity _).trans hcensus

end Midway

theorem CallMove.not_over (h : CallMove scene c r x a t) : x.stand.over = false := by
  cases h with
  | refuse ticket _ _ hstand => cases hx : x.stand <;> simp_all [ticketOf, Stand.over]
  | giveUp hended hdropped => cases hx : x.stand <;> simp_all [Stand.over]
  | _ => simp_all [Stand.over]

/-- A stretch of a call is a turn, once it is known what it does. -/
theorem Leaves.turn {y : Control} (hmove : CallMove scene c r x a t) (h : Leaves c r t y)
    (hcommand : y.command = x.command) (hdriven : y.driven = x.driven)
    (hdeed : Deed scene c r x y t.census t.pipeline.taken) : ∃ y, Turn scene c r x t y := by
  have htracker : t.tracker = r.tracker := congrArg Surroundings.tracker hmove.stretch.surroundings
  exact ⟨y, h, hmove.not_over, hcommand, hdriven, hmove.stretch.controls, htracker, hdeed⟩

/-- What is taken for a call in its stretch comes right after what was taken before. -/
theorem taken_of_stretch {ticket : Nat} {pipeline : Pipeline} {id : Identity}
    (htake : r.pipeline.take ticket = some (pipeline, some id)) (h : Stretch scene c { r with pipeline } t) :
    r.pipeline.taken ++ [id] <+: t.pipeline.taken := by
  obtain ⟨acts, hacts⟩ := h.pipeline
  rw [← Pipeline.take_taken htake]
  exact Pipeline.play_taken hacts

theorem beginTick_eq (r : Run) (scene : Scene) (c : Nat) : ∃ u tasks,
    u.census = r.census ∧ (u.tracker, u.level, u.marketPrice) = (r.tracker, r.level, r.marketPrice) ∧
    enrolments tasks = [] ∧ (∀ x, r.controls[c]? = some x → Midway c r u x) ∧
    r.beginTick scene c =
      { u with controls := u.controls.modify c fun x =>
          { x with outset := some ⟨r.tracker.score, tasks⟩ } }.weigh scene c ⟨r.tracker.score, 0, tasks⟩ := by
  obtain ⟨hcensus₁, hprice₁, hjobs₁⟩ := r.startFirst_keeps
  obtain ⟨hcensus₂, hprice₂, hjobs₂⟩ := collectAll_keeps scene r.startFirst.1
  have htracker : (r.startFirst.1.collectAll scene).1.tracker = r.tracker :=
    congrArg Surroundings.tracker ((Stretch.refl scene c r).startFirst.collectAll).surroundings
  refine ⟨(r.startFirst.1.collectAll scene).1, r.startFirst.2 ++ (r.startFirst.1.collectAll scene).2,
    hcensus₂.trans hcensus₁, ?_, by simp [hjobs₁, hjobs₂], ?_, ?_⟩
  · have hlevel := congrArg Census.level (hcensus₂.trans hcensus₁)
    simp only [Prod.mk.injEq]
    exact ⟨htracker, hlevel, hprice₂.trans hprice₁⟩
  · exact fun x hx => (Midway.refl hx).startFirst.collectAll scene
  · rw [← htracker]
    rfl

theorem beginTick_turn (hx : r.controls[c]? = some x) (hmove : CallMove scene c r x a (r.beginTick scene c))
    (hstand : x.stand = .queued) (hcommand : x.command = .tick) (hline : r.line.head? = some c) :
    ∃ y, Turn scene c r x (r.beginTick scene c) y := by
  obtain ⟨u, tasks, hcensus, hsame, hjobs, hmidway, heq⟩ := r.beginTick_eq scene c
  rw [heq] at hmove ⊢
  have hnoted := (hmidway x hx).noteControl fun y => { y with outset := some ⟨r.tracker.score, tasks⟩ }
  obtain ⟨stand, hweighed, hleaves⟩ := hnoted.weigh scene ⟨r.tracker.score, 0, tasks⟩ hsame
  have hcensus' : { u with controls := u.controls.modify c fun y =>
      { y with outset := some ⟨r.tracker.score, tasks⟩ } }.census = r.census := hcensus
  rw [hcensus'] at hweighed
  exact hleaves.turn hmove rfl rfl (.tick tasks hstand hcommand hline hjobs rfl hweighed)

theorem fund_turn {slot ticket : Nat} {tasks : List Task} {pipeline : Pipeline} {id : Identity}
    {made : Option Fault} (hx : r.controls[c]? = some x)
    (hmove : CallMove scene c r x a ({ r with pipeline }.fund scene c slot tasks id made))
    (hstand : x.stand = .founding slot ticket tasks)
    (htake : r.pipeline.take ticket = some (pipeline, some id)) :
    ∃ y, Turn scene c r x ({ r with pipeline }.fund scene c slot tasks id made) y := by
  have htaken := taken_of_stretch htake ((Stretch.refl scene c _).fund slot tasks id made)
  obtain ⟨u, hu⟩ : ∃ u, u = { r with pipeline } := ⟨_, rfl⟩
  have hcensus : u.census = r.census := by rw [hu]; exact census_of_eq rfl
  have hmidway : Midway c r u x := by rw [hu]; exact (Midway.refl hx).of_eq rfl
  rw [← hu] at hmove htaken ⊢
  have hbuilding := hmidway.build scene id (Batch.founding slot) (.founding c slot) made
  unfold fund at hmove htaken ⊢
  cases hbuild : u.build scene id (Batch.founding slot) (.founding c slot) made with
  | mk s result =>
    rw [hbuild] at hbuilding
    cases result with
    | error why =>
      simp only [hbuild] at hmove ⊢
      refine (hbuilding.endFailed _).turn hmove rfl rfl (.fail _ rfl rfl ?_)
      rw [census_endControl, build_error hbuild, hcensus]
    | ok i =>
      simp only [hbuild] at hmove htaken ⊢
      obtain ⟨rfl, hbuilt, -, hid⟩ := build_ok hbuild
      have hdeposits : s.deposits = r.deposits := by
        have hlists := congrArg Census.deposits (hbuilt.trans (congrArg (Census.built · _ _) hcensus))
        exact Array.toList_inj.mp hlists
      have hsize : u.investors.size = r.investors.size := by rw [hu]
      have hfunding : Midway c r { s with
          deposits := s.deposits.push ⟨s.identity u.investors.size, (Batch.founding slot).credit, none⟩ } x :=
        hbuilding.of_eq rfl
      refine (hfunding.withStand rfl).turn hmove rfl rfl ?_
      refine .fund slot ticket tasks id hstand ?_ rfl htaken ?_
      · rw [hsize, hdeposits]
      · rw [hid, ← hcensus, ← hbuilt]
        simp [census, Census.deposited, Run.withStand]

theorem recruit_turn {slot ticket : Nat} {climb : Climb} {pipeline : Pipeline} {id : Identity}
    {made : Option Fault} (hx : r.controls[c]? = some x)
    (hmove : CallMove scene c r x a ({ r with pipeline }.recruit scene c slot climb id made))
    (hstand : x.stand = .raising climb slot ticket)
    (htake : r.pipeline.take ticket = some (pipeline, some id)) :
    ∃ y, Turn scene c r x ({ r with pipeline }.recruit scene c slot climb id made) y := by
  have htaken := taken_of_stretch htake ((Stretch.refl scene c _).recruit slot climb id made)
  obtain ⟨u, hu⟩ : ∃ u, u = { r with pipeline } := ⟨_, rfl⟩
  have hcensus : u.census = r.census := by rw [hu]; exact census_of_eq rfl
  have hmidway : Midway c r u x := by rw [hu]; exact (Midway.refl hx).of_eq rfl
  have hlevel : u.level = r.level := by rw [hu]
  have hsize : u.investors.size = r.investors.size := by rw [hu]
  have hprice : u.marketPrice = r.marketPrice := by rw [hu]; exact marketPrice_congr rfl fun _ => rfl
  rw [← hu] at hmove htaken ⊢
  have hstretch := (Stretch.refl scene c u).build id (Batch.rising r.level climb.price slot)
    (.rising c r.level climb.price slot) made
  have hbuilding := hmidway.build scene id (Batch.rising r.level climb.price slot)
    (.rising c r.level climb.price slot) made
  unfold recruit at hmove htaken ⊢
  rw [hlevel] at hmove htaken ⊢
  cases hbuild : u.build scene id (Batch.rising r.level climb.price slot)
      (.rising c r.level climb.price slot) made with
  | mk s result =>
    rw [hbuild] at hbuilding hstretch
    cases result with
    | error why =>
      simp only [hbuild] at hmove ⊢
      refine (hbuilding.endFailed _).turn hmove rfl rfl (.fail _ rfl rfl ?_)
      rw [census_endControl, build_error hbuild, hcensus]
    | ok i =>
      simp only [hbuild] at hmove htaken ⊢
      obtain ⟨rfl, hbuilt, hprice', -⟩ := build_ok hbuild
      rw [hcensus] at hbuilt
      rw [hsize] at hmove htaken ⊢
      by_cases hmore : slot + 1 < scene.settings.workers
      · rw [if_pos hmore] at hmove htaken ⊢
        obtain ⟨next, hleaves⟩ := hbuilding.awaitIdentity
          (.raising (r.recruited climb slot) (slot + 1)) fun _ => rfl
        refine hleaves.turn hmove rfl rfl (.recruit climb slot ticket next id hstand hmore rfl rfl htaken ?_)
        exact (census_awaitIdentity _).trans hbuilt
      · rw [if_neg hmore] at hmove htaken ⊢
        have htracker : s.tracker = u.tracker := congrArg Surroundings.tracker hstretch.surroundings
        have hutracker : u.tracker = r.tracker := by rw [hu]
        have hslevel : s.level = r.level := congrArg Census.level hbuilt
        have hsame : (s.tracker, s.level, s.marketPrice) = (r.tracker, r.level, r.marketPrice) := by
          rw [htracker, hutracker, hslevel, hprice'.trans hprice]
        obtain ⟨stand, hweighed, hleaves⟩ := hbuilding.weigh scene (r.recruited climb slot) hsame
        rw [hbuilt] at hweighed
        exact hleaves.turn hmove rfl rfl
          (.complete climb slot ticket id hstand (Nat.le_of_not_lt hmore) rfl htaken hweighed)

/-- What a stretch of a call comes to. -/
theorem CallMove.turn (hx : r.controls[c]? = some x) (h : CallMove scene c r x a t) :
    ∃ y, Turn scene c r x t y := by
  have hmidway := Midway.refl hx
  have hmove := h
  cases h with
  | start made hstand hcommand hline =>
    unfold beginStart at hmove ⊢
    cases made with
    | some why => exact (hmidway.endFailed _).turn hmove rfl rfl (.fail _ rfl rfl (census_endControl _))
    | none =>
      have hguest (guests : Array Client) (sessions : Array Session) : Midway c r { r with
          guests, sessions, controls := r.controls.modify c fun y => { y with guest := some r.guests.size } }
          { x with guest := some r.guests.size } :=
        (hmidway.noteControl fun y => { y with guest := some r.guests.size }).of_eq rfl
      refine ((hguest _ _).withStand rfl).turn hmove rfl rfl ?_
      exact .boot _ hstand hcommand hline rfl rfl (census_of_eq rfl)
  | tick _ hstand hcommand hline => exact beginTick_turn hx hmove hstand hcommand hline
  | boot guest hstand =>
    have hheard : Midway c r { r with
        guests := r.guests.modify guest fun g => g.hear (.boot scene.settings.bootstrap) .done } x :=
      hmidway.of_eq rfl
    obtain ⟨stand, hslot, hleaves⟩ := hheard.toSlot scene 0 []
    refine hleaves.turn hmove rfl rfl (.found guest hstand hslot rfl ?_)
    exact (census_toSlot 0 []).trans (census_of_eq rfl)
  | unready guest why hstand =>
    have hheard : Midway c r { r with
        guests := r.guests.modify guest fun g => g.hear (.boot scene.settings.bootstrap) (.failed why) } x :=
      hmidway.of_eq rfl
    refine (hheard.endFailed _).turn hmove rfl rfl (.fail _ rfl rfl ?_)
    exact (census_endControl _).trans (census_of_eq rfl)
  | fund slot ticket tasks pipeline id made hstand htake => exact fund_turn hx hmove hstand htake
  | recruit climb slot ticket pipeline id made hstand htake => exact recruit_turn hx hmove hstand htake
  | refuse ticket pipeline made hstand htake =>
    have hrefused : Midway c r { r with pipeline } x := hmidway.of_eq rfl
    refine (hrefused.endFailed _).turn hmove rfl rfl (.fail _ rfl rfl ?_)
    exact (census_endControl _).trans (census_of_eq rfl)
  | register slot i deposit tasks accepted hstand =>
    obtain ⟨hcensus, -, hjobs⟩ := (r.registered i deposit accepted).startInvestor_keeps i
    have hregistered : Midway c r (r.registered i deposit accepted) x := hmidway.of_eq rfl
    obtain ⟨stand, hslot, hleaves⟩ := (hregistered.startInvestor i).toSlot scene (slot + 1) _
    refine hleaves.turn hmove rfl rfl (.register slot i deposit tasks _ accepted hstand hjobs hslot rfl ?_)
    rw [census_toSlot, hcensus]
    simp [census, Census.registered, Run.registered, settleDeposit, Registry.add]
  | weigh climb hstand =>
    obtain ⟨stand, hweighed, hleaves⟩ := hmidway.weigh scene climb rfl
    exact hleaves.turn hmove rfl rfl (.weigh climb hstand rfl hweighed)
  | giveUp hended hdropped =>
    have hleaves : Leaves c r ({ r with
        pipeline := (ticketOf x.stand).elim r.pipeline r.pipeline.leave
        line := r.line.erase c }.withStand c .dropped) { x with stand := .dropped } :=
      ⟨getElem?_withStand hx, rfl, rfl⟩
    exact hleaves.turn hmove rfl rfl (.drop rfl rfl (census_of_eq rfl))

end Run

end ExchangeLoad
