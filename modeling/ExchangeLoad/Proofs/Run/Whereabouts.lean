import ExchangeLoad.Proofs.Run.Attribution
import ExchangeLoad.Proofs.Run.Traders
import Mathlib.Data.Multiset.Range
import Mathlib.Tactic.Abel

/-!
Where investors are on their way into the registry. One that was built for a founding batch makes its
deposit at once; for one of a later batch, a task is handed out that awaits its turn, makes the deposit,
and enters the investor. A step moves one investor on, brings a new one, or loses some on the way: with a
call that fails or is given up, with a task that is thrown away, or with those taken out of the registry.
-/

namespace ExchangeLoad

namespace Stand

/-- What a call has gathered to hand out, or has handed out at its end. -/
def outlay : Stand → List Task
  | ended (.ok tasks) => tasks
  | stand => stand.tasks

/-- Whether a call ended with an error or was given up. -/
def lost : Stand → Bool
  | ended (.error _) => true
  | dropped => true
  | _ => false

/-- The enrolments that a call is to hand out. -/
def awaiting (stand : Stand) : List (Nat × Int) := enrolments stand.tasks

/-- The investor whose deposit a call waits for, with the number of the deposit. -/
def depositing : Stand → List (Nat × Nat)
  | funding _ i deposit _ => [(i, deposit)]
  | _ => []

end Stand

namespace Execution

/-- The enrolment that an execution is to begin with. -/
def awaiting (e : Execution) : List (Nat × Int) :=
  match e.phase with
  | .waiting => e.task.enrolment?.toList
  | _ => []

/-- The investor whose deposit an execution waits for, with the number of the deposit. -/
def depositing (e : Execution) : List (Nat × Nat) :=
  match e.phase with
  | .depositing deposit => e.task.enrolment?.toList.map fun p => (p.1, deposit)
  | _ => []

end Execution

namespace Run

/-- The enrolments that have not made their deposit, each as the investor and the credit it names. -/
def awaiting (r : Run) : Multiset (Nat × Int) :=
  ↑(r.controls.toList.flatMap (·.stand.awaiting)) + ↑(enrolments r.held) +
    ↑(r.executions.toList.flatMap Execution.awaiting)

/-- The investors that wait for their deposit, each with the number of the deposit. -/
def depositing (r : Run) : Multiset (Nat × Nat) :=
  ↑(r.controls.toList.flatMap (·.stand.depositing)) + ↑(r.executions.toList.flatMap Execution.depositing)

/-- All investors on their way into the registry, and those that are in it. -/
def whereabouts (r : Run) : Multiset Nat :=
  r.awaiting.map Prod.fst + r.depositing.map Prod.fst + ↑r.registry.entries

/-- Something on the way into the registry may get lost in a step, or be taken out again. -/
def Lossy (a : Step) (t : Run) : Prop :=
  (∃ place, a = .discard place) ∨ (∃ id, a = .remove id) ∨ ∃ x ∈ t.controls, x.stand.lost = true

/-- What a step does to the investors that are on their way into the registry. -/
inductive Flow (a : Step) (r t : Run) : Prop where
  | keep (hawaiting : t.awaiting = r.awaiting) (hdepositing : t.depositing = r.depositing)
      (hcards : t.census.cards = r.census.cards) (hdeposits : t.census.deposits = r.census.deposits)
      (hentries : t.census.entries = r.census.entries)
  | lose (hlossy : t.Lossy a) (hawaiting : t.awaiting ≤ r.awaiting) (hdepositing : t.depositing ≤ r.depositing)
      (hcards : t.census.cards = r.census.cards) (hdeposits : t.census.deposits = r.census.deposits)
      (hentries : t.census.entries.Sublist r.census.entries)
  | recruit (id : Identity) (params : Params) (htaken : r.pipeline.taken ++ [id] <+: t.pipeline.taken)
      (hawaiting : t.awaiting = r.awaiting + {(r.investors.size, params.credit)})
      (hdepositing : t.depositing = r.depositing)
      (hcards : t.census.cards = r.census.cards ++ [(id, params)])
      (hdeposits : t.census.deposits = r.census.deposits) (hentries : t.census.entries = r.census.entries)
  | fund (id : Identity) (params : Params) (htaken : r.pipeline.taken ++ [id] <+: t.pipeline.taken)
      (hawaiting : t.awaiting = r.awaiting)
      (hdepositing : t.depositing = r.depositing + {(r.investors.size, r.deposits.size)})
      (hcards : t.census.cards = r.census.cards ++ [(id, params)])
      (hdeposits : t.census.deposits = r.census.deposits ++ [⟨id, params.credit, none⟩])
      (hentries : t.census.entries = r.census.entries)
  | deposit (i : Nat) (credit : Int) (hawaiting : r.awaiting = t.awaiting + {(i, credit)})
      (hdepositing : t.depositing = r.depositing + {(i, r.deposits.size)})
      (hcards : t.census.cards = r.census.cards)
      (hdeposits : t.census.deposits = r.census.deposits ++ [⟨r.identity i, credit, none⟩])
      (hentries : t.census.entries = r.census.entries)
  | register (i deposit : Nat) (accepted : Bool) (hawaiting : t.awaiting = r.awaiting)
      (hdepositing : r.depositing = t.depositing + {(i, deposit)})
      (hcards : t.census.cards = r.census.cards)
      (hdeposits : t.census.deposits =
        r.census.deposits.modify deposit fun d => { d with outcome := some accepted })
      (hentries : t.census.entries = r.census.entries ++ [i])

variable {scene : Scene} {c e : Nat} {r t : Run} {a : Step} {x y : Control} {b b' : Census}

theorem coe_flatMap_set {α β : Type} {f : α → List β} {l : List α} {i : Nat} {x y : α} (hx : l[i]? = some x) :
    (↑((l.set i y).flatMap f) + ↑(f x) : Multiset β) = ↑(l.flatMap f) + ↑(f y) := by
  induction l generalizing i with
  | nil => simp at hx
  | cons z l ih =>
    cases i with
    | zero =>
      obtain rfl : z = x := by simpa using hx
      simp only [List.set_cons_zero, List.flatMap_cons, ← Multiset.coe_add]
      ac_rfl
    | succ i =>
      have hrest := ih (i := i) (by simpa using hx)
      simp only [List.set_cons_succ, List.flatMap_cons, ← Multiset.coe_add, add_assoc, hrest]

theorem coe_flatMap_eraseIdx {α β : Type} {f : α → List β} {l : List α} {i : Nat} {x : α} (hx : l[i]? = some x) :
    (↑(l.flatMap f) : Multiset β) = ↑((l.eraseIdx i).flatMap f) + ↑(f x) := by
  obtain ⟨hi, rfl⟩ := List.getElem?_eq_some_iff.mp hx
  have hperm := (List.getElem_cons_eraseIdx_perm hi).flatMap_right f
  rw [← Multiset.coe_eq_coe.mpr hperm, List.flatMap_cons, ← Multiset.coe_add, add_comm]

theorem outlay_of_not_over {stand : Stand} (h : stand.over = false) : stand.outlay = stand.tasks := by
  cases stand <;> simp_all [Stand.over, Stand.outlay]

/-- All work that calls gather, that is held, or that is in execution, where `f` tells what a task comes to
    and `g` what an execution does. -/
def tally {β : Type} (f : Task → List β) (g : Execution → List β) (r : Run) : Multiset β :=
  ↑(r.controls.toList.flatMap fun x => x.stand.tasks.flatMap f) + ↑(r.held.flatMap f) +
    ↑(r.executions.toList.flatMap g)

section Tally

variable {β : Type} {f : Task → List β} {g : Execution → List β}

theorem tally_handed (hg : ∀ now submitted task, g (.handed now submitted task) = f task) (now : Nat)
    (submitted : Bool) (tasks : List Task) :
    (tasks.map (Execution.handed now submitted)).flatMap g = tasks.flatMap f := by
  rw [List.flatMap_map]
  exact List.flatMap_congr fun task _ => hg now submitted task

/-- The work that a call has gathered is handed out once. -/
theorem tally_handing (hg : ∀ now submitted task, g (.handed now submitted task) = f task) (r : Run)
    (driven : Bool) (stand : Stand) :
    (↑(stand.tasks.flatMap f) + ↑((r.handing driven stand).1.flatMap f) +
      ↑((r.handing driven stand).2.flatMap g) : Multiset β) =
    ↑(stand.outlay.flatMap f) + ↑(r.held.flatMap f) + ↑(r.executions.toList.flatMap g) := by
  cases stand with
  | ended result =>
    cases result with
    | error e => rfl
    | ok tasks =>
      cases driven with
      | true =>
        simp only [handing, if_true, List.flatMap_append, tally_handed hg, Stand.tasks, Stand.outlay,
          List.flatMap_nil, Multiset.coe_nil, ← Multiset.coe_add]
        abel
      | false =>
        simp only [handing, Bool.false_eq_true, if_false, List.flatMap_append, Stand.tasks, Stand.outlay,
          List.flatMap_nil, Multiset.coe_nil, ← Multiset.coe_add]
        abel
  | _ => rfl

/-- A stretch of a call adds to all work what it adds to the work of the call. -/
theorem Turn.tally (hg : ∀ now submitted task, g (.handed now submitted task) = f task)
    (h : Turn scene c r x t y) (hx : r.controls[c]? = some x) :
    t.tally f g + ↑(x.stand.outlay.flatMap f) = r.tally f g + ↑(y.stand.outlay.flatMap f) := by
  have hset := coe_flatMap_set (f := fun z : Control => z.stand.tasks.flatMap f) (y := y)
    (show r.controls.toList[c]? = some x by rw [Array.getElem?_toList, hx])
  have hwork := tally_handing hg r y.driven y.stand
  have hheld : t.held = (r.handing y.driven y.stand).1 := congrArg Prod.fst h.work
  have hexecutions : t.executions.toList = (r.handing y.driven y.stand).2 := congrArg Prod.snd h.work
  rw [← hheld, ← hexecutions] at hwork
  simp only [← h.controls_eq hx] at hset
  rw [outlay_of_not_over h.before]
  -- What the call still gathers is part of both sides, so that it can be added to them.
  refine add_right_cancel (b := (↑(y.stand.tasks.flatMap f) : Multiset β)) ?_
  calc t.tally f g + ↑(x.stand.tasks.flatMap f) + ↑(y.stand.tasks.flatMap f)
      = (↑(t.controls.toList.flatMap fun z => z.stand.tasks.flatMap f) + ↑(x.stand.tasks.flatMap f)) +
          (↑(y.stand.tasks.flatMap f) + ↑(t.held.flatMap f) + ↑(t.executions.toList.flatMap g)) := by
        rw [Run.tally]
        abel
    _ = (↑(r.controls.toList.flatMap fun z => z.stand.tasks.flatMap f) + ↑(y.stand.tasks.flatMap f)) +
          (↑(y.stand.outlay.flatMap f) + ↑(r.held.flatMap f) + ↑(r.executions.toList.flatMap g)) := by
        rw [hset, hwork]
    _ = r.tally f g + ↑(y.stand.outlay.flatMap f) + ↑(y.stand.tasks.flatMap f) := by
        rw [Run.tally]
        abel

theorem Turn.tally_of_gain (hg : ∀ now submitted task, g (.handed now submitted task) = f task) (gain : List β)
    (h : Turn scene c r x t y) (hx : r.controls[c]? = some x)
    (hgain : y.stand.outlay.flatMap f = x.stand.outlay.flatMap f ++ gain) :
    t.tally f g = r.tally f g + ↑gain := by
  have hsum := h.tally hg hx
  rw [hgain, ← Multiset.coe_add] at hsum
  exact add_right_cancel (hsum.trans (by abel))

/-- A stretch of an execution changes in all work what it changes in the work of the execution. -/
theorem tally_of_execution {x y : Execution} (hcontrols : t.controls = r.controls) (hheld : t.held = r.held)
    (hexecutions : t.executions.toList = r.executions.toList.set e y) (hx : r.executions[e]? = some x) :
    t.tally f g + ↑(g x) = r.tally f g + ↑(g y) := by
  have hset := coe_flatMap_set (f := g) (y := y)
    (show r.executions.toList[e]? = some x by rw [Array.getElem?_toList, hx])
  rw [← hexecutions] at hset
  rw [Run.tally, Run.tally, hcontrols, hheld, add_assoc, hset, ← add_assoc]

/-- Work that changes hands stays the same. -/
theorem tally_launch {place : Nat} {task : Task} {submitted : Bool}
    (hg : ∀ now submitted task, g (.handed now submitted task) = f task) (htask : r.held[place]? = some task)
    (hcontrols : t.controls = r.controls) (hheld : t.held = r.held.eraseIdx place)
    (hexecutions : t.executions = r.executions.push (.handed r.now submitted task)) :
    t.tally f g = r.tally f g := by
  rw [Run.tally, Run.tally, hcontrols, hheld, hexecutions, coe_flatMap_eraseIdx (f := f) htask, Array.toList_push,
    List.flatMap_append, List.flatMap_singleton, hg, ← Multiset.coe_add]
  abel

/-- Throwing work away leaves no more of it. -/
theorem tally_discard (place : Nat) (hcontrols : t.controls = r.controls)
    (hheld : t.held = r.held.eraseIdx place) (hexecutions : t.executions = r.executions) :
    t.tally f g ≤ r.tally f g := by
  rw [Run.tally, Run.tally, hcontrols, hheld, hexecutions]
  have hsublist : ((r.held.eraseIdx place).flatMap f).Sublist (r.held.flatMap f) :=
    (List.eraseIdx_sublist ..).flatMap f
  gcongr
  exact hsublist.subperm

end Tally

theorem awaiting_eq_tally (r : Run) :
    r.awaiting = r.tally (·.enrolment?.toList) Execution.awaiting := by
  simp only [Run.awaiting, tally, Stand.awaiting, enrolments, List.filterMap_eq_flatMap_toList]

theorem awaiting_handed (now : Nat) (submitted : Bool) (task : Task) :
    (Execution.handed now submitted task).awaiting = task.enrolment?.toList := rfl

theorem depositing_handed (now : Nat) (submitted : Bool) (tasks : List Task) :
    (tasks.map (Execution.handed now submitted)).flatMap Execution.depositing = [] := by
  induction tasks with
  | nil => rfl
  | cons task rest ih =>
    rw [List.map_cons, List.flatMap_cons, ih]
    rfl

theorem depositing_handing (r : Run) (driven : Bool) (stand : Stand) :
    (r.handing driven stand).2.flatMap Execution.depositing =
      r.executions.toList.flatMap Execution.depositing := by
  obtain ⟨tasks, htasks⟩ := r.handing_executions driven stand
  rw [htasks, List.flatMap_append, depositing_handed, List.append_nil]

/-- A stretch of a call adds to the awaiting enrolments what it adds to those of the call. -/
theorem Turn.awaiting (h : Turn scene c r x t y) (hx : r.controls[c]? = some x) :
    t.awaiting + ↑(enrolments x.stand.outlay) = r.awaiting + ↑(enrolments y.stand.outlay) := by
  simp only [awaiting_eq_tally, enrolments, List.filterMap_eq_flatMap_toList]
  exact h.tally awaiting_handed hx

theorem Turn.depositing (h : Turn scene c r x t y) (hx : r.controls[c]? = some x) :
    t.depositing + ↑x.stand.depositing = r.depositing + ↑y.stand.depositing := by
  have hset := coe_flatMap_set (f := fun z : Control => z.stand.depositing) (y := y)
    (show r.controls.toList[c]? = some x by rw [Array.getElem?_toList, hx])
  have hexecutions : t.executions.toList = (r.handing y.driven y.stand).2 := congrArg Prod.snd h.work
  simp only [← h.controls_eq hx] at hset
  unfold Run.depositing
  rw [hexecutions, depositing_handing, add_right_comm, hset, add_right_comm]

theorem Turn.awaiting_of_gain (gain : List (Nat × Int)) (h : Turn scene c r x t y)
    (hx : r.controls[c]? = some x) (hgain : enrolments y.stand.outlay = enrolments x.stand.outlay ++ gain) :
    t.awaiting = r.awaiting + ↑gain := by
  simp only [enrolments, List.filterMap_eq_flatMap_toList] at hgain
  rw [awaiting_eq_tally, awaiting_eq_tally]
  exact h.tally_of_gain awaiting_handed gain hx hgain

theorem Turn.depositing_of_gain (gain : List (Nat × Nat)) (h : Turn scene c r x t y)
    (hx : r.controls[c]? = some x) (hgain : y.stand.depositing = x.stand.depositing ++ gain) :
    t.depositing = r.depositing + ↑gain := by
  have hsum := h.depositing hx
  rw [hgain, ← Multiset.coe_add] at hsum
  exact add_right_cancel (hsum.trans (by abel))

theorem ToSlot.outlay {slot : Nat} {tasks : List Task} {stand : Stand} (h : ToSlot scene slot tasks stand) :
    stand.outlay = tasks ∧ stand.depositing = [] := by
  cases h with
  | more _ _ hstand => rw [hstand]; exact ⟨rfl, rfl⟩
  | done _ hstand => rw [hstand]; exact ⟨rfl, rfl⟩

theorem Weighed.outlay {climb : Climb} {stand : Stand} (h : Weighed scene c r b climb b' stand) :
    stand.outlay = climb.tasks ∧ stand.depositing = [] ∧
      (b'.cards, b'.deposits, b'.entries) = (b.cards, b.deposits, b.entries) := by
  cases h with
  | stay _ hstand hcensus => rw [hstand, hcensus]; exact ⟨rfl, rfl, rfl⟩
  | again _ _ hstand hcensus => rw [hstand, hcensus]; exact ⟨rfl, rfl, rfl⟩
  | raise _ _ _ hstand hcensus => rw [hstand, hcensus]; exact ⟨rfl, rfl, rfl⟩

/-- A call moves the investors that it builds or funds, and loses those that it gathered if it fails or
    is given up. -/
theorem Turn.flow (h : Turn scene c r x t y) (hx : r.controls[c]? = some x) : Flow a r t := by
  have hlose (hlost : y.stand.lost = true) (houtlay : y.stand.outlay = []) (hnone : y.stand.depositing = [])
      (hcensus : t.census = r.census) : Flow a r t := by
    have hawaiting := h.awaiting hx
    have hdepositing := h.depositing hx
    rw [houtlay, enrolments_nil, Multiset.coe_nil, add_zero] at hawaiting
    rw [hnone, Multiset.coe_nil, add_zero] at hdepositing
    have hlossy : t.Lossy a := .inr (.inr ⟨y, Array.mem_of_getElem? h.control, hlost⟩)
    exact .lose hlossy (Multiset.le_iff_exists_add.mpr ⟨_, hawaiting.symm⟩)
      (Multiset.le_iff_exists_add.mpr ⟨_, hdepositing.symm⟩) (by rw [hcensus]) (by rw [hcensus])
      (by rw [hcensus])
  have hkeep (houtlay : enrolments y.stand.outlay = enrolments x.stand.outlay)
      (hnone : x.stand.depositing = [] ∧ y.stand.depositing = [])
      (hcensus : (t.census.cards, t.census.deposits, t.census.entries) =
        (r.census.cards, r.census.deposits, r.census.entries)) : Flow a r t := by
    simp only [Prod.mk.injEq] at hcensus
    obtain ⟨hcards, hdeposits, hentries⟩ := hcensus
    have hawaiting := h.awaiting_of_gain [] hx (by rw [houtlay, List.append_nil])
    have hdepositing := h.depositing_of_gain [] hx (by rw [hnone.1, hnone.2]; rfl)
    rw [Multiset.coe_nil, add_zero] at hawaiting hdepositing
    exact .keep hawaiting hdepositing hcards hdeposits hentries
  cases h.deed with
  | fail e hstand _ hcensus => exact hlose (by rw [hstand]; rfl) (by rw [hstand]; rfl) (by rw [hstand]; rfl) hcensus
  | drop hstand _ hcensus => exact hlose (by rw [hstand]; rfl) (by rw [hstand]; rfl) (by rw [hstand]; rfl) hcensus
  | boot guest hbefore _ _ hstand _ hcensus =>
    refine hkeep ?_ ?_ (by rw [hcensus])
    · rw [hbefore, hstand]
      rfl
    · rw [hbefore, hstand]
      exact ⟨rfl, rfl⟩
  | found guest hbefore hslot _ hcensus =>
    obtain ⟨houtlay, hnone⟩ := hslot.outlay
    refine hkeep ?_ ⟨by rw [hbefore]; rfl, hnone⟩ (by rw [hcensus])
    rw [houtlay, hbefore]
    rfl
  | fund slot ticket tasks id hbefore hstand _ htaken hcensus =>
    have hawaiting := h.awaiting_of_gain [] hx (by rw [hbefore, hstand, List.append_nil]; rfl)
    have hdepositing := h.depositing_of_gain [(r.investors.size, r.deposits.size)] hx
      (by rw [hbefore, hstand]; rfl)
    rw [Multiset.coe_nil, add_zero] at hawaiting
    exact .fund id (Batch.founding slot) htaken hawaiting hdepositing (by rw [hcensus]; rfl)
      (by rw [hcensus]; rfl) (by rw [hcensus]; rfl)
  | register slot i deposit tasks started accepted hbefore hjobs hslot _ hcensus =>
    obtain ⟨houtlay, hnone⟩ := hslot.outlay
    have hawaiting := h.awaiting_of_gain [] hx (by
      rw [houtlay, hbefore, enrolments_append, hjobs]
      rfl)
    have hdepositing := h.depositing hx
    rw [Multiset.coe_nil, add_zero] at hawaiting
    rw [hnone, hbefore, Multiset.coe_nil, add_zero] at hdepositing
    exact .register i deposit accepted hawaiting hdepositing.symm (by rw [hcensus]; rfl)
      (by rw [hcensus]; rfl) (by rw [hcensus]; rfl)
  | tick tasks hbefore _ _ hjobs _ hweighed =>
    obtain ⟨houtlay, hnone, hcensus⟩ := hweighed.outlay
    refine hkeep ?_ ⟨by rw [hbefore]; rfl, hnone⟩ hcensus
    rw [houtlay, hjobs, hbefore]
    rfl
  | recruit climb slot ticket next id hbefore _ hstand _ htaken hcensus =>
    have hawaiting := h.awaiting_of_gain
      [(r.investors.size, (Batch.rising r.level climb.price slot).credit)] hx (by
        rw [hbefore, hstand]
        exact enrolments_append ..)
    have hdepositing := h.depositing_of_gain [] hx (by rw [hbefore, hstand]; rfl)
    rw [Multiset.coe_nil, add_zero] at hdepositing
    exact .recruit id (Batch.rising r.level climb.price slot) htaken hawaiting hdepositing
      (by rw [hcensus]; rfl) (by rw [hcensus]; rfl) (by rw [hcensus]; rfl)
  | complete climb slot ticket id hbefore _ _ htaken hweighed =>
    obtain ⟨houtlay, hnone, hcensus⟩ := hweighed.outlay
    simp only [Prod.mk.injEq] at hcensus
    obtain ⟨hcards, hdeposits, hentries⟩ := hcensus
    have hawaiting := h.awaiting_of_gain
      [(r.investors.size, (Batch.rising r.level climb.price slot).credit)] hx (by
        rw [houtlay, hbefore]
        exact enrolments_append ..)
    have hdepositing := h.depositing_of_gain [] hx (by rw [hnone, hbefore]; rfl)
    rw [Multiset.coe_nil, add_zero] at hdepositing
    exact .recruit id (Batch.rising r.level climb.price slot) htaken hawaiting hdepositing hcards hdeposits
      hentries
  | weigh climb hbefore _ hweighed =>
    obtain ⟨houtlay, hnone, hcensus⟩ := hweighed.outlay
    refine hkeep ?_ ⟨by rw [hbefore]; rfl, hnone⟩ hcensus
    rw [houtlay, hbefore]
    rfl

section Executions

variable {x y : Execution}

theorem Execution.awaiting_of_job (h : x.task.enrolment? = none) : x.awaiting = [] := by
  unfold Execution.awaiting
  split
  · rw [h]; rfl
  · rfl

theorem Execution.depositing_of_job (h : x.task.enrolment? = none) : x.depositing = [] := by
  unfold Execution.depositing
  split
  · rw [h]; rfl
  · rfl

theorem Stint.awaiting (h : Stint e r x t y) (hx : r.executions[e]? = some x) :
    t.awaiting + ↑x.awaiting = r.awaiting + ↑y.awaiting := by
  have hcontrols : t.controls = r.controls := congrArg Backdrop.controls h.backdrop
  have hheld : t.held = r.held := congrArg Backdrop.held h.backdrop
  simp only [awaiting_eq_tally]
  exact tally_of_execution hcontrols hheld h.executions hx

theorem Stint.depositing (h : Stint e r x t y) (hx : r.executions[e]? = some x) :
    t.depositing + ↑x.depositing = r.depositing + ↑y.depositing := by
  have hset := coe_flatMap_set (f := Execution.depositing) (y := y)
    (show r.executions.toList[e]? = some x by rw [Array.getElem?_toList, hx])
  have hcontrols : t.controls = r.controls := congrArg Backdrop.controls h.backdrop
  rw [← h.executions] at hset
  rw [Run.depositing, Run.depositing, hcontrols, add_assoc, hset, ← add_assoc]

theorem Stint.flow (h : Stint e r x t y) (hx : r.executions[e]? = some x) : Flow a r t := by
  have hawaiting := h.awaiting hx
  have hdepositing := h.depositing hx
  cases h.errand with
  | job htask hcensus =>
    have htask' : y.task.enrolment? = none := by rw [h.task, htask]
    rw [Execution.awaiting_of_job htask, Execution.awaiting_of_job htask'] at hawaiting
    rw [Execution.depositing_of_job htask, Execution.depositing_of_job htask'] at hdepositing
    exact .keep (add_right_cancel hawaiting) (add_right_cancel hdepositing) (by rw [hcensus])
      (by rw [hcensus]) (by rw [hcensus])
  | deposit i credit htask hbefore hafter hcensus =>
    have hx₁ : x.awaiting = [(i, credit)] := by simp [Execution.awaiting, hbefore, htask, Task.enrolment?]
    have hx₂ : x.depositing = [] := by simp [Execution.depositing, hbefore]
    have hy₁ : y.awaiting = [] := by simp [Execution.awaiting, hafter]
    have hy₂ : y.depositing = [(i, r.deposits.size)] := by
      simp [Execution.depositing, hafter, h.task, htask, Task.enrolment?]
    rw [hx₁, hy₁, Multiset.coe_nil, add_zero] at hawaiting
    rw [hx₂, hy₂, Multiset.coe_nil, add_zero] at hdepositing
    exact .deposit i credit hawaiting.symm hdepositing (by rw [hcensus]; rfl) (by rw [hcensus]; rfl)
      (by rw [hcensus]; rfl)
  | register i deposit credit accepted htask hbefore hafter hcensus =>
    have hx₁ : x.awaiting = [] := by simp [Execution.awaiting, hbefore]
    have hx₂ : x.depositing = [(i, deposit)] := by
      simp [Execution.depositing, hbefore, htask, Task.enrolment?]
    have hy₁ : y.awaiting = [] := by simp [Execution.awaiting, hafter]
    have hy₂ : y.depositing = [] := by simp [Execution.depositing, hafter]
    rw [hx₁, hy₁] at hawaiting
    rw [hx₂, hy₂, Multiset.coe_nil, add_zero] at hdepositing
    exact .register i deposit accepted (add_right_cancel hawaiting) hdepositing.symm (by rw [hcensus]; rfl)
      (by rw [hcensus]; rfl) (by rw [hcensus]; rfl)

end Executions

theorem Effect.flow (h : Effect scene a r t) : Flow a r t := by
  cases h with
  | turn c x y hx h => exact h.flow hx
  | stint e x y hx h => exact h.flow hx
  | aside h =>
    obtain ⟨hcontrols, hline, hheld, hexecutions, hcensus⟩ := by simpa [affairs] using h
    refine .keep ?_ ?_ (by rw [hcensus]) (by rw [hcensus]) (by rw [hcensus])
    · rw [Run.awaiting, Run.awaiting, hcontrols, hheld, hexecutions]
    · rw [Run.depositing, Run.depositing, hcontrols, hexecutions]
  | enter command driven h =>
    obtain ⟨hcontrols, hline, hheld, hexecutions, hcensus⟩ := by simpa [affairs] using h
    refine .keep ?_ ?_ (by rw [hcensus]) (by rw [hcensus]) (by rw [hcensus])
    · simp [Run.awaiting, hcontrols, hheld, hexecutions, Stand.awaiting, Stand.tasks]
    · simp [Run.depositing, hcontrols, hexecutions, Stand.depositing]
  | launch place task submitted htask h =>
    obtain ⟨hcontrols, hline, hheld, hexecutions, hcensus⟩ := by simpa [affairs] using h
    refine .keep ?_ ?_ (by rw [hcensus]) (by rw [hcensus]) (by rw [hcensus])
    · rw [awaiting_eq_tally, awaiting_eq_tally]
      exact tally_launch awaiting_handed htask hcontrols hheld hexecutions
    · simp [Run.depositing, hcontrols, hexecutions, Execution.handed, Execution.depositing]
  | discard place ha h =>
    obtain ⟨hcontrols, hline, hheld, hexecutions, hcensus⟩ := by simpa [affairs] using h
    refine .lose (.inl ⟨place, ha⟩) ?_ ?_ (by rw [hcensus]) (by rw [hcensus]) (by rw [hcensus])
    · rw [Run.awaiting, Run.awaiting, hcontrols, hheld, hexecutions]
      have hsublist : (enrolments (r.held.eraseIdx place)).Sublist (enrolments r.held) :=
        (List.eraseIdx_sublist ..).filterMap _
      gcongr
      exact hsublist.subperm
    · rw [Run.depositing, Run.depositing, hcontrols, hexecutions]
  | remove id ha h =>
    obtain ⟨hcontrols, hline, hheld, hexecutions, hcensus⟩ := by simpa [affairs] using h
    refine .lose (.inr (.inl ⟨id, ha⟩)) ?_ ?_ (by rw [hcensus]) (by rw [hcensus]) ?_
    · rw [Run.awaiting, Run.awaiting, hcontrols, hheld, hexecutions]
    · rw [Run.depositing, Run.depositing, hcontrols, hexecutions]
    · rw [hcensus]
      exact List.filter_sublist

/-- Every investor that was built goes one way, unless it gets lost. -/
theorem Flow.whereabouts (h : Flow a r t) :
    t.Lossy a ∧ t.whereabouts ≤ r.whereabouts ∧ t.investors.size = r.investors.size ∨
    t.whereabouts = r.whereabouts ∧ t.investors.size = r.investors.size ∨
    t.whereabouts = r.whereabouts + {r.investors.size} ∧ t.investors.size = r.investors.size + 1 := by
  have hsize (hcards : t.census.cards = r.census.cards) : t.investors.size = r.investors.size := by
    rw [← length_cards, hcards, length_cards]
  have hgrown {card : Identity × Params} (hcards : t.census.cards = r.census.cards ++ [card]) :
      t.investors.size = r.investors.size + 1 := by
    rw [← length_cards, hcards, List.length_append, length_cards, List.length_singleton]
  cases h with
  | keep hawaiting hdepositing hcards _ hentries =>
    have hentries' : t.registry.entries = r.registry.entries := hentries
    refine .inr (.inl ⟨?_, hsize hcards⟩)
    rw [Run.whereabouts, hawaiting, hdepositing, hentries', Run.whereabouts]
  | lose hlossy hawaiting hdepositing hcards _ hentries =>
    refine .inl ⟨hlossy, ?_, hsize hcards⟩
    have hentries' : (↑t.registry.entries : Multiset Nat) ≤ ↑r.registry.entries := hentries.subperm
    exact add_le_add (add_le_add (Multiset.map_le_map hawaiting) (Multiset.map_le_map hdepositing)) hentries'
  | recruit id params _ hawaiting hdepositing hcards _ hentries =>
    have hentries' : t.registry.entries = r.registry.entries := hentries
    refine .inr (.inr ⟨?_, hgrown hcards⟩)
    rw [Run.whereabouts, hawaiting, hdepositing, hentries', Run.whereabouts, Multiset.map_add,
      Multiset.map_singleton]
    abel
  | fund id params _ hawaiting hdepositing hcards _ hentries =>
    have hentries' : t.registry.entries = r.registry.entries := hentries
    refine .inr (.inr ⟨?_, hgrown hcards⟩)
    rw [Run.whereabouts, hawaiting, hdepositing, hentries', Run.whereabouts, Multiset.map_add,
      Multiset.map_singleton]
    abel
  | deposit i credit hawaiting hdepositing hcards _ hentries =>
    have hentries' : t.registry.entries = r.registry.entries := hentries
    refine .inr (.inl ⟨?_, hsize hcards⟩)
    rw [Run.whereabouts, hdepositing, hentries', Run.whereabouts, hawaiting, Multiset.map_add,
      Multiset.map_add, Multiset.map_singleton, Multiset.map_singleton]
    abel
  | register i deposit accepted hawaiting hdepositing hcards _ hentries =>
    have hentries' : t.registry.entries = r.registry.entries ++ [i] := hentries
    refine .inr (.inl ⟨?_, hsize hcards⟩)
    rw [Run.whereabouts, hawaiting, hentries', Run.whereabouts, hdepositing, Multiset.map_add,
      Multiset.map_singleton, ← Multiset.coe_add, Multiset.coe_singleton]
    abel

/-- No investor is in two places. -/
theorem Flow.within (h : Flow a r t) (hr : r.whereabouts ≤ Multiset.range r.investors.size) :
    t.whereabouts ≤ Multiset.range t.investors.size := by
  obtain ⟨_, hle, hsize⟩ | ⟨heq, hsize⟩ | ⟨heq, hsize⟩ := h.whereabouts
  · rw [hsize]
    exact hle.trans hr
  · rwa [hsize, heq]
  · rw [hsize, heq, Multiset.range_succ, ← Multiset.singleton_add, add_comm]
    exact add_le_add_right hr _

/-- Where nothing gets lost, every investor is in one place. -/
theorem Flow.whole (h : Flow a r t) (hsound : ¬t.Lossy a)
    (hr : r.whereabouts = Multiset.range r.investors.size) :
    t.whereabouts = Multiset.range t.investors.size := by
  obtain ⟨hlossy, _⟩ | ⟨heq, hsize⟩ | ⟨heq, hsize⟩ := h.whereabouts
  · exact absurd hlossy hsound
  · rw [heq, hsize, hr]
  · rw [heq, hsize, Multiset.range_succ, ← Multiset.singleton_add, hr, add_comm]

end Run

end ExchangeLoad
