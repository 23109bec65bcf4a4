import ExchangeLoad.Proofs.Run.Recruits

/-!
Whom the work of a run is for. A call of the controller hands out jobs of traders that were built before,
and nobody is ever taken off the list of those built: so every such job that calls gather, that is held, or
that is in execution is for a trader that is there.
-/

namespace ExchangeLoad

/-- The trader whose job a task is, if it is one. -/
def Task.crew (task : Task) : List Nat := (Run.traderOf task).toList

variable {v w : Investor} {i j : Nat} {draw : Draw} {task : Task}

theorem Investor.start_crew (h : j ∈ (v.start i).2.crew) : j = i := by
  unfold Investor.start at h
  cases hmanner : v.manner with
  | trader busy coins cursor => simpa [hmanner, Task.crew, Run.traderOf] using h
  | scripted part => simp [hmanner, Task.crew, Run.traderOf] at h

theorem Investor.next_crew (hnext : v.next i draw = some (w, task)) (h : j ∈ task.crew) : j = i := by
  unfold Investor.next at hnext
  split at hnext
  · split at hnext
    · obtain ⟨-, rfl⟩ := Prod.mk.inj (Option.some.inj hnext)
      simpa [Task.crew, Run.traderOf] using h
    · cases hnext
  · split at hnext
    · obtain ⟨cue, -, hcue⟩ := Option.map_eq_some_iff.mp hnext
      obtain ⟨-, rfl⟩ := Prod.mk.inj hcue
      simp [Task.crew, Run.traderOf] at h
    · cases hnext

namespace Run

/-- The traders whose jobs calls have gathered, are held, or are or were in execution. -/
def staffing (r : Run) : Multiset Nat := r.tally Task.crew (·.task.crew)

/-- Every job of a trader is for one that was built. -/
def Manned (r : Run) : Prop := ∀ i ∈ r.staffing, i < r.investors.size

variable {scene : Scene} {r s t : Run} {x y : Control} {a : Step} {c : Nat}

theorem startInvestor_crew (r : Run) (i : Nat) : (r.startInvestor i).1.investors.size = r.investors.size ∧
    ∀ j ∈ (r.startInvestor i).2.flatMap Task.crew, j < r.investors.size := by
  unfold startInvestor
  split
  · exact ⟨rfl, by simp⟩
  · next v hv =>
    obtain ⟨hi, -⟩ := Array.getElem?_eq_some_iff.mp hv
    refine ⟨by simp [withInvestor], fun j hj => ?_⟩
    simp only [List.flatMap_cons, List.flatMap_nil, List.append_nil] at hj
    rwa [Investor.start_crew hj]

theorem startFirst_crew (r : Run) : r.startFirst.1.investors.size = r.investors.size ∧
    ∀ j ∈ r.startFirst.2.flatMap Task.crew, j < r.investors.size := by
  unfold startFirst
  cases r.registry.firstNotStarted? r.life with
  | none => exact ⟨rfl, by simp⟩
  | some i => exact r.startInvestor_crew i

theorem collectFrom_crew (scene : Scene) (tasks : List Task) (i : Nat)
    (htasks : ∀ j ∈ tasks.flatMap Task.crew, j < r.investors.size) :
    (collectFrom scene (r, tasks) i).1.investors.size = r.investors.size ∧
      ∀ j ∈ (collectFrom scene (r, tasks) i).2.flatMap Task.crew, j < r.investors.size := by
  unfold collectFrom
  split
  · exact ⟨rfl, htasks⟩
  · next v hv =>
    split
    · exact ⟨rfl, htasks⟩
    · next w task hnext =>
      obtain ⟨hi, -⟩ := Array.getElem?_eq_some_iff.mp hv
      refine ⟨by simp [withInvestor], fun j hj => ?_⟩
      simp only [List.flatMap_append, List.mem_append, List.flatMap_cons, List.flatMap_nil,
        List.append_nil] at hj
      obtain hj | hj := hj
      · exact htasks j hj
      · rwa [Investor.next_crew hnext hj]

theorem collectAll_crew (scene : Scene) (r : Run) :
    (r.collectAll scene).1.investors.size = r.investors.size ∧
      ∀ j ∈ (r.collectAll scene).2.flatMap Task.crew, j < r.investors.size := by
  have hfold (members : List Nat) (tasks : List Task)
      (htasks : ∀ j ∈ tasks.flatMap Task.crew, j < r.investors.size) :
      (members.foldl (collectFrom scene) (r, tasks)).1.investors.size = r.investors.size ∧
        ∀ j ∈ (members.foldl (collectFrom scene) (r, tasks)).2.flatMap Task.crew, j < r.investors.size := by
    induction members generalizing r tasks with
    | nil => exact ⟨rfl, htasks⟩
    | cons i rest ih =>
      obtain ⟨hsize, hcollected⟩ := collectFrom_crew scene tasks i htasks
      rw [← hsize] at hcollected ⊢
      exact ih _ _ hcollected
  exact hfold _ [] (by simp)

/-- A call hands out jobs only of traders that were there before it went on. -/
theorem Muster.crew (h : Muster scene r x y t) : r.investors.size ≤ t.investors.size ∧
    ∀ i ∈ y.stand.outlay.flatMap Task.crew, i ∈ x.stand.outlay.flatMap Task.crew ∨ i < r.investors.size := by
  have hroster {investors : Array Investor} {starts : Array Nat} {registry : Registry Nat}
      (h : t.roster = (investors, starts, registry)) : t.investors = investors := congrArg Prod.fst h
  cases h with
  | keep h houtlay => exact ⟨by rw [hroster h], fun i hi => .inl (by rwa [← houtlay])⟩
  | lose h houtlay => exact ⟨by rw [hroster h], fun i hi => by simp [houtlay] at hi⟩
  | build v tasks _ h hjobs houtlay =>
    refine ⟨by simp [hroster h], fun i hi => .inl ?_⟩
    have hnone : tasks.flatMap Task.crew = [] :=
      List.flatMap_eq_nil_iff.mpr fun task htask => by simp [Task.crew, hjobs task htask]
    rwa [houtlay, List.flatMap_append, hnone, List.append_nil] at hi
  | register slot i deposit tasks accepted _ h houtlay =>
    obtain ⟨hsize, hcrew⟩ := r.startInvestor_crew i
    refine ⟨by rw [hroster h, hsize], fun j hj => ?_⟩
    rw [houtlay, List.flatMap_append, List.mem_append] at hj
    exact hj.imp_right (hcrew j)
  | tick _ _ h houtlay =>
    obtain ⟨hsize, hcrew⟩ := r.startFirst_crew
    obtain ⟨hsize', hcrew'⟩ := collectAll_crew scene r.startFirst.1
    refine ⟨by rw [hroster h, hsize', hsize], fun j hj => .inr ?_⟩
    rw [houtlay, List.flatMap_append, List.mem_append] at hj
    exact hj.elim (hcrew j) fun hj => by rw [← hsize]; exact hcrew' j hj

theorem CallMove.manned (hx : r.controls[c]? = some x) (h : CallMove scene c r x a t) (hr : r.Manned) :
    t.Manned := by
  obtain ⟨y, hturn⟩ := h.turn hx
  obtain ⟨hsize, hcrew⟩ := (h.muster hx hturn.control).crew
  have hsum : t.staffing + ↑(x.stand.outlay.flatMap Task.crew) =
      r.staffing + ↑(y.stand.outlay.flatMap Task.crew) := hturn.tally (fun _ _ _ => rfl) hx
  have hgathered (i : Nat) (hi : i ∈ x.stand.outlay.flatMap Task.crew) : i ∈ r.staffing := by
    rw [outlay_of_not_over hturn.before] at hi
    refine Multiset.mem_add.mpr (.inl (Multiset.mem_add.mpr (.inl (Multiset.mem_coe.mpr ?_))))
    exact List.mem_flatMap.mpr ⟨x, Array.mem_toList_iff.mpr (Array.mem_of_getElem? hx), hi⟩
  intro i hi
  have hmem : i ∈ r.staffing + ↑(y.stand.outlay.flatMap Task.crew) :=
    hsum ▸ Multiset.mem_add.mpr (.inl hi)
  refine Nat.lt_of_lt_of_le ?_ hsize
  obtain hi | hi := Multiset.mem_add.mp hmem
  · exact hr i hi
  · obtain hi | hi := hcrew i (Multiset.mem_coe.mp hi)
    · exact hr i (hgathered i hi)
    · exact hi

/-- Nobody is ever taken off the list of those built. -/
theorem Effect.size_investors (h : Effect scene a r t) : r.investors.size ≤ t.investors.size := by
  rw [← length_cards, ← length_cards]
  obtain hsame | ⟨o, card, hbuilt⟩ := h.built
  · exact Nat.le_of_eq (congrArg List.length (Prod.mk.inj hsame).2).symm
  · rw [(Prod.mk.inj hbuilt).2, List.length_append]
    exact Nat.le_add_right _ _

theorem Manned.mono (hr : r.Manned) (hle : t.staffing ≤ r.staffing)
    (hsize : r.investors.size ≤ t.investors.size) : t.Manned :=
  fun i hi => Nat.lt_of_lt_of_le (hr i (Multiset.mem_of_le hle hi)) hsize

theorem Stint.staffing {e : Nat} {z w : Execution} (hz : r.executions[e]? = some z) (h : Stint e r z t w) :
    t.staffing = r.staffing := by
  have hcontrols : t.controls = r.controls := congrArg Backdrop.controls h.backdrop
  have hheld : t.held = r.held := congrArg Backdrop.held h.backdrop
  have hsum := tally_of_execution (f := Task.crew) (g := (·.task.crew)) hcontrols hheld h.executions hz
  rw [h.task] at hsum
  exact add_right_cancel hsum

theorem staffing_enter (command : Command) (driven : Bool) : (r.enter command driven).staffing = r.staffing := by
  simp [staffing, tally, enter, Stand.tasks]

theorem OtherMove.manned (h : OtherMove scene r a t) (hr : r.Manned) : t.Manned := by
  have hsize := h.effect.size_investors
  cases h with
  | leave cause hleave =>
    obtain ⟨_, _, s, rfl, rfl | ⟨c, x, _, hx, hmove⟩⟩ := leave_eq_some scene hleave
    · exact hr
    · exact show s.Manned from hmove.manned hx hr
  | drive hdrive =>
    obtain ⟨_, rfl⟩ := drive_eq_some hdrive
    exact hr.mono (staffing_enter .start true).le hsize
  | tick htick =>
    obtain ⟨_, _, _, rfl⟩ := tick_eq_some htick
    exact hr.mono (staffing_enter .tick true).le hsize
  | enter command => exact hr.mono (staffing_enter command false).le hsize
  | collect hcollect =>
    obtain ⟨_, _, _, _, ⟨_, _, rfl⟩ | ⟨_, _, _, _, rfl⟩⟩ := collect_eq_some hcollect
    · exact hr
    · exact hr
  | launch _ place task submitted htask =>
    have hlaunch : (Run.launch { r with held := r.held.eraseIdx place } task submitted).staffing =
        r.staffing := tally_launch (fun _ _ _ => rfl) htask rfl rfl rfl
    exact hr.mono hlaunch.le hsize
  | discard place => exact hr.mono (tally_discard place rfl rfl rfl) hsize
  | investor => exact hr.mono le_rfl hsize
  | _ => exact hr

theorem step_manned (hprompt : r.Prompt) (hr : r.Manned) (h : r.step scene a = some t) : t.Manned := by
  have hsize := (step_effect hprompt h).size_investors
  obtain ⟨c, x, hx, hmove⟩ | ⟨e, x, hx, hmove⟩ | hmove := step_cases h
  · exact hmove.manned hx hr
  · obtain ⟨y, hstint⟩ := hmove.stint hx (hprompt x (Array.mem_of_getElem? hx))
    exact hr.mono (hstint.staffing hx).le hsize
  · exact hmove.manned hr

/-- The trader whose job is in execution was built. -/
theorem Manned.built {e : Nat} {z : Execution} (hr : r.Manned) (hz : r.executions[e]? = some z) {i : Nat}
    (htrader : traderOf z.task = some i) : r.investors[i]? ≠ none := by
  have hmem : i ∈ r.staffing := by
    refine Multiset.mem_add.mpr (.inr (Multiset.mem_coe.mpr (List.mem_flatMap.mpr ⟨z, ?_, ?_⟩)))
    · exact Array.mem_toList_iff.mpr (Array.mem_of_getElem? hz)
    · simp [Task.crew, htrader]
  simpa using hr i hmem

end Run

end ExchangeLoad
