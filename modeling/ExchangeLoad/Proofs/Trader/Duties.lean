import ExchangeLoad.Proofs.Run.Muster
import ExchangeLoad.Proofs.Trader.Standing

/-!
The duties of a trader in a run: its tasks that a call has gathered, that are held, and whose execution is
not over. A tick adds to those of one trader at most one, by starting it or by collecting its work.
-/

namespace ExchangeLoad

/-- The duty that a task of a trader is before it begins. -/
def Task.unbegun (i : Nat) (task : Task) : List Duty :=
  if Run.traderOf task = some i then [⟨task, none⟩] else []

/-- The answer that a trader's job waits for. -/
def Execution.point? (e : Execution) : Option Point :=
  match e.phase with
  | .asking point => some point
  | _ => none

/-- The duty of a trader that an execution is until it is over. -/
def Execution.unfinished (i : Nat) (e : Execution) : List Duty :=
  if Run.traderOf e.task = some i ∧ e.finished = false then [⟨e.task, e.point?⟩] else []

/-- How the trader with number `i` comes out of the collection of a tick, and the duties that it gets. -/
inductive Investor.Collected (i : Nat) (v : Investor) : Investor → List Duty → Prop where
  | nothing (draw : Draw) (hnext : v.next i draw = none) : Collected i v v []
  | trade (draw : Draw) (w : Investor) (task : Task) (hnext : v.next i draw = some (w, task)) :
      Collected i v w [⟨task, none⟩]

/-- How the trader with number `i` comes out of a tick that found `entries` in the registry. -/
inductive Investor.Summoned (entries : List Nat) (i : Nat) (v : Investor) : Investor → List Duty → Prop where
  | spared : Summoned entries i v v []
  | started (hstage : v.stage = .notStarted) (hentry : i ∈ entries) :
      Summoned entries i v (v.start i).1 [⟨(v.start i).2, none⟩]
  | collected {w : Investor} {gain : List Duty} (h : v.Collected i w gain) : Summoned entries i v w gain

namespace Run

/-- The duties of the trader with number `i`. -/
def duties (i : Nat) (r : Run) : Multiset Duty := r.tally (Task.unbegun i) (Execution.unfinished i)

variable {c i j : Nat} {r s t : Run} {x y : Control} {v w : Investor} {task : Task}
  {tasks : List Task} {draw : Draw}

theorem unbegun_self (h : traderOf task = some i) : task.unbegun i = [⟨task, none⟩] := if_pos h

theorem unbegun_other (h : traderOf task ≠ some i) : task.unbegun i = [] := if_neg h

theorem unfinished_handed (now : Nat) (submitted : Bool) (task : Task) :
    (Execution.handed now submitted task).unfinished i = task.unbegun i := by
  simp [Execution.unfinished, Task.unbegun, Execution.handed, Execution.finished, Execution.point?]

theorem traderOf_start (hv : v.IsTrader) : traderOf (v.start i).2 = some i := by
  obtain ⟨busy, coins, cursor, hmanner⟩ := hv
  simp [Investor.start, hmanner, traderOf]

theorem traderOf_next (hv : v.IsTrader) (h : v.next i draw = some (w, task)) : traderOf task = some i := by
  obtain ⟨_, _, rfl⟩ := Investor.traded_of_next hv h
  rfl

theorem startInvestor_self (hv : s.investors[i]? = some v) (htrader : v.IsTrader) :
    (s.startInvestor i).1.investors[i]? = some (v.start i).1 ∧
      (s.startInvestor i).1.starts = s.starts.push i ∧
      (s.startInvestor i).2.flatMap (Task.unbegun i) = [⟨(v.start i).2, none⟩] := by
  obtain ⟨hi, rfl⟩ := Array.getElem?_eq_some_iff.mp hv
  simp [startInvestor, withInvestor, hi, unbegun_self (traderOf_start htrader)]

theorem startInvestor_other (htraders : s.TradersOnly) (hne : j ≠ i) :
    (s.startInvestor j).1.investors[i]? = s.investors[i]? ∧
      (s.startInvestor j).2.flatMap (Task.unbegun i) = [] := by
  unfold startInvestor
  split
  · exact ⟨rfl, rfl⟩
  · next v hv =>
    have htask : traderOf (v.start j).2 ≠ some i := by
      rw [traderOf_start (htraders.investor hv)]
      simpa using hne
    exact ⟨by simp [withInvestor, hne], by simp [unbegun_other htask]⟩

theorem collectFrom_self (scene : Scene) (tasks : List Task) (hv : s.investors[i]? = some v)
    (htrader : v.IsTrader) : ∃ w gain, v.Collected i w gain ∧
      (collectFrom scene (s, tasks) i).1.investors[i]? = some w ∧
      (collectFrom scene (s, tasks) i).2.flatMap (Task.unbegun i) = tasks.flatMap (Task.unbegun i) ++ gain := by
  obtain ⟨hi, rfl⟩ := Array.getElem?_eq_some_iff.mp hv
  cases hnext : s.investors[i].next i (scene.draw s.drawn) with
  | none => exact ⟨s.investors[i], [], .nothing _ hnext, by simp [collectFrom, hnext, hi]⟩
  | some handed =>
    obtain ⟨w, task⟩ := handed
    refine ⟨w, [⟨task, none⟩], .trade _ w task hnext, ?_⟩
    simp [collectFrom, hnext, withInvestor, hi, unbegun_self (traderOf_next htrader hnext)]

theorem collectFrom_other (scene : Scene) (tasks : List Task) (htraders : s.TradersOnly) (hne : j ≠ i) :
    (collectFrom scene (s, tasks) j).1.investors[i]? = s.investors[i]? ∧
      (collectFrom scene (s, tasks) j).2.flatMap (Task.unbegun i) = tasks.flatMap (Task.unbegun i) := by
  unfold collectFrom
  split
  · exact ⟨rfl, rfl⟩
  · next v hv =>
    split
    · exact ⟨rfl, rfl⟩
    · next w task hnext =>
      have htask : traderOf task ≠ some i := by
        rw [traderOf_next (htraders.investor hv) hnext]
        simpa using hne
      exact ⟨by simp [withInvestor, hne], by simp [unbegun_other htask]⟩

theorem foldl_collectFrom_other (scene : Scene) (members : List Nat) (htraders : s.TradersOnly)
    (htasks : ∀ task ∈ tasks, task.OfTrader) (hi : i ∉ members) :
    (members.foldl (collectFrom scene) (s, tasks)).1.investors[i]? = s.investors[i]? ∧
      (members.foldl (collectFrom scene) (s, tasks)).2.flatMap (Task.unbegun i) =
        tasks.flatMap (Task.unbegun i) := by
  induction members generalizing s tasks with
  | nil => exact ⟨rfl, rfl⟩
  | cons j rest ih =>
    obtain ⟨hne, hrest⟩ := not_or.mp (mt List.mem_cons.mpr hi)
    obtain ⟨hinvestor, hduties⟩ := collectFrom_other scene tasks htraders (Ne.symm hne)
    obtain ⟨htraders', htasks'⟩ := htraders.collectFrom scene htasks j
    obtain ⟨hinvestor', hduties'⟩ := ih htraders' htasks' hrest
    exact ⟨hinvestor'.trans hinvestor, hduties'.trans hduties⟩

/-- Whoever is collected from is so once. -/
theorem foldl_collectFrom_self (scene : Scene) (members : List Nat) (htraders : s.TradersOnly)
    (htasks : ∀ task ∈ tasks, task.OfTrader) (hnodup : members.Nodup) (hi : i ∈ members)
    (hv : s.investors[i]? = some v) :
    ∃ w gain, v.Collected i w gain ∧ (members.foldl (collectFrom scene) (s, tasks)).1.investors[i]? = some w ∧
      (members.foldl (collectFrom scene) (s, tasks)).2.flatMap (Task.unbegun i) =
        tasks.flatMap (Task.unbegun i) ++ gain := by
  induction members generalizing s tasks with
  | nil => cases hi
  | cons j rest ih =>
    obtain ⟨hj, hrest⟩ := List.nodup_cons.mp hnodup
    obtain ⟨htraders', htasks'⟩ := htraders.collectFrom scene htasks j
    by_cases hij : j = i
    · subst hij
      obtain ⟨w, gain, hcollected, hinvestor, hduties⟩ := collectFrom_self scene tasks hv
        (htraders.investor hv)
      obtain ⟨hinvestor', hduties'⟩ := foldl_collectFrom_other scene rest htraders' htasks' hj
      exact ⟨w, gain, hcollected, hinvestor'.trans hinvestor, hduties'.trans hduties⟩
    · obtain ⟨hinvestor, hduties⟩ := collectFrom_other scene tasks htraders hij
      obtain ⟨w, gain, hcollected, hinvestor', hduties'⟩ := ih htraders' htasks' hrest
        ((List.mem_cons.mp hi).resolve_left (Ne.symm hij)) (hinvestor.trans hv)
      exact ⟨w, gain, hcollected, hinvestor', by rw [← hduties]; exact hduties'⟩

theorem collectAll_other (scene : Scene) (htraders : s.TradersOnly) (hi : i ∉ s.registry.signedIn s.life) :
    (s.collectAll scene).1.investors[i]? = s.investors[i]? ∧
      (s.collectAll scene).2.flatMap (Task.unbegun i) = [] :=
  foldl_collectFrom_other scene _ htraders (by simp) hi

theorem collectAll_self (scene : Scene) (htraders : s.TradersOnly) (hnodup : s.registry.entries.Nodup)
    (hi : i ∈ s.registry.signedIn s.life) (hv : s.investors[i]? = some v) :
    ∃ w gain, v.Collected i w gain ∧ (s.collectAll scene).1.investors[i]? = some w ∧
      (s.collectAll scene).2.flatMap (Task.unbegun i) = gain :=
  foldl_collectFrom_self scene _ htraders (by simp) (hnodup.filter _) hi hv

theorem collectAll_summoned (scene : Scene) (entries : List Nat) (htraders : s.TradersOnly)
    (hnodup : s.registry.entries.Nodup) (hv : s.investors[i]? = some v) :
    ∃ w gain, v.Summoned entries i w gain ∧ (s.collectAll scene).1.investors[i]? = some w ∧
      (s.collectAll scene).2.flatMap (Task.unbegun i) = gain := by
  by_cases hi : i ∈ s.registry.signedIn s.life
  · obtain ⟨w, gain, hcollected, hinvestor, hduties⟩ := collectAll_self scene htraders hnodup hi hv
    exact ⟨w, gain, .collected hcollected, hinvestor, hduties⟩
  · obtain ⟨hinvestor, hduties⟩ := collectAll_other scene htraders hi
    exact ⟨v, [], .spared, hinvestor.trans hv, hduties⟩

theorem life_of_getElem? (hv : r.investors[i]? = some v) : r.life i = v.life := by simp [life, hv]

theorem stage_of_notStarted (hv : v.IsTrader) (hlife : v.life = .notStarted) : v.stage = .notStarted := by
  rw [Investor.life_eq hv] at hlife
  split at hlife
  · cases hlife
  · exact hlife

/-- The investor that a tick starts is not signed in yet when the tick collects work. -/
theorem beginTick_first (scene : Scene) (htraders : r.TradersOnly)
    (hfirst : r.registry.firstNotStarted? r.life = some i) (hv : r.investors[i]? = some v) :
    v.stage = .notStarted ∧ (r.startFirst.1.collectAll scene).1.investors[i]? = some (v.start i).1 ∧
      (r.startFirst.2 ++ (r.startFirst.1.collectAll scene).2).flatMap (Task.unbegun i) =
        [⟨(v.start i).2, none⟩] := by
  have htrader := htraders.investor hv
  have htraders' := htraders.startFirst.1
  have hlife : v.life = .notStarted := by
    rw [← life_of_getElem? hv]
    simpa using List.find?_some hfirst
  simp only [startFirst, hfirst, Option.elim_some] at htraders' ⊢
  obtain ⟨hinvestor, -, hduties⟩ := startInvestor_self hv htrader
  -- It has only been started by then, so that the same tick does not collect from it.
  have hnot : i ∉ (r.startInvestor i).1.registry.signedIn (r.startInvestor i).1.life := by
    intro hmem
    have hsignedIn : (v.start i).1.life = .signedIn := by
      rw [← life_of_getElem? hinvestor]
      simpa using (List.mem_filter.mp hmem).2
    cases Investor.stage_of_life (htraders'.investor hinvestor) hsignedIn
  obtain ⟨hinvestor', hduties'⟩ := collectAll_other scene htraders' hnot
  refine ⟨stage_of_notStarted htrader hlife, hinvestor'.trans hinvestor, ?_⟩
  rw [List.flatMap_append, hduties, hduties', List.append_nil]

/-- A tick starts or collects from one investor once, and does not do both with it. -/
theorem beginTick_summoned (scene : Scene) (htraders : r.TradersOnly) (hnodup : r.registry.entries.Nodup)
    (hv : r.investors[i]? = some v) :
    ∃ w gain, v.Summoned r.registry.entries i w gain ∧
      (r.startFirst.1.collectAll scene).1.investors[i]? = some w ∧
      (r.startFirst.2 ++ (r.startFirst.1.collectAll scene).2).flatMap (Task.unbegun i) = gain := by
  cases hfirst : r.registry.firstNotStarted? r.life with
  | none =>
    simp only [startFirst, hfirst, Option.elim_none, List.nil_append]
    exact collectAll_summoned scene _ htraders hnodup hv
  | some j =>
    by_cases hij : j = i
    · subst hij
      obtain ⟨hstage, hinvestor, hduties⟩ := beginTick_first scene htraders hfirst hv
      exact ⟨_, _, .started hstage (List.mem_of_find?_eq_some hfirst), hinvestor, hduties⟩
    · have htraders' := htraders.startFirst.1
      simp only [startFirst, hfirst, Option.elim_some] at htraders' ⊢
      have hnodup' : (r.startInvestor j).1.registry.entries.Nodup := by rwa [startInvestor_registry]
      obtain ⟨hinvestor, hduties⟩ := startInvestor_other htraders hij
      obtain ⟨w, gain, hsummoned, hinvestor', hduties'⟩ := collectAll_summoned scene
        r.registry.entries htraders' hnodup' (hinvestor.trans hv)
      refine ⟨w, gain, hsummoned, hinvestor', ?_⟩
      rw [List.flatMap_append, hduties, hduties', List.nil_append]

theorem startInvestor_none (htraders : s.TradersOnly) (hnone : s.investors[i]? = none) (j : Nat) :
    (s.startInvestor j).1.investors[i]? = none ∧ (s.startInvestor j).2.flatMap (Task.unbegun i) = [] := by
  by_cases hij : j = i
  · subst hij
    simp [startInvestor, hnone]
  · obtain ⟨hinvestor, hduties⟩ := startInvestor_other htraders hij
    exact ⟨hinvestor.trans hnone, hduties⟩

/-- A tick gives nothing to do to an investor that has not been built. -/
theorem beginTick_none (scene : Scene) (htraders : r.TradersOnly) (hnone : r.investors[i]? = none) :
    (r.startFirst.1.collectAll scene).1.investors[i]? = none ∧
      (r.startFirst.2 ++ (r.startFirst.1.collectAll scene).2).flatMap (Task.unbegun i) = [] := by
  have hfirst : r.startFirst.1.investors[i]? = none ∧ r.startFirst.2.flatMap (Task.unbegun i) = [] := by
    unfold startFirst
    cases r.registry.firstNotStarted? r.life with
    | none => exact ⟨hnone, rfl⟩
    | some j => exact startInvestor_none htraders hnone j
  obtain ⟨hinvestor, hduties⟩ := hfirst
  have hnot : i ∉ r.startFirst.1.registry.signedIn r.startFirst.1.life := by
    simp [Registry.signedIn, life, hinvestor]
  obtain ⟨hinvestor', hduties'⟩ := collectAll_other scene htraders.startFirst.1 hnot
  exact ⟨hinvestor'.trans hinvestor, by rw [List.flatMap_append, hduties, hduties', List.append_nil]⟩

end Run

end ExchangeLoad
