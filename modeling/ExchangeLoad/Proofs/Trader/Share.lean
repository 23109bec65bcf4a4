import ExchangeLoad.Proofs.Trader.Duties

/-!
What a step of a run comes to for one trader: what it is made of, and which duties it gains, loses or gets
on with. `Share` has a case for each kind of thing that can happen to a trader. A run is `Disciplined` when
the books of all traders are in order and each stands where its duties say; every step keeps it so.
-/

namespace ExchangeLoad

open Investor

/-- The phase that a stretch of a job leads to. -/
def Progress.phase (now : Nat) : Progress → Phase
  | waits point => .asking point
  | ended failure => .ended now failure

namespace Run

/-- Nobody outside changes an investor. -/
def Step.SparesInvestors (a : Step) : Prop := ∀ change, a ≠ .alter change

/-- The investors on their way into the registry. -/
def pending (r : Run) : Multiset Nat := r.awaiting.map Prod.fst + r.depositing.map Prod.fst

/-- There are only traders and work of theirs; their books are in order, and each stands where its duties
    say. Nobody who is on the way into the registry has been started. -/
structure Disciplined (r : Run) : Prop where
  prompt : r.Prompt
  traders : r.TradersOnly
  within : r.whereabouts ≤ Multiset.range r.investors.size
  pending : ∀ i ∈ r.pending, ∀ v, r.investors[i]? = some v → v.stage = .notStarted
  unbuilt : ∀ i : Nat, r.investors[i]? = none → r.duties i = 0
  books : ∀ (i : Nat) (v : Investor), r.investors[i]? = some v → v.Books
  standing : ∀ (i : Nat) (v : Investor), r.investors[i]? = some v → Standing i v (r.duties i)

/-- What a step comes to for the trader `v` with number `i`. -/
inductive Share (a : Step) (r t : Run) (i : Nat) (v : Investor) : Investor → Prop where
  | aside (lost : Multiset Duty) (hlost : ∀ d ∈ lost, d.point = none)
      (hduties : r.duties i = t.duties i + lost) : Share a r t i v v
  | retired (ha : a = .retire i) (hduties : t.duties i = r.duties i) :
      Share a r t i v { v with client := v.client.retire }
  | started (hstage : v.stage = .notStarted) (hentered : i ∈ t.registry.entries)
      (hduties : t.duties i = r.duties i + {⟨(v.start i).2, none⟩}) : Share a r t i v (v.start i).1
  | handed (draw : Draw) (w : Investor) (task : Task) (hnext : v.next i draw = some (w, task))
      (hduties : t.duties i = r.duties i + {⟨task, none⟩}) : Share a r t i v w
  | opened (task : Task) (rest : Multiset Duty) (w : Investor) (progress : Progress)
      (hbefore : r.duties i = rest + {⟨task, none⟩})
      (hopening : v.opening? r.aborted task = some (w, progress))
      (hduties : t.duties i = rest + progress.duties task) : Share a r t i v w
  | heard (e : Nat) (x y : Execution) (p : Point) (reply : Reply) (w : Investor) (gain : Int)
      (progress : Progress) (rest : Multiset Duty) (ha : a = .hear e reply) (hx : r.executions[e]? = some x)
      (hphase : x.phase = .asking p) (hy : t.executions[e]? = some y) (htask : y.task = x.task)
      (hphase' : y.phase = progress.phase r.now) (hbefore : r.duties i = rest + {⟨x.task, some p⟩})
      (hresumed : Resumed v r.aborted p reply w gain progress)
      (hduties : t.duties i = rest + progress.duties x.task) : Share a r t i v w

variable {scene : Scene} {c e i j : Nat} {r s t : Run} {a : Step} {v w : Investor} {task : Task}

theorem Share.still (hduties : t.duties i = r.duties i) : Share a r t i v v :=
  .aside 0 (by simp) (by rw [hduties, add_zero])

theorem point_of_unbegun (tasks : List Task) {d : Duty} (h : d ∈ tasks.flatMap (Task.unbegun i)) :
    d.point = none := by
  obtain ⟨task, _, hd⟩ := List.mem_flatMap.mp h
  unfold Task.unbegun at hd
  split at hd
  · rw [List.mem_singleton.mp hd]
  · cases hd

section Calls

variable {x y : Control}

theorem Turn.duties_of_gain (gain : List Duty) (h : Turn scene c r x t y) (hx : r.controls[c]? = some x)
    (hgain : y.stand.outlay.flatMap (Task.unbegun i) = x.stand.outlay.flatMap (Task.unbegun i) ++ gain) :
    t.duties i = r.duties i + ↑gain :=
  h.tally_of_gain unfinished_handed gain hx hgain

theorem Turn.duties_of_loss (h : Turn scene c r x t y) (hx : r.controls[c]? = some x)
    (hlost : y.stand.outlay = []) :
    r.duties i = t.duties i + ↑(x.stand.outlay.flatMap (Task.unbegun i)) := by
  have hsum := h.tally (unfinished_handed (i := i)) hx
  rw [hlost, List.flatMap_nil, Multiset.coe_nil, add_zero] at hsum
  exact hsum.symm

theorem Disciplined.nodup_entries (hr : r.Disciplined) : r.registry.entries.Nodup := by
  have hnodup := Multiset.nodup_of_le hr.within (Multiset.nodup_range _)
  rw [whereabouts, Multiset.nodup_add] at hnodup
  exact Multiset.coe_nodup.mp hnodup.2.1

/-- Whoever is in the registry is not on the way there. -/
theorem not_mem_pending (hwithin : r.whereabouts ≤ Multiset.range r.investors.size)
    (hi : i ∈ r.registry.entries) : i ∉ r.pending := by
  have hnodup := Multiset.nodup_of_le hwithin (Multiset.nodup_range _)
  rw [whereabouts, Multiset.nodup_add] at hnodup
  exact fun hpending => Multiset.disjoint_left.mp hnodup.2.2 hpending (Multiset.mem_coe.mpr hi)

theorem mem_pending_of_funding {slot deposit : Nat} {tasks : List Task} (hx : r.controls[c]? = some x)
    (hstand : x.stand = .funding slot i deposit tasks) : i ∈ r.pending := by
  have hdepositing : (i, deposit) ∈ r.depositing := by
    refine Multiset.mem_add.mpr (.inl (Multiset.mem_coe.mpr (List.mem_flatMap.mpr ⟨x, ?_, ?_⟩)))
    · exact Array.mem_toList_iff.mpr (Array.mem_of_getElem? hx)
    · simp [hstand, Stand.depositing]
  exact Multiset.mem_add.mpr (.inr (Multiset.mem_map_of_mem Prod.fst hdepositing))

theorem CallMove.share (hr : r.Disciplined) (hx : r.controls[c]? = some x) (h : CallMove scene c r x a t)
    (hv : r.investors[i]? = some v) : ∃ w, t.investors[i]? = some w ∧ Share a r t i v w := by
  obtain ⟨y, hturn⟩ := h.turn hx
  cases h.muster hx hturn.control with
  | keep hroster houtlay =>
    have hduties := hturn.duties_of_gain (i := i) [] hx (by rw [houtlay, List.append_nil])
    refine ⟨v, ?_, .still (by rw [hduties, Multiset.coe_nil, add_zero])⟩
    rw [show t.investors = r.investors from congrArg Prod.fst hroster, hv]
  | lose hroster houtlay =>
    have hunbegun (d : Duty) (hd : d ∈ (↑(x.stand.outlay.flatMap (Task.unbegun i)) : Multiset Duty)) :
        d.point = none := point_of_unbegun _ (Multiset.mem_coe.mp hd)
    refine ⟨v, ?_, .aside _ hunbegun (hturn.duties_of_loss hx houtlay)⟩
    rw [show t.investors = r.investors from congrArg Prod.fst hroster, hv]
  | build u tasks _ hroster hjobs houtlay =>
    have hnone : tasks.flatMap (Task.unbegun i) = [] :=
      List.flatMap_eq_nil_iff.mpr fun task htask => unbegun_other (by rw [hjobs task htask]; simp)
    have hduties := hturn.duties_of_gain (i := i) [] hx (by rw [houtlay, List.flatMap_append, hnone])
    obtain ⟨hi, -⟩ := Array.getElem?_eq_some_iff.mp hv
    refine ⟨v, ?_, .still (by rw [hduties, Multiset.coe_nil, add_zero])⟩
    rw [show t.investors = r.investors.push u from congrArg Prod.fst hroster,
      Array.getElem?_push, if_neg (Nat.ne_of_lt hi), hv]
  | register slot j deposit tasks accepted hstand hroster houtlay =>
    have hinvestors : t.investors = (r.startInvestor j).1.investors := congrArg Prod.fst hroster
    have hregistry : t.registry = r.registry.add j := congrArg (·.2.2) hroster
    by_cases hij : j = i
    · subst hij
      -- Whoever waits for its deposit is on the way into the registry, and has not been started.
      have hstage := hr.pending j (mem_pending_of_funding hx hstand) v hv
      obtain ⟨hinvestor, -, hgain⟩ := startInvestor_self hv (hr.traders.investor hv)
      have hduties := hturn.duties_of_gain (i := j) _ hx (by rw [houtlay, List.flatMap_append, hgain])
      have hentered : j ∈ t.registry.entries := by simp [hregistry, Registry.add]
      exact ⟨_, by rw [hinvestors, hinvestor], .started hstage hentered hduties⟩
    · obtain ⟨hinvestor, hgain⟩ := startInvestor_other hr.traders hij
      have hduties := hturn.duties_of_gain (i := i) [] hx (by rw [houtlay, List.flatMap_append, hgain])
      exact ⟨v, by rw [hinvestors, hinvestor, hv], .still (by rw [hduties, Multiset.coe_nil, add_zero])⟩
  | tick hqueued _ hroster houtlay =>
    have hinvestors : t.investors = (r.startFirst.1.collectAll scene).1.investors := congrArg Prod.fst hroster
    have hregistry : t.registry = r.registry := congrArg (·.2.2) hroster
    obtain ⟨w, gain, hsummoned, hinvestor, hgain⟩ := beginTick_summoned scene hr.traders
      hr.nodup_entries hv
    have hduties := hturn.duties_of_gain (i := i) gain hx (by rw [houtlay, hgain, hqueued]; rfl)
    refine ⟨w, by rw [hinvestors, hinvestor], ?_⟩
    cases hsummoned with
    | spared => exact .still (by rw [hduties, Multiset.coe_nil, add_zero])
    | started hstage hentry => exact .started hstage (by rwa [hregistry]) hduties
    | collected hcollected =>
      cases hcollected with
      | nothing => exact .still (by rw [hduties, Multiset.coe_nil, add_zero])
      | trade draw w task hnext => exact .handed draw w task hnext hduties

end Calls

section Executions

variable {x y : Execution} {after : Investor × Progress}

theorem unfinished_le (hx : r.executions[e]? = some x) : ↑(x.unfinished i) ≤ r.duties i := by
  have hmem : x ∈ r.executions.toList := Array.mem_toList_iff.mpr (Array.mem_of_getElem? hx)
  obtain ⟨before, later, heq⟩ := List.append_of_mem hmem
  have hle : (↑(x.unfinished i) : Multiset Duty) ≤ ↑(r.executions.toList.flatMap (Execution.unfinished i)) := by
    rw [heq, List.flatMap_append, List.flatMap_cons, ← Multiset.coe_add, ← Multiset.coe_add]
    exact (Multiset.le_add_right _ _).trans (Multiset.le_add_left _ _)
  exact hle.trans (Multiset.le_add_left _ _)

theorem unfinished_self (htask : traderOf x.task = some i) (hfinished : x.finished = false) :
    x.unfinished i = [⟨x.task, x.point?⟩] :=
  if_pos ⟨htask, hfinished⟩

/-- An execution that is not over is among the duties of its trader. -/
theorem duties_of_execution (hx : r.executions[e]? = some x) (htask : traderOf x.task = some i)
    (hfinished : x.finished = false) : ∃ rest, r.duties i = rest + {⟨x.task, x.point?⟩} := by
  obtain ⟨rest, hrest⟩ := Multiset.le_iff_exists_add.mp (unfinished_le (i := i) hx)
  exact ⟨rest, by rw [hrest, unfinished_self htask hfinished, Multiset.coe_singleton, add_comm]⟩

theorem unfinished_other (h : traderOf x.task ≠ some i) : x.unfinished i = [] := if_neg fun h' => h h'.1

theorem unfinished_of_finished (h : x.finished = true) : x.unfinished i = [] :=
  if_neg fun h' => by cases h.symm.trans h'.2

/-- What is left of an execution after a stretch of the job of a trader. -/
theorem unfinished_progress (htask : traderOf y.task = some i) {progress : Progress} {now : Nat}
    (hphase : y.phase = progress.phase now) : (↑(y.unfinished i) : Multiset Duty) = progress.duties y.task := by
  cases progress with
  | waits point =>
    rw [unfinished_self htask (by simp [Execution.finished, hphase, Progress.phase])]
    simp [Execution.point?, hphase, Progress.phase, Progress.duties]
  | ended failure =>
    rw [unfinished_of_finished (by simp [Execution.finished, hphase, Progress.phase])]
    rfl

theorem advance_executions (after : Investor × Progress) (hx : s.executions[e]? = some x) :
    (s.advance e i after).executions.toList =
      s.executions.toList.set e { x with phase := after.2.phase s.now } := by
  unfold advance
  cases after.2 with
  | waits point => exact toList_modify_eq_set hx
  | ended failure => cases failure <;> exact toList_modify_eq_set hx

theorem advance_investors : (s.advance e i after).investors = s.investors.set! i after.1 := by
  unfold advance
  cases after.2 with
  | waits point => rfl
  | ended failure => cases failure <;> rfl

/-- The body of a task of a trader is the first stretch of its job; there is none for an investor that has
    not been built. -/
theorem beginBody_cases (hx : r.executions[e]? = some x) (hjob : x.task.OfTrader) :
    (∃ j v after, traderOf x.task = some j ∧ r.investors[j]? = some v ∧
      v.opening? r.aborted x.task = some after ∧ r.beginBody e = (r.begun e).advance e j after) ∨
    (r.beginBody e).investors = r.investors ∧ ∀ j, traderOf x.task = some j → r.investors[j]? = none := by
  have hbegun : ((r.begun e).executions[e]?).map Execution.task = some x.task := by
    simp [begun, Array.getElem?_modify, hx]
  unfold beginBody
  rw [← begun]
  simp only [hbegun]
  cases htask : x.task with
  | exec label delay job =>
    cases job with
    | signIn j =>
      cases hv : (r.begun e).investors[j]? with
      | none => exact .inr ⟨by simp only [hv]; rfl, fun k hk => Option.some.inj hk ▸ hv⟩
      | some v => exact .inl ⟨j, v, v.beginSignIn r.aborted, rfl, hv, rfl, by simp only [hv]; rfl⟩
    | trade j price =>
      cases hv : (r.begun e).investors[j]? with
      | none => exact .inr ⟨by simp only [hv]; rfl, fun k hk => Option.some.inj hk ▸ hv⟩
      | some v => exact .inl ⟨j, v, v.beginTrade price, rfl, hv, rfl, by simp only [hv]; rfl⟩
    | scripted script =>
      rw [htask] at hjob
      exact hjob.elim
  | enrol => exact .inr ⟨rfl, fun _ hk => by cases hk⟩

theorem beginBody_executions (hx : r.executions[e]? = some x)
    (heq : r.beginBody e = (r.begun e).advance e i after) : (r.beginBody e).executions.toList =
      r.executions.toList.set e { x with began := some r.now, phase := after.2.phase r.now } := by
  have hbegun : (r.begun e).executions[e]? = some { x with began := some r.now } := by
    simp [begun, Array.getElem?_modify, hx]
  rw [heq, advance_executions after hbegun, begun, toList_modify_eq_set hx, List.set_set]

/-- A stretch of the job of one trader leaves all others alone. -/
theorem TaskMove.investors_other (h : TaskMove e r x a t) (hx : r.executions[e]? = some x)
    (hjob : x.task.OfTrader) (htask : traderOf x.task ≠ some i) : t.investors[i]? = r.investors[i]? := by
  have hadvance {s : Run} {j : Nat} {after : Investor × Progress} (hsame : s.investors = r.investors)
      (htrader : traderOf x.task = some j) : (s.advance e j after).investors[i]? = r.investors[i]? := by
    have hne : j ≠ i := fun hij => htask (htrader.trans (congrArg some hij))
    rw [advance_investors, hsame, Array.set!_eq_setIfInBounds, Array.getElem?_setIfInBounds_ne hne]
  cases h with
  | begin =>
    obtain ⟨j, v, after, htrader, _, _, heq⟩ | ⟨heq, _⟩ := beginBody_cases hx hjob
    · rw [heq]
      exact hadvance rfl htrader
    · rw [heq]
  | hear point j _ _ _ _ _ _ htrader => exact hadvance rfl htrader
  | finish _ _ _ _ _ hshape =>
    rw [hshape] at hjob
    exact hjob.elim
  | stop _ _ _ _ _ hshape =>
    rw [hshape] at hjob
    exact hjob.elim
  | _ => rfl

theorem getElem?_advance {after : Investor × Progress} (hv : s.investors[i]? = some v) :
    (s.advance e i after).investors[i]? = some after.1 := by
  obtain ⟨hi, -⟩ := Array.getElem?_eq_some_iff.mp hv
  rw [advance_investors, Array.set!_eq_setIfInBounds, Array.getElem?_setIfInBounds_self_of_lt hi]

/-- What a stretch of an execution does to the duties of a trader. -/
theorem duties_of_set (rest : Multiset Duty) (hbackdrop : t.backdrop = r.backdrop)
    (hx : r.executions[e]? = some x) (hset : t.executions.toList = r.executions.toList.set e y)
    (hbefore : r.duties i = rest + ↑(x.unfinished i)) : t.duties i = rest + ↑(y.unfinished i) := by
  have hsum : t.duties i + ↑(x.unfinished i) = r.duties i + ↑(y.unfinished i) :=
    tally_of_execution (congrArg Backdrop.controls hbackdrop) (congrArg Backdrop.held hbackdrop) hset hx
  rw [hbefore] at hsum
  exact add_right_cancel (hsum.trans (by abel))

theorem TaskMove.share_self (h : TaskMove e r x a t) (hx : r.executions[e]? = some x)
    (hbackdrop : t.backdrop = r.backdrop) (hjob : x.task.OfTrader) (htask : traderOf x.task = some i)
    (hv : r.investors[i]? = some v) : ∃ w, t.investors[i]? = some w ∧ Share a r t i v w := by
  obtain ⟨rest, hbefore⟩ := duties_of_execution hx htask h.unfinished
  have hafter (y : Execution) (hset : t.executions.toList = r.executions.toList.set e y) :
      t.duties i = rest + ↑(y.unfinished i) :=
    duties_of_set rest hbackdrop hx hset
      (by rw [hbefore, unfinished_self htask h.unfinished, Multiset.coe_singleton])
  cases h with
  | begin _ hphase =>
    have hpoint : x.point? = none := by
      obtain ⟨hphase, _⟩ | ⟨_, _, hphase⟩ := hphase <;> simp [Execution.point?, hphase]
    obtain ⟨j, u, after, htrader, hu, hopening, heq⟩ | ⟨_, hnone⟩ := beginBody_cases hx hjob
    · obtain rfl := Option.some.inj (htask.symm.trans htrader)
      obtain rfl := Option.some.inj (hv.symm.trans hu)
      refine ⟨after.1, by rw [heq]; exact getElem?_advance hv, ?_⟩
      rw [hpoint] at hbefore
      refine .opened x.task rest after.1 after.2 hbefore hopening ?_
      rw [hafter _ (beginBody_executions hx heq), unfinished_progress (by exact htask) rfl]
    · cases (hnone i htask).symm.trans hv
  | delay hphase =>
    refine ⟨v, hv, .still ?_⟩
    rw [hafter _ (toList_modify_eq_set hx), hbefore, unfinished_self (by exact htask) rfl,
      Multiset.coe_singleton]
    simp [Execution.point?, hphase]
  | drop _ hphase =>
    have hpoint : x.point? = none := by
      obtain ⟨hphase, _⟩ | ⟨_, hphase⟩ := hphase <;> simp [Execution.point?, hphase]
    refine ⟨v, hv, .aside {⟨x.task, none⟩} (by simp) ?_⟩
    rw [hafter _ (toList_modify_eq_set hx), hbefore, hpoint, unfinished_of_finished rfl, Multiset.coe_nil,
      add_zero]
  | hear p j u w reply gain progress hphase htrader hu hresume =>
    obtain rfl := Option.some.inj (htask.symm.trans htrader)
    obtain rfl := Option.some.inj (hv.symm.trans hu)
    have hpoint : x.point? = some p := by simp [Execution.point?, hphase]
    have hset := advance_executions (s := { r with tracker := r.tracker.addScore gain }) (i := i)
      (w, progress) hx
    rw [hpoint] at hbefore
    refine ⟨w, getElem?_advance (s := { r with tracker := r.tracker.addScore gain }) hv, ?_⟩
    refine .heard e x _ p reply w gain progress rest rfl hx hphase (getElem?_of_set hx hset) rfl rfl hbefore
      (resumed_of_resume hresume) ?_
    rw [hafter _ hset, unfinished_progress (by exact htask) rfl]
  | finish _ _ _ _ _ hshape =>
    rw [hshape] at hjob
    exact hjob.elim
  | stop _ _ _ _ _ hshape =>
    rw [hshape] at hjob
    exact hjob.elim
  | enrol _ _ _ _ _ hshape =>
    rw [hshape] at htask
    cases htask

theorem TaskMove.duties_other (h : TaskMove e r x a t) (hx : r.executions[e]? = some x)
    (hprompt : r.Prompt) (htask : traderOf x.task ≠ some i) : t.duties i = r.duties i := by
  obtain ⟨y, hstint⟩ := h.stint hx (hprompt x (Array.mem_of_getElem? hx))
  have hnone : y.unfinished i = [] := unfinished_other (hstint.task ▸ htask)
  rw [duties_of_set (r.duties i) hstint.backdrop hx hstint.executions
    (by rw [unfinished_other htask, Multiset.coe_nil, add_zero]), hnone, Multiset.coe_nil, add_zero]

theorem TaskMove.share (hr : r.Disciplined) (hx : r.executions[e]? = some x) (h : TaskMove e r x a t)
    (hv : r.investors[i]? = some v) : ∃ w, t.investors[i]? = some w ∧ Share a r t i v w := by
  have hjob := hr.traders.executions x (Array.mem_of_getElem? hx)
  by_cases htask : traderOf x.task = some i
  · exact h.share_self hx (h.backdrop hx) hjob htask hv
  · exact ⟨v, (h.investors_other hx hjob htask).trans hv, .still (h.duties_other hx hr.prompt htask)⟩

end Executions

section Others

theorem duties_enter (command : Command) (driven : Bool) : (r.enter command driven).duties i = r.duties i := by
  simp [duties, tally, Run.enter, Stand.tasks]

theorem giveUp_loses {x y : Control} (hx : r.controls[c]? = some x) (h : CallMove scene c r x (.giveUp c) t)
    (hy : t.controls[c]? = some y) : y.stand.outlay = [] := by
  cases h
  rw [Option.some.inj (hy.symm.trans (getElem?_withStand hx))]
  rfl

/-- Whatever else happens hands out nothing; work that is thrown away or given up is lost. -/
theorem OtherMove.duties (h : OtherMove scene r a t) (i : Nat) :
    ∃ lost, (∀ d ∈ lost, d.point = none) ∧ r.duties i = t.duties i + lost := by
  have hstill (hduties : t.duties i = r.duties i) :
      ∃ lost, (∀ d ∈ lost, d.point = none) ∧ r.duties i = t.duties i + lost :=
    ⟨0, by simp, by rw [hduties, add_zero]⟩
  cases h with
  | enter command => exact hstill (duties_enter command false)
  | launch _ place task submitted htask => exact hstill (tally_launch unfinished_handed htask rfl rfl rfl)
  | discard place =>
    cases htask : r.held[place]? with
    | none =>
      refine hstill ?_
      rw [List.eraseIdx_of_length_le (List.getElem?_eq_none_iff.mp htask)]
    | some task =>
      refine ⟨↑(task.unbegun i), fun d hd => point_of_unbegun [task] (by simpa using hd), ?_⟩
      rw [duties, tally, coe_flatMap_eraseIdx htask, duties, tally]
      abel
  | drive hdrive =>
    obtain ⟨_, rfl⟩ := drive_eq_some hdrive
    exact hstill (duties_enter .start true)
  | collect hcollect =>
    obtain ⟨_, _, _, _, ⟨_, _, rfl⟩ | ⟨_, _, _, _, rfl⟩⟩ := collect_eq_some hcollect
    · exact hstill rfl
    · exact hstill rfl
  | tick htick =>
    obtain ⟨_, _, _, rfl⟩ := tick_eq_some htick
    exact hstill (duties_enter .tick true)
  | leave cause hleave =>
    obtain ⟨_, _, s, rfl, rfl | ⟨c, x, _, hx, hmove⟩⟩ := leave_eq_some scene hleave
    · exact hstill rfl
    · obtain ⟨y, hturn⟩ := hmove.turn hx
      have hlost := giveUp_loses hx hmove hturn.control
      exact ⟨_, fun d hd => point_of_unbegun _ (Multiset.mem_coe.mp hd), hturn.duties_of_loss hx hlost⟩
  | _ => exact hstill rfl

/-- What a step leaves alone that takes on neither a call nor an execution: all investors but one whose
    client retires, and all executions; nobody is started or registered. -/
structure Outside (a : Step) (r t : Run) : Prop where
  investors : t.investors = r.investors ∨ ∃ j u, r.investors[j]? = some u ∧ a = .retire j ∧
    t = r.withInvestor j { u with client := u.client.retire }
  starts : t.starts = r.starts
  entries : t.registry.entries.Sublist r.registry.entries
  executions : ∃ more, t.executions.toList = r.executions.toList ++ more

theorem Outside.still (hsame : (t.roster, t.executions) = (r.roster, r.executions)) : Outside a r t := by
  simp only [roster, Prod.mk.injEq] at hsame
  obtain ⟨⟨hinvestors, hstarts, hregistry⟩, hexecutions⟩ := hsame
  exact ⟨.inl hinvestors, hstarts, by rw [hregistry], ⟨[], by rw [hexecutions, List.append_nil]⟩⟩

theorem OtherMove.outside (ha : a.SparesInvestors) (h : OtherMove scene r a t) : Outside a r t := by
  cases h with
  | launch _ place task submitted =>
    exact ⟨.inl rfl, rfl, List.Sublist.refl _, ⟨_, Array.toList_push⟩⟩
  | drive hdrive =>
    obtain ⟨_, rfl⟩ := drive_eq_some hdrive
    exact .still rfl
  | collect hcollect =>
    obtain ⟨_, _, _, _, ⟨_, _, rfl⟩ | ⟨_, _, _, _, rfl⟩⟩ := collect_eq_some hcollect
    · exact .still rfl
    · exact .still rfl
  | tick htick =>
    obtain ⟨_, _, _, rfl⟩ := tick_eq_some htick
    exact .still rfl
  | leave cause hleave =>
    obtain ⟨_, _, s, rfl, rfl | ⟨c, x, _, _, hmove⟩⟩ := leave_eq_some scene hleave
    · exact .still rfl
    · cases hmove
      exact .still rfl
  | investor _ j u w hu _ _ _ _ hact =>
    obtain ⟨ha, rfl⟩ | ⟨change, rfl⟩ := hact
    · exact ⟨.inr ⟨j, u, hu, ha, rfl⟩, rfl, List.Sublist.refl _, ⟨[], (List.append_nil _).symm⟩⟩
    · exact absurd rfl (ha change)
  | remove id => exact ⟨.inl rfl, rfl, List.filter_sublist, ⟨[], (List.append_nil _).symm⟩⟩
  | _ => exact .still rfl

theorem OtherMove.share (ha : a.SparesInvestors) (h : OtherMove scene r a t) (hv : r.investors[i]? = some v) :
    ∃ w, t.investors[i]? = some w ∧ Share a r t i v w := by
  obtain hsame | ⟨j, u, hu, rfl, rfl⟩ := (h.outside ha).investors
  · obtain ⟨lost, hlost, hduties⟩ := h.duties i
    exact ⟨v, by rw [hsame, hv], .aside lost hlost hduties⟩
  · by_cases hij : j = i
    · subst hij
      obtain rfl := Option.some.inj (hv.symm.trans hu)
      obtain ⟨hi, -⟩ := Array.getElem?_eq_some_iff.mp hv
      exact ⟨_, by simp [withInvestor, hi], .retired rfl rfl⟩
    · exact ⟨v, by simp [withInvestor, hij, hv], .still rfl⟩

end Others

theorem step_share (hr : r.Disciplined) (ha : a.SparesInvestors) (h : r.step scene a = some t)
    (hv : r.investors[i]? = some v) : ∃ w, t.investors[i]? = some w ∧ Share a r t i v w := by
  obtain ⟨c, x, hx, hmove⟩ | ⟨e, x, hx, hmove⟩ | hmove := step_cases h
  · exact hmove.share hr hx hv
  · exact hmove.share hr hx hv
  · exact hmove.share ha hv

end Run

end ExchangeLoad
