import ExchangeLoad.Proofs.Trader.Discipline

/-!
One trade at a time. A trader is busy from the moment when it hands out a trade to the end of the job, so
that no second one can be handed out in between. The end of the job is the only way out: however the job
ended, the trader is free then, and stays so until it hands out the next trade.
-/

namespace ExchangeLoad

/-- Whether a task is a trade of the trader with number `i`. -/
def Task.IsTradeOf (i : Nat) : Task → Prop
  | .exec _ _ (.trade j _) => j = i
  | _ => False

instance (i : Nat) : DecidablePred (Task.IsTradeOf i) := fun task =>
  match task with
  | .exec _ _ (.trade j _) => inferInstanceAs (Decidable (j = i))
  | .exec _ _ (.signIn _) => .isFalse False.elim
  | .exec _ _ (.scripted _) => .isFalse False.elim
  | .enrol .. => .isFalse False.elim

theorem Task.IsTradeOf.eq {i : Nat} {task : Task} (h : task.IsTradeOf i) :
    ∃ label delay price, task = .exec label delay (.trade i price) := by
  unfold IsTradeOf at h
  split at h
  · exact ⟨_, _, _, by rw [h]⟩
  · exact h.elim

/-- A task, if it is a trade of the trader with number `i`. -/
def Task.trades (i : Nat) (task : Task) : List Task := if task.IsTradeOf i then [task] else []

/-- The trade of the trader with number `i` that an execution is until it is over. -/
def Execution.trades (i : Nat) (e : Execution) : List Task := if e.finished then [] else e.task.trades i

/-- The trade of the trader with number `i` that a duty is. -/
def Duty.trade? (i : Nat) (d : Duty) : Option Task := if d.task.IsTradeOf i then some d.task else none

namespace Investor

variable {i : Nat} {v w : Investor} {d : Duty} {p : Point} {reply : Reply} {aborted : Bool} {gain : Int}
  {progress : Progress} {failure : Option Fault} {duties : Multiset Duty}

theorem Engaged.trading_of_trade (h : v.Engaged i d) (htrade : d.task.IsTradeOf i) : v.Trading := by
  cases h with
  | summoned => exact htrade.elim
  | signingUp => exact htrade.elim
  | signingIn => exact htrade.elim
  | handed _ _ _ htrading => exact htrading
  | asking _ _ _ _ htrading => exact htrading
  | ordering _ _ _ _ _ _ _ htrading => exact htrading

/-- A trader has no trade among its duties, or just one. -/
theorem Standing.trade (h : Standing i v duties) : duties.filterMap (Duty.trade? i) = 0 ∨
    v.busy = true ∧ ∃ task, duties.filterMap (Duty.trade? i) = {task} := by
  cases h with
  | resting => exact .inl (Multiset.filterMap_zero _)
  | engaged d h =>
    rw [← Multiset.coe_singleton, Multiset.filterMap_coe]
    by_cases htrade : d.task.IsTradeOf i
    · exact .inr ⟨(h.trading_of_trade htrade).busy, d.task, by simp [Duty.trade?, htrade]⟩
    · exact .inl (by simp [Duty.trade?, htrade])

/-- However a trade comes to its end, the trader is free then. -/
theorem Resumed.free (h : Resumed v aborted p reply w gain (.ended failure)) (htrades : p.trades = true) :
    w.busy = false := by
  cases h with
  | trouble _ _ hnot => cases hnot.symm.trans htrades
  | setback => exact busy_free
  | signedIn => cases htrades
  | desisted => exact busy_free
  | placed => exact busy_free

/-- No answer makes a trader busy. -/
theorem Resumed.busy (h : Resumed v aborted p reply w gain progress) (hbusy : w.busy = true) :
    v.busy = true := by
  cases h with
  | signedIn => exact hbusy
  | trouble | signedUp | ordered => simpa using hbusy
  | setback | desisted | placed => simp at hbusy

end Investor

open Investor

namespace Run

/-- The trades of the trader with number `i` that calls have gathered, that are held, or whose execution is
    not over. -/
def openTrades (i : Nat) (r : Run) : Multiset Task := r.tally (Task.trades i) (Execution.trades i)

/-- From one run to the next, the trader with number `i` was asked for work and handed out a trade. -/
def HandsOut (i : Nat) (r t : Run) : Prop :=
  ∃ v w draw task, r.investors[i]? = some v ∧ v.next i draw = some (w, task) ∧ t.investors[i]? = some w ∧
    t.openTrades i = r.openTrades i + {task}

/-- Histories in which the trader with number `i` hands out no trade. -/
inductive Abides (scene : Scene) (i : Nat) : Run → Run → Prop where
  | refl (r : Run) : Abides scene i r r
  | step {r s t : Run} (a : Step) (h : Abides scene i r s) (ha : a.SparesInvestors)
      (hstep : s.step scene a = some t) (hnone : ¬HandsOut i s t) : Abides scene i r t
  | pass {r s : Run} (ms : Nat) (h : Abides scene i r s) : Abides scene i r { s with now := s.now + ms }

variable {scene : Scene} {e i : Nat} {r r₀ s t : Run} {a : Step} {v w : Investor} {x y : Execution}

theorem tally_filterMap {β γ : Type} (f : Task → List β) (g : Execution → List β) (k : β → Option γ) :
    (r.tally f g).filterMap k = r.tally (fun task => (f task).filterMap k) (fun e => (g e).filterMap k) := by
  simp only [tally, Multiset.filterMap_add, Multiset.filterMap_coe, List.filterMap_flatMap]

theorem traderOf_of_trade {task : Task} (htrade : task.IsTradeOf i) : traderOf task = some i := by
  obtain ⟨_, _, _, rfl⟩ := htrade.eq
  rfl

theorem filterMap_trade? (task : Task) (point : Option Point) :
    (if traderOf task = some i then [(⟨task, point⟩ : Duty)] else []).filterMap (Duty.trade? i) =
      task.trades i := by
  by_cases htrade : task.IsTradeOf i
  · simp [Duty.trade?, Task.trades, htrade, traderOf_of_trade htrade]
  · split <;> simp [Duty.trade?, Task.trades, htrade]

/-- The trades that are open are those among the duties. -/
theorem openTrades_eq (r : Run) : r.openTrades i = (r.duties i).filterMap (Duty.trade? i) := by
  rw [duties, tally_filterMap, openTrades]
  congr 1
  · funext task
    exact (filterMap_trade? task none).symm
  · funext e
    cases hfinished : e.finished with
    | true => simp [Execution.trades, Execution.unfinished, hfinished]
    | false =>
      simp only [Execution.trades, Execution.unfinished, hfinished, and_true]
      exact (filterMap_trade? e.task e.point?).symm

theorem Share.busy (h : Share a r t i v w) (hv : v.IsTrader) (hbusy : w.busy = true) :
    v.busy = true ∨ ∃ draw task, v.next i draw = some (w, task) ∧
      t.openTrades i = r.openTrades i + {task} := by
  cases h with
  | aside => exact .inl hbusy
  | retired => exact .inl hbusy
  | started => exact .inl hbusy
  | handed draw w task hnext hduties =>
    refine .inr ⟨draw, task, hnext, ?_⟩
    have htrade : task.IsTradeOf i := by
      obtain ⟨_, _, rfl⟩ := traded_of_next hv hnext
      rfl
    rw [openTrades_eq, openTrades_eq, hduties, Multiset.filterMap_add, ← Multiset.coe_singleton,
      Multiset.filterMap_coe]
    simp [Duty.trade?, htrade]
  | opened task rest w progress _ hopening =>
    cases opened_of_opening hopening <;> exact .inl hbusy
  | heard _ _ _ _ _ _ _ _ _ _ _ _ _ _ _ _ hresumed => exact .inl (hresumed.busy hbusy)

/-- The job of a trade waits for what a trade asks only. -/
theorem Disciplined.trades_of_trade (hr : r.Disciplined) (hx : r.executions[e]? = some x)
    (htrade : x.task.IsTradeOf i) (hv : r.investors[i]? = some v) {p : Point} (hphase : x.phase = .asking p) :
    p.trades = true := by
  have hpoint : x.point? = some p := by simp [Execution.point?, hphase]
  obtain ⟨rest, hbefore⟩ := duties_of_execution hx (traderOf_of_trade htrade)
    (by simp [Execution.finished, hphase])
  have hstanding := hr.standing i v hv
  rw [hbefore, hpoint] at hstanding
  have hengaged := hstanding.engaged_of_add.2.1
  obtain ⟨_, hstarted⟩ | ⟨htrades, _⟩ := hengaged.of_point
  · cases (hengaged.trading_of_trade htrade).stage.symm.trans hstarted
  · exact htrades

/-- A stretch that ends the job of a trade leaves the trader free. -/
theorem TaskMove.free {time : Nat} {failure : Option Fault} (hr : r.Disciplined)
    (hx : r.executions[e]? = some x) (h : TaskMove e r x a t) (htrade : x.task.IsTradeOf i)
    (hv : r.investors[i]? = some v) (hy : t.executions[e]? = some y)
    (hended : y.phase = .ended time failure) : ∃ w, t.investors[i]? = some w ∧ w.busy = false := by
  have htrader := traderOf_of_trade htrade
  have hjob := hr.traders.executions x (Array.mem_of_getElem? hx)
  have hafter {z : Execution} (hset : t.executions.toList = r.executions.toList.set e z) :
      z.phase = .ended time failure := by
    obtain rfl := Option.some.inj (hy.symm.trans (getElem?_of_set hx hset))
    exact hended
  cases h with
  | begin =>
    obtain ⟨j, u, after, hj, _, hopening, heq⟩ | ⟨_, hnone⟩ := beginBody_cases hx hjob
    · obtain ⟨_, _, _, htask⟩ := htrade.eq
      rw [htask] at hopening
      obtain rfl := Option.some.inj hopening
      cases hafter (beginBody_executions hx heq)
    · cases (hnone i htrader).symm.trans hv
  | delay => cases hafter (toList_modify_eq_set hx)
  | drop => cases hafter (toList_modify_eq_set hx)
  | hear p j u w reply gain progress hphase hj hu hresume =>
    obtain rfl := Option.some.inj (htrader.symm.trans hj)
    have hprogress := hafter (advance_executions (s := { r with tracker := r.tracker.addScore gain }) (i := i)
      (w, progress) hx)
    have htrades := hr.trades_of_trade hx htrade hv hphase
    refine ⟨w, getElem?_advance (s := { r with tracker := r.tracker.addScore gain }) hv, ?_⟩
    obtain rfl := Option.some.inj (hv.symm.trans hu)
    have hresumed := resumed_of_resume hresume
    cases progress with
    | waits => cases hprogress
    | ended => exact hresumed.free htrades
  | finish _ _ _ _ _ hshape =>
    rw [hshape] at htrade
    exact htrade.elim
  | stop _ _ _ _ _ hshape =>
    rw [hshape] at htrade
    exact htrade.elim
  | enrol _ _ _ _ _ hshape =>
    rw [hshape] at htrade
    exact htrade.elim

theorem getElem?_of_append {more : List Execution} (hx : r.executions[e]? = some x)
    (happend : t.executions.toList = r.executions.toList ++ more) : t.executions[e]? = some x := by
  obtain ⟨he, -⟩ := Array.getElem?_eq_some_iff.mp hx
  have he' : e < r.executions.toList.length := by simpa using he
  rw [← Array.getElem?_toList, happend, List.getElem?_append_left he', Array.getElem?_toList, hx]

/-- Only a stretch of its own takes an execution on. -/
theorem step_execution (hr : r.Disciplined) (ha : a.SparesInvestors) (h : r.step scene a = some t)
    (hx : r.executions[e]? = some x) : TaskMove e r x a t ∨ t.executions[e]? = some x := by
  obtain ⟨c, _, _, hmove⟩ | ⟨k, z, hz, hmove⟩ | hmove := step_cases h
  · obtain ⟨tasks, happend⟩ := hmove.stretch.executions
    exact .inr (getElem?_of_append hx happend)
  · by_cases hk : k = e
    · subst hk
      obtain rfl := Option.some.inj (hx.symm.trans hz)
      exact .inl hmove
    · obtain ⟨y, hstint⟩ := hmove.stint hz (hr.prompt z (Array.mem_of_getElem? hz))
      refine .inr ?_
      rw [← Array.getElem?_toList, hstint.executions, List.getElem?_set_ne hk, Array.getElem?_toList, hx]
  · obtain ⟨more, happend⟩ := (hmove.outside ha).executions
    exact .inr (getElem?_of_append hx happend)

theorem Abides.becomes (h : Abides scene i r s) : Becomes scene Step.SparesInvestors r s := by
  induction h with
  | refl => exact .refl _
  | step a _ ha hstep _ ih => exact .step a ih ha hstep
  | pass ms _ ih => exact .pass ms ih

/-- A trader that is free stays so until it hands out a trade. -/
theorem Abides.free (hscene : scene.TradersOnly) (h : Abides scene i r s) (hr : r.Disciplined)
    (hv : r.investors[i]? = some v) (hfree : v.busy = false) :
    ∃ w, s.investors[i]? = some w ∧ w.busy = false := by
  induction h with
  | refl => exact ⟨v, hv, hfree⟩
  | step a hs ha hstep hnone ih =>
    obtain ⟨u, hu, hfree⟩ := ih
    have hdisciplined := hs.becomes.disciplined hscene hr
    obtain ⟨w, hw, hshare⟩ := step_share hdisciplined ha hstep hu
    refine ⟨w, hw, Bool.eq_false_iff.mpr fun hbusy => ?_⟩
    obtain hbusy | ⟨draw, task, hnext, hopen⟩ := hshare.busy (hdisciplined.books i u hu).trader hbusy
    · cases hfree.symm.trans hbusy
    · exact hnone ⟨u, w, draw, task, hu, hnext, hw, hopen⟩
  | pass ms _ ih => exact ih

/-- In every history of a run of traders, whatever calls fail, whatever work is thrown away, whoever
    retires, and whenever it is aborted: at most one trade of a trader is open, and while one is, the trader
    hands out nothing. Once the job of a trade has come to its end, whatever its end was, the trader hands
    out a trade again the next time that it is asked while it is signed in and has stock. -/
theorem one_trade_open (hscene : scene.TradersOnly) (h₀ : r₀.Unbegun)
    (h : Becomes scene Step.SparesInvestors r₀ r) (hv : r.investors[i]? = some v) :
    (r.openTrades i).card ≤ 1 ∧ (r.openTrades i ≠ 0 → ∀ draw, v.next i draw = none) ∧
    ∀ (a : Step) (t : Run) (e : Nat) (x y : Execution) (time : Nat) (failure : Option Fault),
      a.SparesInvestors → r.step scene a = some t → r.executions[e]? = some x → x.task.IsTradeOf i →
      x.finished = false → t.executions[e]? = some y → y.phase = .ended time failure →
      ∀ s, Abides scene i t s → ∃ w, s.investors[i]? = some w ∧ (w.life = .signedIn → w.hasStock = true →
        ∀ draw, ∃ u task, w.next i draw = some (u, task) ∧ task.IsTradeOf i) := by
  have hr := h.disciplined hscene h₀.disciplined
  have hstanding := hr.standing i v hv
  refine ⟨?_, ?_, ?_⟩
  · rw [openTrades_eq]
    obtain hnone | ⟨_, task, hone⟩ := hstanding.trade
    · rw [hnone]
      exact Nat.zero_le 1
    · rw [hone, Multiset.card_singleton]
  · intro hopen draw
    rw [openTrades_eq] at hopen
    obtain hnone | ⟨hbusy, _⟩ := hstanding.trade
    · exact absurd hnone hopen
    · rw [next_trader (hr.books i v hv).trader, hbusy]
      simp
  · intro a t e x y time failure ha hstep hx htrade hunfinished hy hended s hs
    have ht := step_disciplined hscene ha hstep hr
    have hfree : ∃ u, t.investors[i]? = some u ∧ u.busy = false := by
      -- The execution was not over before, so that the step is a stretch of its own.
      obtain hmove | hkept := step_execution hr ha hstep hx
      · exact hmove.free hr hx htrade hv hy hended
      · obtain rfl := Option.some.inj (hy.symm.trans hkept)
        simp [Execution.finished, hended] at hunfinished
    obtain ⟨u, hu, hfree⟩ := hfree
    obtain ⟨w, hw, hfree⟩ := hs.free hscene ht hu hfree
    refine ⟨w, hw, fun hlife hstock draw => ?_⟩
    have htrader := ((hs.becomes.disciplined hscene ht).books i w hw).trader
    exact ⟨_, .exec "trade" draw.pause.val (.trade i (draw.price w.params.base)),
      by rw [next_trader htrader, if_pos ⟨hlife, hstock, hfree⟩], rfl⟩

/-- While a seller waits for a look at the market it hands out nothing; when the look has failed, it hands
    out the next trade. -/
theorem one_trade_open_of_failed_look :
    let scene := Scene.plain 1 0
    let steps : List Step := [.enter .tick, .proceed 0 none, .execute 0, .look 0, .hear 0 .done, .hear 0 .done,
      .enter .tick, .proceed 1 none, .execute 0, .look 1]
    ∃ r v t w, ofSeller.play scene steps = some r ∧ r.investors[0]? = some v ∧ (r.openTrades 0).card = 1 ∧
      (∀ draw, v.next 0 draw = none) ∧ r.step scene (.hear 1 (.failed (.plain "no"))) = some t ∧
      t.investors[0]? = some w ∧ ∀ draw, ∃ u task, w.next 0 draw = some (u, task) ∧ task.IsTradeOf 0 := by
  intro scene steps
  have hplayed : (ofSeller.play scene steps).bind (fun r => (r.investors[0]?).bind fun v =>
      (r.step scene (.hear 1 (.failed (.plain "no")))).bind fun t => (r.executions[1]?).bind fun x =>
      (t.executions[1]?).bind fun y => (t.investors[0]?).map fun w => ((r.openTrades 0).card,
        decide (x.task.IsTradeOf 0), x.finished, y.phase, w.life, w.hasStock)) =
      some (1, true, false, .ended 0 (some ((Fault.plain "no").within "info failed")), .signedIn, true) := by
    decide +kernel
  obtain ⟨r, hr, hplayed⟩ := Option.bind_eq_some_iff.mp hplayed
  obtain ⟨v, hv, hplayed⟩ := Option.bind_eq_some_iff.mp hplayed
  obtain ⟨t, ht, hplayed⟩ := Option.bind_eq_some_iff.mp hplayed
  obtain ⟨x, hx, hplayed⟩ := Option.bind_eq_some_iff.mp hplayed
  obtain ⟨y, hy, hplayed⟩ := Option.bind_eq_some_iff.mp hplayed
  obtain ⟨w, hw, hvalues⟩ := Option.map_eq_some_iff.mp hplayed
  simp only [Prod.mk.injEq] at hvalues
  obtain ⟨hcard, htrade, hunfinished, hended, hlife, hstock⟩ := hvalues
  have hsteps : ∀ a ∈ steps, a.SparesInvestors := by simp [steps, Step.SparesInvestors]
  obtain ⟨_, hnone, hagain⟩ := one_trade_open (fun _ _ => rfl) ofSeller_unbegun (becomes_of_play hsteps hr) hv
  refine ⟨r, v, t, w, hr, hv, hcard, hnone ?_, ht, hw, ?_⟩
  · intro hzero
    rw [hzero] at hcard
    cases hcard
  · obtain ⟨w', hw', hready⟩ := hagain _ t 1 x y 0 _ (by simp [Step.SparesInvestors]) ht hx
      (of_decide_eq_true htrade) hunfinished hy hended t (.refl t)
    obtain rfl := Option.some.inj (hw.symm.trans hw')
    exact hready hlife hstock

end Run

end ExchangeLoad
