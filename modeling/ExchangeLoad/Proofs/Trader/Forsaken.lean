import ExchangeLoad.Proofs.Trader.Flight

/-!
Work that is lost with a call. A tick starts an investor and collects the trades of others before it waits
for identities. If it fails then, or its caller gives it up, nobody has what it gathered; but the investor
remains started, and the others remain busy. Nobody takes these marks back, so that the traders are never
asked for anything again. A tick that hands out what it gathered is not concerned, nor is any trader of
which a lost call had no task.
-/

namespace ExchangeLoad

open Investor

namespace Investor

/-- A trader waits for a task of its own to be carried out, and hands out nothing before that. -/
inductive CountsOn (v : Investor) : Task → Prop where
  | signIn (label : String) (delay i : Nat) (hstage : v.stage = .started) (hasked : v.asked = []) :
      CountsOn v (.exec label delay (.signIn i))
  | trade (label : String) (delay i : Nat) (price : Int) (hstage : v.stage = .signedIn)
      (hstock : v.hasStock = true) (hbusy : v.busy = true) : CountsOn v (.exec label delay (.trade i price))

/-- Nothing happened to an investor, but that its client may have retired. -/
def Stays (v w : Investor) : Prop := w = v ∨ w = { v with client := v.client.retire }

variable {i number : Nat} {u v w : Investor} {task : Task} {draw : Draw}

theorem Engaged.countsOn (h : v.Engaged i ⟨task, none⟩) (hasked : v.Answered) : v.CountsOn task := by
  cases h with
  | summoned label delay hstage htalk =>
    rw [Answered, htalk] at hasked
    exact .signIn label delay i hstage hasked
  | handed label delay price htrading =>
    exact .trade label delay i price htrading.stage htrading.stock htrading.busy

theorem Stays.trans (h : v.Stays w) (h' : w.Stays u) : v.Stays u := by
  obtain rfl | rfl := h
  · exact h'
  · obtain rfl | rfl := h'
    · exact .inr rfl
    · exact .inr rfl

theorem CountsOn.stays (h : v.CountsOn task) (hstays : v.Stays w) : w.CountsOn task := by
  obtain rfl | rfl := hstays
  · exact h
  · cases h with
    | signIn label delay i hstage hasked => exact .signIn label delay i hstage hasked
    | trade label delay i price hstage hstock hbusy => exact .trade label delay i price hstage hstock hbusy

theorem CountsOn.next (h : v.CountsOn task) (hv : v.IsTrader) : v.next number draw = none := by
  rw [next_trader hv, if_neg]
  rintro ⟨hlife, -, hfree⟩
  cases h with
  | signIn _ _ _ hstage => cases hstage.symm.trans (stage_of_life hv hlife)
  | trade _ _ _ _ _ _ hbusy => cases hbusy.symm.trans hfree

end Investor

namespace Run

variable {scene : Scene} {c i : Nat} {r r₀ s t : Run} {a : Step} {v w : Investor} {x y : Control} {task : Task}

theorem eq_zero_of_add {rest lost : Multiset Duty} (h : rest + lost = 0) : rest = 0 :=
  Multiset.le_zero.mp ((Multiset.le_add_right rest lost).trans_eq h)

theorem outlay_of_lost {stand : Stand} (h : stand.lost = true) : stand.outlay = [] := by
  cases stand with
  | ended result => cases result <;> simp_all [Stand.lost, Stand.outlay, Stand.tasks]
  | dropped => rfl
  | _ => cases h

theorem getElem?_enter (command : Command) (driven : Bool) (hx : r.controls[c]? = some x) :
    (r.enter command driven).controls[c]? = some x := by
  obtain ⟨hc, -⟩ := Array.getElem?_eq_some_iff.mp hx
  rw [Run.enter, Array.getElem?_push, if_neg (Nat.ne_of_lt hc), hx]

/-- What takes on neither a call nor an execution leaves a call where it stands, or gives it up. -/
theorem OtherMove.calls (h : OtherMove scene r a t) (hx : r.controls[c]? = some x) :
    t.controls[c]? = some x ∨ ∃ s loop, CallMove scene c r x (.giveUp c) s ∧ t = { s with loop } := by
  cases h with
  | enter command => exact .inl (getElem?_enter command false hx)
  | drive hdrive =>
    obtain ⟨-, rfl⟩ := drive_eq_some hdrive
    exact .inl (getElem?_enter .start true hx)
  | tick htick =>
    obtain ⟨_, -, -, rfl⟩ := tick_eq_some htick
    exact .inl (getElem?_enter .tick true hx)
  | collect hcollect =>
    obtain ⟨_, _, -, -, ⟨_, -, rfl⟩ | ⟨_, _, -, -, rfl⟩⟩ := collect_eq_some hcollect
    · exact .inl hx
    · exact .inl hx
  | leave cause hleave =>
    obtain ⟨-, -, s, rfl, rfl | ⟨k, z, -, hz, hmove⟩⟩ := leave_eq_some scene hleave
    · exact .inl hx
    · by_cases hk : k = c
      · subst hk
        obtain rfl := Option.some.inj (hx.symm.trans hz)
        exact .inr ⟨s, _, hmove, rfl⟩
      · exact .inl ((hmove.stretch.controls c (Ne.symm hk)).trans hx)
  | _ => exact .inl hx

/-- A call that is lost in a step went on in that step. -/
theorem step_lost (h : r.step scene a = some t) (hx : r.controls[c]? = some x) (hkept : x.stand.lost = false)
    (hy : t.controls[c]? = some y) (hlost : y.stand.lost = true) :
    ∃ b s loop, CallMove scene c r x b s ∧ t = { s with loop } := by
  have hchanged : t.controls[c]? ≠ some x := by
    intro hsame
    obtain rfl := Option.some.inj (hsame.symm.trans hy)
    cases hkept.symm.trans hlost
  obtain ⟨k, z, hz, hmove⟩ | ⟨e, z, hz, hmove⟩ | hmove := step_cases h
  · by_cases hk : k = c
    · subst hk
      obtain rfl := Option.some.inj (hx.symm.trans hz)
      exact ⟨a, t, t.loop, hmove, rfl⟩
    · exact absurd ((hmove.stretch.controls c (Ne.symm hk)).trans hx) hchanged
  · have hcontrols : t.controls = r.controls := congrArg Backdrop.controls (hmove.backdrop hz)
    exact absurd (hcontrols ▸ hx) hchanged
  · obtain hsame | ⟨s, loop, hgivenUp, heq⟩ := hmove.calls hx
    · exact absurd hsame hchanged
    · exact ⟨.giveUp c, s, loop, hgivenUp, heq⟩

/-- A stretch after which a call has nothing to hand out leaves every trader as it is. -/
theorem CallMove.spared (hr : r.Disciplined) (hx : r.controls[c]? = some x) (h : CallMove scene c r x a t)
    (hy : t.controls[c]? = some y) (hnone : y.stand.outlay = []) (hv : r.investors[i]? = some v) :
    t.investors[i]? = some v := by
  cases h.muster hx hy with
  | keep hroster => rw [show t.investors = r.investors from congrArg Prod.fst hroster, hv]
  | lose hroster => rw [show t.investors = r.investors from congrArg Prod.fst hroster, hv]
  | build u tasks _ hroster =>
    obtain ⟨hi, -⟩ := Array.getElem?_eq_some_iff.mp hv
    rw [show t.investors = r.investors.push u from congrArg Prod.fst hroster,
      Array.getElem?_push, if_neg (Nat.ne_of_lt hi), hv]
  | register slot j deposit tasks accepted _ hroster houtlay =>
    rw [hnone] at houtlay
    obtain ⟨-, hstarted⟩ := List.append_eq_nil_iff.mp houtlay.symm
    rw [show t.investors = (r.startInvestor j).1.investors from congrArg Prod.fst hroster]
    by_cases hij : j = i
    · subst hij
      obtain ⟨-, -, hgain⟩ := startInvestor_self hv (hr.traders.investor hv)
      rw [hstarted] at hgain
      cases hgain
    · rw [(startInvestor_other hr.traders hij).1, hv]
  | tick _ _ hroster houtlay =>
    obtain ⟨w, gain, hsummoned, hinvestor, hgain⟩ := beginTick_summoned scene hr.traders hr.nodup_entries hv
    rw [← houtlay, hnone] at hgain
    subst hgain
    rw [show t.investors = (r.startFirst.1.collectAll scene).1.investors from congrArg Prod.fst hroster,
      hinvestor]
    cases hsummoned with
    | spared => rfl
    | collected hcollected =>
      cases hcollected
      rfl

/-- What a lost call had gathered is lost, and nothing else changes for any trader. -/
theorem step_loses (hr : r.Disciplined) (h : r.step scene a = some t) (hx : r.controls[c]? = some x)
    (hkept : x.stand.lost = false) (hy : t.controls[c]? = some y) (hlost : y.stand.lost = true)
    (hv : r.investors[i]? = some v) : t.investors[i]? = some v ∧
      r.duties i = t.duties i + ↑(x.stand.tasks.flatMap (Task.unbegun i)) := by
  have hnone := outlay_of_lost hlost
  obtain ⟨b, s, loop, hmove, rfl⟩ := step_lost h hx hkept hy hlost
  have hspared : s.investors[i]? = some v := hmove.spared hr hx hy hnone hv
  obtain ⟨z, hturn⟩ := hmove.turn hx
  obtain rfl := Option.some.inj (hy.symm.trans hturn.control)
  rw [← outlay_of_not_over hmove.not_over]
  exact ⟨hspared, hturn.duties_of_loss hx hnone⟩

/-- A trader that counts on a task which nobody has stays as it is. -/
theorem Share.forsaken (h : Share a r t i v w) (hv : v.IsTrader) (hcounts : v.CountsOn task)
    (hnone : r.duties i = 0) : t.duties i = 0 ∧ v.Stays w := by
  have hidle {rest : Multiset Duty} {d : Duty} : r.duties i ≠ rest + {d} := by
    intro hbefore
    rw [hnone, Multiset.add_comm, Multiset.singleton_add] at hbefore
    exact Multiset.zero_ne_cons hbefore
  cases h with
  | aside lost _ hduties =>
    rw [hnone] at hduties
    exact ⟨eq_zero_of_add hduties.symm, .inl rfl⟩
  | retired _ hduties => exact ⟨hduties.trans hnone, .inr rfl⟩
  | started hstage =>
    cases hcounts with
    | signIn _ _ _ hstarted => cases hstage.symm.trans hstarted
    | trade _ _ _ _ hsignedIn => cases hstage.symm.trans hsignedIn
  | handed draw w task hnext => cases (hcounts.next hv).symm.trans hnext
  | opened _ _ _ _ hbefore => exact absurd hbefore hidle
  | heard _ _ _ _ _ _ _ _ _ _ _ _ _ _ _ hbefore => exact absurd hbefore hidle

theorem Becomes.forsaken (hscene : scene.TradersOnly) (h : Becomes scene Step.SparesInvestors t s)
    (ht : t.Disciplined) (hv : t.investors[i]? = some v) (hcounts : v.CountsOn task) (hnone : t.duties i = 0) :
    ∃ w, s.investors[i]? = some w ∧ s.duties i = 0 ∧ v.Stays w := by
  induction h with
  | refl => exact ⟨v, hv, hnone, .inl rfl⟩
  | step a hs ha hstep ih =>
    obtain ⟨u, hu, hnone, hstays⟩ := ih
    have hdisciplined := hs.disciplined hscene ht
    obtain ⟨w, hw, hshare⟩ := step_share hdisciplined ha hstep hu
    have htrader := (hdisciplined.books i u hu).trader
    obtain ⟨hnone, hstays'⟩ := hshare.forsaken htrader (hcounts.stays hstays) hnone
    exact ⟨w, hw, hnone, hstays.trans hstays'⟩
  | pass ms _ ih => exact ih

/-- When a call fails or is given up, each trader of which it had gathered a task counts on that task for
    ever, though nobody has it: in every history from then on the trader has nothing to do, and hands out
    nothing. Every other trader is left as it was, with the work that it had. -/
theorem forsaken_by_lost_call (hscene : scene.TradersOnly) (h₀ : r₀.Unbegun)
    (h : Becomes scene Step.SparesInvestors r₀ r) (ha : a.SparesInvestors) (hstep : r.step scene a = some t)
    (hx : r.controls[c]? = some x) (hkept : x.stand.lost = false) (hy : t.controls[c]? = some y)
    (hlost : y.stand.lost = true) (hv : r.investors[i]? = some v) :
    (∀ task ∈ x.stand.tasks, traderOf task = some i → v.CountsOn task ∧
      ∀ s, Becomes scene Step.SparesInvestors t s → ∃ w, s.investors[i]? = some w ∧ s.duties i = 0 ∧
        v.Stays w ∧ ∀ draw, w.next i draw = none) ∧
    ((∀ task ∈ x.stand.tasks, traderOf task ≠ some i) →
      t.investors[i]? = some v ∧ t.duties i = r.duties i) := by
  have hr := h.disciplined hscene h₀.disciplined
  have ht := step_disciplined hscene ha hstep hr
  obtain ⟨hv', hduties⟩ := step_loses hr hstep hx hkept hy hlost hv
  refine ⟨fun task htask htrader => ?_, fun hothers => ⟨hv', ?_⟩⟩
  · have hunbegun : (⟨task, none⟩ : Duty) ∈ (↑(x.stand.tasks.flatMap (Task.unbegun i)) : Multiset Duty) :=
      Multiset.mem_coe.mpr (List.mem_flatMap.mpr ⟨task, htask, by simp [unbegun_self htrader]⟩)
    obtain ⟨others, hothers⟩ := Multiset.exists_cons_of_mem hunbegun
    -- The task was the only duty of its trader, so that none is left.
    have hstanding := hr.standing i v hv
    rw [hduties, hothers, ← Multiset.singleton_add, add_comm {_}, ← add_assoc] at hstanding
    obtain ⟨hrest, hengaged, hasked⟩ := hstanding.engaged_of_add
    have hnone : t.duties i = 0 := eq_zero_of_add hrest
    rw [Option.toList_none, List.map_nil, List.append_nil] at hasked
    have hcounts : v.CountsOn task := hengaged.countsOn hasked
    refine ⟨hcounts, fun s hs => ?_⟩
    obtain ⟨w, hw, hidle, hstays⟩ := hs.forsaken hscene ht hv' hcounts hnone
    have htrader := ((hs.disciplined hscene ht).books i w hw).trader
    exact ⟨w, hw, hidle, hstays, fun draw => (hcounts.stays hstays).next htrader⟩
  · have hnone : x.stand.tasks.flatMap (Task.unbegun i) = [] :=
      List.flatMap_eq_nil_iff.mpr fun task htask => unbegun_other (hothers task htask)
    rw [hduties, hnone, Multiset.coe_nil, add_zero]

/-- A seller signs in; then a tick collects its first trade and waits for the identity of a new investor. -/
def recruiting : List Step := [.enter .tick, .proceed 0 none, .execute 0, .look 0, .hear 0 .done, .hear 0 .done,
  .score 100, .produce, .decide true, .enter .tick, .proceed 1 none]

/-- The tick fails, and the next one does not; the seller has signed in and has coins, no trade of it is with
    anybody, and still the next tick hands out nothing. -/
theorem next_tick_serves_nobody :
    let steps := recruiting ++ [.provide 1 (some (.plain "no")), .enter .tick, .proceed 2 none]
    ∃ t v e, ofSeller.play (Scene.plain 1 0) steps = some t ∧ t.resultOf 1 = some (.error e) ∧
      t.resultOf 2 = some (.ok []) ∧ t.investors[0]? = some v ∧ v.life = .signedIn ∧ v.hasStock = true ∧
      t.openTrades 0 = 0 := by
  intro steps
  have hplayed : (ofSeller.play (Scene.plain 1 0) steps).bind (fun t => (t.investors[0]?).map fun v =>
      ([t.resultOf 1, t.resultOf 2], v.life, v.hasStock, (t.openTrades 0).card)) =
      some ([some (.error (.provisioning "no")), some (.ok [])], .signedIn, true, 0) := by
    decide +kernel
  obtain ⟨t, ht, hplayed⟩ := Option.bind_eq_some_iff.mp hplayed
  obtain ⟨v, hv, hvalues⟩ := Option.map_eq_some_iff.mp hplayed
  simp only [Prod.mk.injEq, List.cons.injEq, and_true] at hvalues
  obtain ⟨⟨hfailed, hserved⟩, hlife, hstock, hopen⟩ := hvalues
  exact ⟨t, v, _, ht, hfailed, hserved, hv, hlife, hstock, Multiset.card_eq_zero.mp hopen⟩

/-- The seller counts on the trade that the failed tick had collected, and never hands out another. -/
theorem forsaken_by_lost_call_of_seller :
    let scene := Scene.plain 1 0
    ∃ r t v, ofSeller.play scene recruiting = some r ∧ r.step scene (.provide 1 (some (.plain "no"))) = some t ∧
      r.investors[0]? = some v ∧ v.CountsOn (.exec "trade" 0 (.trade 0 10)) ∧
      ∀ s, Becomes scene Step.SparesInvestors t s → ∃ w, s.investors[0]? = some w ∧ s.duties 0 = 0 ∧
        ∀ draw, w.next 0 draw = none := by
  intro scene
  have hplayed : (ofSeller.play scene recruiting).bind (fun r => (r.controls[1]?).bind fun x =>
      (r.investors[0]?).bind fun _ => (r.step scene (.provide 1 (some (.plain "no")))).bind fun t =>
      (t.controls[1]?).map fun y => (x.stand.tasks, x.stand.lost, y.stand.lost)) =
      some ([.exec "trade" 0 (.trade 0 10)], false, true) := by
    decide +kernel
  obtain ⟨r, hr, hplayed⟩ := Option.bind_eq_some_iff.mp hplayed
  obtain ⟨x, hx, hplayed⟩ := Option.bind_eq_some_iff.mp hplayed
  obtain ⟨v, hv, hplayed⟩ := Option.bind_eq_some_iff.mp hplayed
  obtain ⟨t, ht, hplayed⟩ := Option.bind_eq_some_iff.mp hplayed
  obtain ⟨y, hy, hvalues⟩ := Option.map_eq_some_iff.mp hplayed
  simp only [Prod.mk.injEq] at hvalues
  obtain ⟨htasks, hkept, hlost⟩ := hvalues
  have hsteps : ∀ a ∈ recruiting, a.SparesInvestors := by simp [recruiting, Step.SparesInvestors]
  obtain ⟨hgathered, -⟩ := forsaken_by_lost_call (fun _ _ => rfl) ofSeller_unbegun (becomes_of_play hsteps hr)
    (by simp [Step.SparesInvestors]) ht hx hkept hy hlost hv
  obtain ⟨hcounts, hever⟩ := hgathered _ (by rw [htasks]; exact List.mem_singleton_self _) rfl
  refine ⟨r, t, v, hr, ht, hv, hcounts, fun s hs => ?_⟩
  obtain ⟨w, hw, hidle, -, hnext⟩ := hever s hs
  exact ⟨w, hw, hidle, hnext⟩

end Run

end ExchangeLoad
