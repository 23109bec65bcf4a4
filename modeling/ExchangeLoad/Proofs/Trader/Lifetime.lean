import ExchangeLoad.Proofs.Run.Recruits
import ExchangeLoad.Proofs.Trader.Discipline

/-!
The life of a trader. To start a trader sets it back to where a started one is, wherever it was before. That
its life only goes forward, nevertheless, rests on who is started: somebody who has not been, by the call
that enters it in the registry or by the tick that finds it there before all others.
-/

namespace ExchangeLoad

namespace Lifecycle

protected theorem le_refl (a : Lifecycle) : a ≤ a := Nat.le_refl a.rank

protected theorem le_trans {a b c : Lifecycle} (hab : a ≤ b) (hbc : b ≤ c) : a ≤ c :=
  Nat.le_trans (m := b.rank) hab hbc

theorem le_retired (a : Lifecycle) : a ≤ retired := by cases a <;> decide

theorem notStarted_le (a : Lifecycle) : notStarted ≤ a := Nat.zero_le a.rank

theorem eq_notStarted_of_le {a : Lifecycle} (h : a ≤ notStarted) : a = notStarted := by
  cases a with
  | notStarted => rfl
  | _ => exact absurd h (by decide)

end Lifecycle

open Investor

namespace Investor

variable {v w : Investor} {p : Point} {reply : Reply} {aborted : Bool} {gain : Int} {progress : Progress}
  {task : Task} {draw : Draw} {number : Nat}

/-- Where a trader is in its life is told by its stage and its client. -/
theorem life_le (hv : v.IsTrader) (hw : w.IsTrader) (hstage : v.stage ≤ w.stage)
    (hretired : v.client.retired = true → w.client.retired = true) : v.life ≤ w.life := by
  rw [life_eq hv, life_eq hw]
  cases hgone : v.client.retired with
  | true =>
    rw [hretired hgone]
    exact Lifecycle.le_refl _
  | false =>
    cases w.client.retired with
    | true => exact Lifecycle.le_retired _
    | false => exact hstage

/-- A stretch after an answer changes the stage only at the end of signing in. -/
theorem Resumed.stage_eq (h : Resumed v aborted p reply w gain progress) :
    w.client.retired = v.client.retired ∧ (w.stage = v.stage ∨ p = .signingIn ∧ w.stage = .signedIn) := by
  cases h <;> simp

end Investor

namespace Run

/-- The trader with number `i` has been started. -/
def IsStarted (r : Run) (i : Nat) : Prop := ∃ v, r.investors[i]? = some v ∧ v.stage ≠ .notStarted

/-- Whom a step starts. A call that starts a run starts the investor that it enters in the registry; a tick
    starts the earliest in the registry that has not been started, when it gets the controller. -/
inductive Starting (a : Step) (r t : Run) : Prop where
  | nobody (hstarts : t.starts = r.starts)
  | founder (c : Nat) (x : Control) (i : Nat) (ha : a.call? = some c) (hx : r.controls[c]? = some x)
      (hcommand : x.command = .start) (hentered : t.registry.entries = r.registry.entries ++ [i])
      (hbefore : ¬r.IsStarted i) (hafter : t.IsStarted i) (hstarts : t.starts = r.starts.push i)
  | earliest (c : Nat) (x : Control) (before after : List Nat) (i : Nat) (ha : a.call? = some c)
      (hx : r.controls[c]? = some x) (hcommand : x.command = .tick) (hqueued : x.stand = .queued)
      (hentries : r.registry.entries = before ++ i :: after) (hfirst : ∀ j ∈ before, r.life j ≠ .notStarted)
      (hlife : r.life i = .notStarted) (hafter : t.IsStarted i) (hstarts : t.starts = r.starts.push i)

/-- Nobody is started twice. No investor of a founding batch waits in the registry to be started. -/
structure Orderly (r : Run) : Prop extends r.Disciplined, r.Chartered where
  roles : r.InRole
  starts : r.starts.toList.Nodup
  started : ∀ i ∈ r.starts, r.IsStarted i
  founders : ∀ i ∈ r.registry.entries, ∀ o, r.census.origins[i]? = some o → o.founds = true → r.IsStarted i

variable {scene : Scene} {c e i : Nat} {r r₀ s t : Run} {a : Step} {v w : Investor} {x y : Control}

theorem IsStarted.life_ne (htraders : r.TradersOnly) (h : r.IsStarted i) : r.life i ≠ .notStarted := by
  obtain ⟨v, hv, hstage⟩ := h
  intro hlife
  rw [life_of_getElem? hv] at hlife
  exact hstage (stage_of_notStarted (htraders.investor hv) hlife)

/-- What happens to a trader takes it forward. -/
theorem Share.forward (h : Share a r t i v w) (hv : v.IsTrader) (hstanding : Standing i v (r.duties i)) :
    v.stage ≤ w.stage ∧ (v.client.retired = true → w.client.retired = true) := by
  cases h with
  | aside => exact ⟨Lifecycle.le_refl _, id⟩
  | retired => exact ⟨Lifecycle.le_refl _, fun _ => rfl⟩
  | started hstage =>
    rw [hstage]
    exact ⟨Lifecycle.notStarted_le _, id⟩
  | handed draw w task hnext =>
    obtain ⟨_, rfl, _⟩ := traded_of_next hv hnext
    exact ⟨Lifecycle.le_refl _, id⟩
  | opened task rest w progress _ hopening =>
    cases opened_of_opening hopening <;> exact ⟨Lifecycle.le_refl _, id⟩
  | heard e x y p _ _ _ _ _ _ _ _ _ _ _ hbefore hresumed =>
    obtain ⟨hretired, hstage⟩ := hresumed.stage_eq
    refine ⟨?_, fun hgone => hretired.trans hgone⟩
    obtain hsame | ⟨rfl, hsignedIn⟩ := hstage
    · rw [hsame]
      exact Lifecycle.le_refl _
    -- Only the end of signing in sets the stage, and whoever signs in is started.
    · rw [hbefore] at hstanding
      obtain ⟨_, hstarted⟩ | ⟨htrades, _⟩ := hstanding.engaged_of_add.2.1.of_point
      · rw [hstarted, hsignedIn]
        decide
      · cases htrades

theorem Becomes.life_le (hscene : scene.TradersOnly) (h : Becomes scene Step.SparesInvestors r t)
    (hr : r.Disciplined) (hv : r.investors[i]? = some v) :
    ∃ w, t.investors[i]? = some w ∧ v.life ≤ w.life := by
  refine h.shares (fun v w => v.life ≤ w.life) hscene ?_ hr hv (Lifecycle.le_refl _)
  intro r a t i v u w hr hle hu hshare
  have hbooks := hr.books i u hu
  have hstanding := hr.standing i u hu
  obtain ⟨hstage, hretired⟩ := hshare.forward hbooks.trader hstanding
  have hw := (hshare.books hbooks hstanding).trader
  exact Lifecycle.le_trans hle (Investor.life_le hbooks.trader hw hstage hretired)

theorem isStarted_of_start (h : t.investors[i]? = some (v.start i).1) : t.IsStarted i :=
  ⟨_, h, by simp [Investor.start]⟩

/-- Whoever has been started stays so. -/
theorem IsStarted.step (hr : r.Disciplined) (ha : a.SparesInvestors) (hstep : r.step scene a = some t)
    (h : r.IsStarted i) : t.IsStarted i := by
  obtain ⟨v, hv, hstage⟩ := h
  obtain ⟨w, hw, hshare⟩ := step_share hr ha hstep hv
  obtain ⟨hle, _⟩ := hshare.forward (hr.books i v hv).trader (hr.standing i v hv)
  refine ⟨w, hw, fun hnot => hstage (Lifecycle.eq_notStarted_of_le ?_)⟩
  rw [← hnot]
  exact hle

theorem CallMove.call? (h : CallMove scene c r x a t) : a.call? = some c := by
  cases h <;> rfl

/-- The investor whose deposit a call waits for has not been started, and is so when the call goes on. -/
theorem Disciplined.funded {slot deposit : Nat} {tasks : List Task} (hr : r.Disciplined)
    (hx : r.controls[c]? = some x) (hstand : x.stand = .funding slot i deposit tasks)
    (hinvestors : t.investors = (r.startInvestor i).1.investors) :
    ¬r.IsStarted i ∧ t.IsStarted i ∧ (r.startInvestor i).1.starts = r.starts.push i := by
  have hpending := mem_pending_of_funding hx hstand
  have hrange := Multiset.mem_of_le hr.within (Multiset.mem_add.mpr (.inl hpending))
  obtain ⟨v, hv⟩ : ∃ v, r.investors[i]? = some v :=
    ⟨_, Array.getElem?_eq_getElem (Multiset.mem_range.mp hrange)⟩
  obtain ⟨hinvestor, hstarts, _⟩ := startInvestor_self hv (hr.traders.investor hv)
  refine ⟨?_, isStarted_of_start (v := v) (by rw [hinvestors, hinvestor]), hstarts⟩
  rintro ⟨u, hu, hstage⟩
  exact hstage (hr.pending i hpending u hu)

theorem CallMove.starting (hr : r.Disciplined) (hroles : r.InRole) (hx : r.controls[c]? = some x)
    (h : CallMove scene c r x a t) : Starting a r t := by
  obtain ⟨y, hturn⟩ := h.turn hx
  cases h.muster hx hturn.control with
  | keep hroster => exact .nobody (congrArg (·.2.1) hroster)
  | lose hroster => exact .nobody (congrArg (·.2.1) hroster)
  | build u tasks _ hroster => exact .nobody (congrArg (·.2.1) hroster)
  | register slot j deposit tasks accepted hstand hroster =>
    obtain ⟨hbefore, hafter, hstarts⟩ := hr.funded hx hstand (congrArg Prod.fst hroster)
    have hrole := hroles c x hx
    unfold Control.InRole at hrole
    rw [hstand] at hrole
    refine .founder c x j h.call? hx hrole (congrArg (·.2.2.entries) hroster) hbefore hafter ?_
    rw [show t.starts = (r.startInvestor j).1.starts from congrArg (·.2.1) hroster, hstarts]
  | tick hqueued hcommand hroster =>
    have hstarts : t.starts = r.startFirst.1.starts := congrArg (·.2.1) hroster
    cases hfirst : r.registry.firstNotStarted? r.life with
    | none => exact .nobody (by rw [hstarts, startFirst, hfirst, Option.elim_none])
    | some j =>
      obtain ⟨hlife, before, after, hentries, hbefore⟩ := List.find?_eq_some_iff_append.mp hfirst
      have hlife : r.life j = .notStarted := by simpa using hlife
      obtain ⟨v, hv⟩ : ∃ v, r.investors[j]? = some v := by
        cases hv : r.investors[j]? with
        | none => simp [life, hv] at hlife
        | some v => exact ⟨v, rfl⟩
      obtain ⟨_, hinvestor, _⟩ := beginTick_first scene hr.traders hfirst hv
      have hinvestors : t.investors = (r.startFirst.1.collectAll scene).1.investors := congrArg Prod.fst hroster
      have hafter : t.IsStarted j := isStarted_of_start (v := v) (by rw [hinvestors, hinvestor])
      refine .earliest c x before after j h.call? hx hcommand hqueued hentries ?_ hlife hafter ?_
      · intro k hk
        simpa using hbefore k hk
      · rw [hstarts, startFirst, hfirst, Option.elim_some, (startInvestor_self hv (hr.traders.investor hv)).2.1]

theorem step_starting (hr : r.Disciplined) (hroles : r.InRole) (ha : a.SparesInvestors)
    (h : r.step scene a = some t) : Starting a r t := by
  obtain ⟨c, x, hx, hmove⟩ | ⟨e, x, hx, hmove⟩ | hmove := step_cases h
  · exact hmove.starting hr hroles hx
  · exact .nobody (congrArg Backdrop.starts (hmove.backdrop hx))
  · exact .nobody (hmove.outside ha).starts

theorem mem_enrolling {z : Execution} {credit : Int} (hz : r.executions[e]? = some z)
    (htask : z.task = .enrol i credit) : (i, credit) ∈ r.enrolling := by
  refine Multiset.mem_add.mpr (.inr (Multiset.mem_coe.mpr (List.mem_flatMap.mpr ⟨z, ?_, ?_⟩)))
  · exact Array.mem_toList_iff.mpr (Array.mem_of_getElem? hz)
  · simp [htask, Task.enrolment?]

/-- Whoever enters the registry in a step is started there, or comes from a task. -/
theorem step_entered (hr : r.Disciplined) (ha : a.SparesInvestors) (h : r.step scene a = some t)
    (hi : i ∈ t.registry.entries) :
    i ∈ r.registry.entries ∨ t.IsStarted i ∨ ∃ credit, (i, credit) ∈ r.enrolling := by
  obtain ⟨c, x, hx, hmove⟩ | ⟨e, z, hz, hmove⟩ | hmove := step_cases h
  · obtain ⟨y, hturn⟩ := hmove.turn hx
    have hsame {investors : Array Investor} {starts : Array Nat}
        (hroster : t.roster = (investors, starts, r.registry)) : i ∈ r.registry.entries :=
      (congrArg (·.2.2.entries) hroster : t.registry.entries = r.registry.entries) ▸ hi
    cases hmove.muster hx hturn.control with
    | keep hroster => exact .inl (hsame hroster)
    | lose hroster => exact .inl (hsame hroster)
    | build _ _ _ hroster => exact .inl (hsame hroster)
    | register slot j deposit tasks accepted hstand hroster =>
      rw [show t.registry.entries = r.registry.entries ++ [j] from congrArg (·.2.2.entries) hroster,
        List.mem_append, List.mem_singleton] at hi
      obtain hi | rfl := hi
      · exact .inl hi
      · exact .inr (.inl (hr.funded hx hstand (congrArg Prod.fst hroster)).2.1)
    | tick _ _ hroster => exact .inl (hsame hroster)
  · obtain ⟨y, hstint⟩ := hmove.stint hz (hr.prompt z (Array.mem_of_getElem? hz))
    have hsame (hcensus : t.census.entries = r.census.entries) : i ∈ r.registry.entries := by
      rwa [show t.registry.entries = r.registry.entries from hcensus] at hi
    cases hstint.errand with
    | job _ hcensus => exact .inl (hsame (by rw [hcensus]))
    | deposit _ _ _ _ _ hcensus => exact .inl (hsame (by rw [hcensus]; rfl))
    | register j deposit credit accepted htask _ _ hcensus =>
      rw [show t.registry.entries = r.registry.entries ++ [j] from congrArg Census.entries hcensus,
        List.mem_append, List.mem_singleton] at hi
      obtain hi | rfl := hi
      · exact .inl hi
      · exact .inr (.inr ⟨credit, mem_enrolling hz htask⟩)
  · exact .inl ((hmove.outside ha).entries.subset hi)

theorem Starting.nodup (h : Starting a r t) (htraders : r.TradersOnly) (hstarts : r.starts.toList.Nodup)
    (hstarted : ∀ i ∈ r.starts, r.IsStarted i) (hkept : ∀ i, r.IsStarted i → t.IsStarted i) :
    t.starts.toList.Nodup ∧ ∀ i ∈ t.starts, t.IsStarted i := by
  have hpush (i : Nat) (hpushed : t.starts = r.starts.push i) (hbefore : ¬r.IsStarted i)
      (hafter : t.IsStarted i) : t.starts.toList.Nodup ∧ ∀ i ∈ t.starts, t.IsStarted i := by
    rw [hpushed]
    constructor
    · rw [Array.toList_push]
      refine List.nodup_append.mpr ⟨hstarts, List.nodup_singleton i, ?_⟩
      rintro j hj k hk rfl
      rw [List.mem_singleton.mp hk] at hj
      exact hbefore (hstarted i (Array.mem_toList_iff.mp hj))
    · intro j hj
      obtain hj | rfl := Array.mem_push.mp hj
      · exact hkept j (hstarted j hj)
      · exact hafter
  cases h with
  | nobody hsame =>
    rw [hsame]
    exact ⟨hstarts, fun i hi => hkept i (hstarted i hi)⟩
  | founder c x i _ _ _ _ hbefore hafter hpushed => exact hpush i hpushed hbefore hafter
  | earliest c x before after i _ _ _ _ _ _ hlife hafter hpushed =>
    exact hpush i hpushed (fun hstarted => hstarted.life_ne htraders hlife) hafter

theorem step_orderly (hscene : scene.TradersOnly) (ha : a.SparesInvestors) (h : r.step scene a = some t)
    (hr : r.Orderly) : t.Orderly := by
  have hdisciplined := hr.toDisciplined
  have heffect := step_effect hdisciplined.prompt h
  have hkept (i : Nat) (hi : r.IsStarted i) : t.IsStarted i := hi.step hdisciplined ha h
  obtain ⟨hstarts, hstarted⟩ := (step_starting hdisciplined hr.roles ha h).nodup hdisciplined.traders hr.starts
    hr.started hkept
  refine ⟨step_disciplined hscene ha h hdisciplined, heffect.chartered hr.toChartered, heffect.roles hr.roles,
    hstarts, hstarted, ?_⟩
  intro i hi o ho hfounds
  obtain hentered | hstarted | ⟨credit, henrolling⟩ := step_entered hdisciplined ha h hi
  · -- The origin of somebody who was in the registry before was on record before.
    have hrange := Multiset.mem_of_le hdisciplined.within
      (Multiset.mem_add.mpr (.inr (Multiset.mem_coe.mpr hentered)))
    have hbound : i < r.census.origins.length := by
      rw [hr.origins]
      exact Multiset.mem_range.mp hrange
    have horigin := List.getElem?_eq_getElem hbound
    obtain rfl := Option.some.inj ((heffect.origin_kept horigin).symm.trans ho)
    exact hkept i (hr.founders i hentered _ horigin hfounds)
  · exact hstarted
  · obtain ⟨o', ho', hnot⟩ := hr.enrolling _ henrolling
    obtain rfl := Option.some.inj ((heffect.origin_kept ho').symm.trans ho)
    cases hnot.symm.trans hfounds

theorem Orderly.pass (hr : r.Orderly) (ms : Nat) : { r with now := r.now + ms }.Orderly :=
  ⟨hr.toDisciplined.pass ms, ⟨hr.origins, hr.enrolling⟩, hr.roles, hr.starts, hr.started, hr.founders⟩

theorem Becomes.orderly (hscene : scene.TradersOnly) (h : Becomes scene Step.SparesInvestors r t)
    (hr : r.Orderly) : t.Orderly :=
  h.preserves (fun _ _ _ ha hs hstep => step_orderly hscene ha hstep hs) (fun _ ms hs => hs.pass ms) hr

/-- A tick starts nobody after its first stretch. -/
theorem Starting.starts_eq (h : Starting a r t) (ha : a.call? = some c) (hx : r.controls[c]? = some x)
    (hcommand : x.command = .tick) (hstand : x.stand ≠ .queued) : t.starts = r.starts := by
  cases h with
  | nobody hstarts => exact hstarts
  | founder k z i hk hz hstart =>
    obtain rfl := Option.some.inj (ha.symm.trans hk)
    obtain rfl := Option.some.inj (hx.symm.trans hz)
    cases hcommand.symm.trans hstart
  | earliest k z before after i hk hz _ hqueued =>
    obtain rfl := Option.some.inj (ha.symm.trans hk)
    obtain rfl := Option.some.inj (hx.symm.trans hz)
    exact absurd hqueued hstand

/-- Nothing has happened in a run, and no investor was built for a founding batch. -/
structure Unfounded (r : Run) : Prop extends r.Unbegun where
  origins : r.origins.size = r.investors.size
  rising : ∀ o ∈ r.origins, o.founds = false

theorem fresh_unfounded (floor ceiling : Int) (capacity drawn : Nat) :
    (fresh floor ceiling capacity drawn).Unfounded :=
  ⟨fresh_unbegun floor ceiling capacity drawn, rfl, by simp [fresh]⟩

theorem Unfounded.orderly (hr : r.Unfounded) : r.Orderly := by
  have hunbegun := hr.toUnbegun
  refine ⟨hunbegun.disciplined, ⟨hr.origins, ?_⟩, ?_, ?_, ?_, ?_⟩
  · rw [enrolling, hunbegun.tally]
    simp
  · simp [InRole, hr.controls]
  · simp [hr.starts]
  · simp [hr.starts]
  · intro i _ o ho hfounds
    have ho' : o ∈ r.origins := Array.mem_toList_iff.mp (List.mem_of_getElem? ho)
    cases (hr.rising o ho').symm.trans hfounds

/-- In every history of a run of traders, whatever calls fail or are given up, whatever work is thrown away,
    whoever retires, and whenever it is aborted: the life of a trader never goes back, nobody is started
    twice, and no investor of a founding batch is found in the registry before it has been started. A step
    starts nobody, or the investor that a call enters in the registry for the founding batch, or the
    earliest in the registry that has not been started; this last is the first stretch of a tick, and the
    only one in which the tick starts anybody. -/
theorem life_never_goes_back (hscene : scene.TradersOnly) (h₀ : r₀.Unfounded)
    (h : Becomes scene Step.SparesInvestors r₀ r) :
    (∀ (i : Nat) (v : Investor), r.investors[i]? = some v → ∀ s, Becomes scene Step.SparesInvestors r s →
      ∃ w, s.investors[i]? = some w ∧ v.life ≤ w.life) ∧
    r.starts.toList.Nodup ∧
    (∀ i ∈ r.registry.entries, ∀ c slot, r.origins[i]? = some (.founding c slot) → r.life i ≠ .notStarted) ∧
    (∀ (a : Step) (t : Run), a.SparesInvestors → r.step scene a = some t → Starting a r t ∧
      ∀ (c : Nat) (x : Control), a.call? = some c → r.controls[c]? = some x → x.command = .tick →
        ∀ (b : Step) (s u : Run), Becomes scene Step.SparesInvestors t s → b.SparesInvestors →
          s.step scene b = some u → b.call? = some c → u.starts = s.starts) := by
  have hr := h.orderly hscene h₀.orderly
  have hdisciplined := hr.toDisciplined
  refine ⟨fun i v hv s hs => hs.life_le hscene hdisciplined hv, hr.starts, ?_, ?_⟩
  · intro i hi c slot horigin
    have ho : r.census.origins[i]? = some (.founding c slot) := Array.getElem?_toList.trans horigin
    exact (hr.founders i hi _ ho rfl).life_ne hdisciplined.traders
  · intro a t ha hstep
    refine ⟨step_starting hdisciplined hr.roles ha hstep, ?_⟩
    intro c x hcall hx hcommand b s u hs hb hstep' hcall'
    have ht := step_orderly hscene ha hstep hr
    obtain ⟨x', hx', hmove⟩ := step_callMove hcall hstep
    obtain rfl := Option.some.inj (hx.symm.trans hx')
    obtain ⟨y, hturn⟩ := hmove.turn hx
    obtain ⟨z, hz, hstand, hsame⟩ := hs.not_queued ht.prompt hturn.control hturn.not_queued
    have hs' := hs.orderly hscene ht
    exact (step_starting hs'.toDisciplined hs'.roles hb hstep').starts_eq hcall' hz
      (hsame.trans (hturn.command.trans hcommand)) hstand

/-- The investor of the founding batch has been started when a tick comes, which starts the one that a task
    has enrolled since. -/
theorem life_never_goes_back_of_enrolment :
    let scene := Scene.plain 1 0
    let steps : List Step := [.produce, .enter .start, .proceed 0 none, .booted 0 .done, .decide true,
      .provide 0 none, .funded 0 true, .score 100, .enter .tick, .proceed 1 none, .decide true,
      .provide 1 none, .execute 1, .look 0, .enrol 0 true, .enter .tick]
    ∃ r v t w, (fresh 5 10 1 0).play scene steps = some r ∧ r.investors[0]? = some v ∧
      r.registry.entries = [0, 1] ∧ r.starts = #[0] ∧ r.life 0 ≠ .notStarted ∧
      r.step scene (.proceed 2 none) = some t ∧ t.starts = #[0, 1] ∧ Starting (.proceed 2 none) r t ∧
      t.investors[0]? = some w ∧ v.life ≤ w.life := by
  intro scene steps
  have hplayed : ((fresh 5 10 1 0).play scene steps).bind (fun r => (r.investors[0]?).bind fun _ =>
      (r.step scene (.proceed 2 none)).map fun t => (r.registry.entries, r.starts, r.origins[0]?, t.starts)) =
      some ([0, 1], #[0], some (.founding 0 0), #[0, 1]) := by decide +kernel
  obtain ⟨r, hr, hplayed⟩ := Option.bind_eq_some_iff.mp hplayed
  obtain ⟨v, hv, hplayed⟩ := Option.bind_eq_some_iff.mp hplayed
  obtain ⟨t, ht, hvalues⟩ := Option.map_eq_some_iff.mp hplayed
  simp only [Prod.mk.injEq] at hvalues
  obtain ⟨hentries, hstarts, horigin, hstarts'⟩ := hvalues
  have hsteps : ∀ a ∈ steps, a.SparesInvestors := by simp [steps, Step.SparesInvestors]
  have hproceed : (Step.proceed 2 none).SparesInvestors := by simp [Step.SparesInvestors]
  obtain ⟨hlives, _, hfounders, hstarting⟩ :=
    life_never_goes_back (fun _ _ => rfl) (fresh_unfounded 5 10 1 0) (becomes_of_play hsteps hr)
  obtain ⟨w, hw, hle⟩ := hlives 0 v hv t (.step _ (.refl r) hproceed ht)
  exact ⟨r, v, t, w, hr, hv, hentries, hstarts, hfounders 0 (by simp [hentries]) 0 0 horigin, ht, hstarts',
    (hstarting _ t hproceed ht).1, hw, hle⟩

end Run

end ExchangeLoad
