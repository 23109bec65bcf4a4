import ExchangeLoad.Proofs.Run.Page
import ExchangeLoad.Proofs.Run.Round
import ExchangeLoad.Proofs.Trader.Discipline

/-!
What a tick hands out and what it leaves alone. It hands out what its first stretch gathered, and after it
an enrolment for everybody whom it built, level by level and slot by slot. In no stretch does it make a
deposit or write to the registry, the score or the errors, whether it ends well, fails or is given up.
-/

namespace ExchangeLoad

/-- The batches that levels bring after a level, each at the price of its day. -/
def Batch.levied (workers level : Nat) (prices : List Int) : List Params :=
  prices.zipIdx.flatMap fun p => (List.range workers).map (Batch.rising (level + 1 + p.2) p.1)

theorem Batch.levied_concat (workers level : Nat) (prices : List Int) (price : Int) :
    levied workers level (prices ++ [price]) = levied workers level prices ++
      (List.range workers).map (Batch.rising (level + 1 + prices.length) price) := by
  simp [levied, List.zipIdx_append]

/-- The enrolment of each of a batch, which are numbered from `first` on, with its number. -/
def enlistments (first : Nat) (batch : List Params) : List (Nat × Task) :=
  (batch.zipIdx first).map fun p => (p.2, .enrol p.2 p.1.credit)

theorem enlistments_concat (first : Nat) (batch : List Params) (params : Params) :
    enlistments first (batch ++ [params]) = enlistments first batch ++
      [(first + batch.length, .enrol (first + batch.length) params.credit)] := by
  simp [enlistments, List.zipIdx_append]

theorem fst_enlistments (first : Nat) (batch : List Params) :
    (enlistments first batch).map Prod.fst = List.range' first batch.length := by
  rw [enlistments, List.map_map]
  exact List.zipIdx_map_snd first batch

namespace Run

/-- What a tick hands out that gets the controller in a run and builds `recruits`, with the investor whose
    work it is. -/
def wares (r : Run) (draws : Nat → Draw) (recruits : List Params) : List (Nat × Task) :=
  r.starter ++ r.offers draws ++ enlistments r.investors.size recruits

/-- What a tick has on record that got the controller in a run, has found a price for each level it rose by,
    and has built `recruits`. -/
structure Tally (r : Run) (prices : List Int) (recruits : List Params) (marks : List Mark) : Prop where
  built : marks.filterMap Mark.recruit? = recruits.zipIdx r.investors.size
  raised : marks.filterMap Mark.rise? = (List.range prices.length).map (r.level + 1 + ·)
  afforded : ∀ k < prices.length, requiredScore (r.level + k) ≤ r.tracker.score
  admitted : prices ≠ [] → r.tracker.errors ≤ r.tracker.floor

/-- How far a tick has come by a census. -/
structure Climbing (r : Run) (gathered : List Task) (b : Census) (climb : Climb) (prices : List Int)
    (recruits : List Params) (marks : List Mark) : Prop extends Tally r prices recruits marks where
  level : b.level = r.level + prices.length
  size : b.cards.length = r.investors.size + recruits.length
  score : climb.score = r.tracker.score
  tasks : climb.tasks = gathered ++ (enlistments r.investors.size recruits).map Prod.snd

/-- Where a tick stands that has got the controller in a run. -/
inductive Levying (workers : Nat) (r : Run) (gathered : List Task) (b : Census) (marks : List Mark) :
    Stand → Prop where
  | weighing (climb : Climb) (prices : List Int) (hprices : prices ≠ [])
      (h : Climbing r gathered b climb prices (Batch.levied workers r.level prices) marks) :
      Levying workers r gathered b marks (.weighing climb)
  | raising (climb : Climb) (slot ticket : Nat) (prices : List Int) (hslot : slot < workers)
      (h : Climbing r gathered b climb (prices ++ [climb.price]) (Batch.levied workers r.level prices ++
        (List.range slot).map (Batch.rising b.level climb.price)) marks) :
      Levying workers r gathered b marks (.raising climb slot ticket)
  | ended (tasks : List Task) (prices : List Int) (h : Tally r prices (Batch.levied workers r.level prices) marks)
      (htasks : tasks = gathered ++
        (enlistments r.investors.size (Batch.levied workers r.level prices)).map Prod.snd) :
      Levying workers r gathered b marks (.ended (.ok tasks))
  | failed (e : RunError) (prices : List Int) (recruits : List Params) (h : Tally r prices recruits marks) :
      Levying workers r gathered b marks (.ended (.error e))
  | dropped (prices : List Int) (recruits : List Params) (h : Tally r prices recruits marks) :
      Levying workers r gathered b marks .dropped

variable {scene : Scene} {c slot workers : Nat} {r s t u : Run} {x y : Control} {b b' : Census}
  {climb : Climb} {stand : Stand} {prices : List Int} {recruits : List Params} {gathered : List Task}
  {marks page : List Mark} {pages : List (List Mark)} {id : Identity}

theorem tally_nil (r : Run) : Tally r [] [] [] := ⟨rfl, rfl, by simp, by simp⟩

theorem Tally.take (h : Tally r prices recruits marks) (ids : List Identity) :
    Tally r prices recruits (marks ++ ids.map .took) := by
  refine ⟨?_, ?_, h.afforded, h.admitted⟩
  · simpa [List.filterMap_map, Function.comp_def, Mark.recruit?] using h.built
  · simpa [List.filterMap_map, Function.comp_def, Mark.rise?] using h.raised

theorem Tally.rise (h : Tally r prices recruits marks) (price : Int)
    (hscore : requiredScore (r.level + prices.length) ≤ r.tracker.score)
    (hadmitted : r.tracker.errors ≤ r.tracker.floor) :
    Tally r (prices ++ [price]) recruits (marks ++ [.raised (r.level + prices.length + 1)]) := by
  refine ⟨?_, ?_, ?_, fun _ => hadmitted⟩
  · simpa [List.filterMap_cons, Mark.recruit?] using h.built
  · simp [Mark.rise?, h.raised, List.range_succ]
    omega
  · intro k hk
    rw [List.length_append, List.length_singleton] at hk
    obtain hk | rfl := Nat.lt_succ_iff_lt_or_eq.mp hk
    · exact h.afforded k hk
    · exact hscore

/-- What a look at the level notes touches nothing else. -/
theorem rung_untouched (r : Run) (score : Int) : ∀ m ∈ r.rung score, m.touches = false := by
  unfold rung
  split <;> simp [Mark.touches]

theorem Climbing.rise (h : Climbing r gathered b climb prices recruits marks) (hlevel : b.level = s.level)
    (hrise : s.mayRise climb.score = true) (hadmitted : r.tracker.errors ≤ r.tracker.floor) :
    Climbing r gathered (b.weighed ⟨c, s.level, climb.score, s.tracker.errors, some s.marketPrice⟩)
      { climb with price := s.marketPrice } (prices ++ [s.marketPrice]) recruits
      (marks ++ [.raised (s.level + 1)]) := by
  obtain ⟨hscore, -⟩ := mayRise_iff.mp hrise
  rw [← hlevel, h.level] at hscore ⊢
  rw [h.score] at hscore
  refine ⟨h.toTally.rise s.marketPrice hscore hadmitted, ?_, h.size, h.score, h.tasks⟩
  simp [Census.weighed, h.level, Nat.add_assoc]

/-- The investor of a slot is built, and its enrolment is to be handed out. -/
theorem Climbing.recruit (h : Climbing r gathered s.census climb prices recruits marks) (slot : Nat) :
    Climbing r gathered (s.recruitedCensus c slot climb id) (s.recruited climb slot) prices
      (recruits ++ [Batch.rising s.level climb.price slot])
      (marks ++ enlisting s.investors.size id (Batch.rising s.level climb.price slot)) := by
  have hsize : s.investors.size = r.investors.size + recruits.length := length_cards.symm.trans h.size
  refine ⟨⟨?_, ?_, h.afforded, h.admitted⟩, h.level, ?_, h.score, ?_⟩
  · simp [enlisting, List.filterMap_cons, Mark.recruit?, h.built, hsize, List.zipIdx_append]
  · simpa [enlisting, List.filterMap_cons, Mark.rise?] using h.raised
  · simp [recruitedCensus, Census.built, length_cards, hsize, Nat.add_assoc]
  · simp [recruited, h.tasks, enlistments_concat, hsize]

/-- A tick looks at the level with all batches before it complete. -/
theorem Weighed.levying (h : Weighed scene c s b climb b' stand) (hlevel : b.level = s.level)
    (hadmitted : s.mayRise climb.score = true → r.tracker.errors ≤ r.tracker.floor)
    (hclimb : Climbing r gathered b climb prices (Batch.levied scene.settings.workers r.level prices) marks) :
    Levying scene.settings.workers r gathered b' (marks ++ s.rung climb.score) stand := by
  unfold Run.rung
  cases h with
  | stay hrise hstand =>
    rw [hstand, hrise, if_neg Bool.false_ne_true, List.append_nil]
    exact .ended _ prices hclimb.toTally hclimb.tasks
  | again hrise hworkers hstand hcensus =>
    rw [hstand, hcensus, if_pos hrise]
    refine .weighing _ (prices ++ [s.marketPrice]) (by simp) ?_
    have hrisen := hclimb.rise (c := c) hlevel hrise (hadmitted hrise)
    rwa [Batch.levied_concat, hworkers, List.range_zero, List.map_nil, List.append_nil, ← hworkers]
  | raise ticket hrise hworkers hstand hcensus =>
    rw [hstand, hcensus, if_pos hrise]
    refine .raising _ 0 ticket prices hworkers ?_
    rw [List.range_zero, List.map_nil, List.append_nil]
    exact hclimb.rise hlevel hrise (hadmitted hrise)

theorem Levying.tally (h : Levying workers r gathered b marks stand) :
    ∃ prices recruits, Tally r prices recruits marks := by
  cases h with
  | weighing _ prices _ h => exact ⟨prices, _, h.toTally⟩
  | raising climb _ _ prices _ h => exact ⟨prices ++ [climb.price], _, h.toTally⟩
  | ended _ prices h => exact ⟨prices, _, h⟩
  | failed _ prices recruits h => exact ⟨prices, recruits, h⟩
  | dropped prices recruits h => exact ⟨prices, recruits, h⟩

/-- A stretch of a tick that has got the controller. -/
theorem Levying.own (h : Levying scene.settings.workers r gathered s.census marks x.stand)
    (hentry : Entry scene c s x y t page) :
    Levying scene.settings.workers r gathered t.census (marks ++ page) y.stand ∧
      ∀ m ∈ page, m.touches = false := by
  cases hentry with
  | unprovided ticket ids why _ _ hstand =>
    obtain ⟨prices, recruits, htally⟩ := h.tally
    rw [hstand]
    exact ⟨.failed _ prices recruits (htally.take ids), by simp [Mark.touches]⟩
  | recruit climb slot ticket next id hbefore hmore hstand hcensus =>
    rw [hbefore] at h
    cases h with
    | raising _ _ _ prices hslot h =>
      refine ⟨?_, by simp [enlisting, Mark.touches]⟩
      rw [hstand, hcensus]
      refine .raising _ (slot + 1) next prices hmore ?_
      rw [List.range_succ, List.map_append, ← List.append_assoc]
      exact h.recruit slot
  | complete climb slot ticket id hbefore hlast hweighed =>
    rw [hbefore] at h
    cases h with
    | raising _ _ _ prices hslot h =>
      have hfull : slot + 1 = scene.settings.workers := Nat.le_antisymm hslot hlast
      have hlevel : s.level = r.level + 1 + prices.length := by
        have hrisen := h.level
        rw [List.length_append, List.length_singleton] at hrisen
        simpa [census, Nat.add_assoc, Nat.add_comm 1] using hrisen
      have hnext : Climbing r gathered (s.recruitedCensus c slot climb id) _ _ _ _ := h.recruit slot
      -- With its last slot the batch of the level is complete.
      have hbatch : Batch.levied scene.settings.workers r.level prices ++
          (List.range slot).map (Batch.rising s.census.level climb.price) ++
            [Batch.rising s.level climb.price slot] =
          Batch.levied scene.settings.workers r.level (prices ++ [climb.price]) := by
        rw [Batch.levied_concat, ← hfull, List.range_succ, List.map_append, ← hlevel, List.append_assoc]
        rfl
      rw [hbatch] at hnext
      refine ⟨?_, ?_⟩
      · rw [← List.append_assoc]
        exact hweighed.levying rfl (fun _ => h.admitted (by simp)) hnext
      · rw [List.forall_mem_append]
        exact ⟨by simp [enlisting, Mark.touches], s.rung_untouched climb.score⟩
  | weigh climb hbefore hweighed =>
    rw [hbefore] at h
    cases h with
    | weighing _ prices hprices h =>
      exact ⟨hweighed.levying rfl (fun _ => h.admitted hprices) h, s.rung_untouched climb.score⟩
  | drop hstand =>
    obtain ⟨prices, recruits, htally⟩ := h.tally
    rw [hstand, List.append_nil]
    exact ⟨.dropped prices recruits htally, by simp⟩
  | uncreated _ hbefore | welcome _ hbefore | unready _ _ hbefore | ready _ hbefore | found _ _ _ _ _ hbefore
  | register _ _ _ _ _ _ hbefore | lost _ _ _ _ _ hbefore | tick _ hbefore =>
    rw [hbefore] at h
    cases h

/-- The first stretch of a tick. -/
theorem Entry.levying (h : Entry scene c r x y t page) (hqueued : x.stand = .queued) (htick : x.command = .tick) :
    Levying scene.settings.workers r (r.startFirst.2 ++ (r.startFirst.1.collectAll scene).2) t.census page
      y.stand ∧ ∀ m ∈ page, m.touches = false := by
  cases h with
  | tick numbers _ _ hweighed =>
    have hfirst : Climbing r (r.startFirst.2 ++ (r.startFirst.1.collectAll scene).2) r.census
        ⟨r.tracker.score, 0, r.startFirst.2 ++ (r.startFirst.1.collectAll scene).2⟩ []
        (Batch.levied scene.settings.workers r.level [])
        (numbers.map fun i => .started i r.investors[i]?) := by
      refine ⟨⟨?_, ?_, by simp, by simp⟩, rfl, length_cards, rfl, ?_⟩
      · simp [List.filterMap_map, Function.comp_def, Mark.recruit?, Batch.levied]
      · simp [List.filterMap_map, Function.comp_def, Mark.rise?]
      · simp [enlistments, Batch.levied]
    refine ⟨hweighed.levying rfl (fun hrise => (mayRise_iff.mp hrise).2) hfirst, ?_⟩
    rw [List.forall_mem_append]
    exact ⟨by simp [Mark.touches], r.rung_untouched _⟩
  | uncreated _ _ hcommand => rw [htick] at hcommand; cases hcommand
  | welcome _ _ hcommand => rw [htick] at hcommand; cases hcommand
  | drop hstand =>
    rw [hstand]
    exact ⟨.dropped [] [] r.tally_nil, by simp⟩
  | unprovided _ _ _ hbefore => rw [hqueued] at hbefore; cases hbefore
  | _ => simp_all

theorem Climbing.congr (h : Climbing r gathered b climb prices recruits marks)
    (hhistory : b'.history = b.history) : Climbing r gathered b' climb prices recruits marks := by
  simp only [Census.history, Prod.mk.injEq] at hhistory
  exact ⟨h.toTally, hhistory.1.trans h.level, hhistory.2.2.2 ▸ h.size, h.score, h.tasks⟩

/-- While a tick has the controller, nobody else raises the level or builds an investor. -/
theorem Levying.elsewhere (h : Levying workers r gathered s.census marks x.stand) (hlock : s.Lock)
    (hx : s.controls[c]? = some x) (helsewhere : Elsewhere scene c s t) :
    Levying workers r gathered t.census marks x.stand := by
  have hkept := helsewhere.history_of_active hlock hx
  cases hstand : x.stand with
  | weighing climb =>
    rw [hstand] at h hkept
    cases h with
    | weighing _ prices hprices h => exact .weighing climb prices hprices (h.congr (hkept rfl))
  | raising climb slot ticket =>
    rw [hstand] at h hkept
    cases h with
    | raising _ _ _ prices hslot h =>
      refine .raising climb slot ticket prices hslot ?_
      have hhistory := hkept rfl
      have hlevel : t.census.level = s.census.level := congrArg Prod.fst hhistory
      rw [hlevel]
      exact h.congr hhistory
  | ended result =>
    rw [hstand] at h
    cases h with
    | ended tasks prices h htasks => exact .ended tasks prices h htasks
    | failed e prices recruits h => exact .failed e prices recruits h
  | dropped =>
    rw [hstand] at h
    cases h with
    | dropped prices recruits h => exact .dropped prices recruits h
  | _ => rw [hstand] at h; cases h

/-- Where all calls wait nobody has the controller. -/
theorem lock_of_queued (h : ∀ x ∈ r.controls, x.stand = .queued) : r.Lock := by
  intro c x hx hactive
  rw [h x (Array.mem_of_getElem? hx)] at hactive
  cases hactive

theorem Logs.lock (h : Logs scene c r pages t) (hr : r.Lock) : t.Lock := by
  induction h with
  | refl => exact hr
  | own a _ ha hstep ih => exact step_lock hstep ha ih
  | other a _ ha hstep ih => exact (step_elsewhere hstep ha).lock ih
  | @pass _ s ms _ ih =>
    have helsewhere : Elsewhere scene c s _ := pass_elsewhere s ms
    exact helsewhere.lock ih

/-- A tick that waits for the controller gets it, or is given up before. -/
theorem step_opens {a : Step} (h : s.step scene a = some t) (ha : s.callOf a = some c)
    (hx : s.controls[c]? = some x) (hqueued : x.stand = .queued) (htick : x.command = .tick) :
    (∃ made, a = .proceed c made) ∨
      s.page a t = [] ∧ ∃ y, t.controls[c]? = some y ∧ y.stand = .dropped := by
  obtain ⟨z, hz, hmove | ⟨cause, u, rfl, hmove, rfl⟩⟩ := step_callMove_of_callOf h ha
  · obtain rfl := Option.some.inj (hx.symm.trans hz)
    have hgivenUp (hmove : CallMove scene c s x (.giveUp c) t) := giveUp_entry hx hmove
    cases hmove with
    | tick made => exact .inl ⟨made, rfl⟩
    | giveUp hended hdropped =>
      obtain ⟨hy, hnews⟩ := hgivenUp (.giveUp hended hdropped)
      exact .inr ⟨hnews, _, hy, rfl⟩
    | start _ _ hcommand => rw [htick] at hcommand; cases hcommand
    | refuse _ _ _ hstand => rw [hqueued] at hstand; cases hstand
    | _ => simp_all
  · obtain ⟨hy, hnews⟩ := giveUp_entry hz hmove
    exact .inr ⟨hnews, _, hy, rfl⟩

/-- Nothing comes after a call is over. -/
theorem not_over_of_step {a : Step} (h : s.step scene a = some t) (ha : s.callOf a = some c)
    (hx : s.controls[c]? = some x) : x.stand.over = false := by
  obtain ⟨z, hz, hmove | ⟨_, _, _, hmove, _⟩⟩ := step_callMove_of_callOf h ha
  · exact Option.some.inj (hz.symm.trans hx) ▸ hmove.not_over
  · exact Option.some.inj (hz.symm.trans hx) ▸ hmove.not_over

/-- Before a tick gets the controller there is nothing on its pages. -/
theorem Logs.opened (h : Logs scene c r pages t) (hx : r.controls[c]? = some x) (hqueued : x.stand = .queued)
    (htick : x.command = .tick) :
    (pages = [] ∧ t.controls[c]? = some x) ∨
    (pages.flatten = [] ∧ ∃ y, t.controls[c]? = some y ∧ y.stand = .dropped) ∨
    ∃ u made s rest, Logs scene c r [] u ∧ u.controls[c]? = some x ∧ u.step scene (.proceed c made) = some s ∧
      Logs scene c s rest t ∧ pages = u.page (.proceed c made) s :: rest := by
  induction h with
  | refl => exact .inl ⟨rfl, hx⟩
  | @own pages s t a hlogs ha hstep ih =>
    obtain ⟨rfl, hs⟩ | ⟨-, y, hy, hdropped⟩ | ⟨u, made, first, rest, hbefore, hu, hfirst, hrest, rfl⟩ := ih
    · obtain ⟨made, rfl⟩ | ⟨hpage, hdropped⟩ := step_opens hstep ha hs hqueued htick
      · exact .inr (.inr ⟨s, made, t, [], hlogs, hs, hstep, .refl, rfl⟩)
      · exact .inr (.inl ⟨by simp [hpage], hdropped⟩)
    · have hover := not_over_of_step hstep ha hy
      rw [hdropped] at hover
      cases hover
    · exact .inr (.inr ⟨u, made, first, _, hbefore, hu, hfirst, .own a hrest ha hstep, rfl⟩)
  | @other pages s t a hlogs ha hstep ih =>
    have helsewhere := step_elsewhere hstep ha
    obtain ⟨rfl, hs⟩ | ⟨hnone, y, hy, hdropped⟩ | ⟨u, made, first, rest, hbefore, hu, hfirst, hrest, rfl⟩ := ih
    · exact .inl ⟨rfl, helsewhere.control hs⟩
    · exact .inr (.inl ⟨hnone, y, helsewhere.control hy, hdropped⟩)
    · exact .inr (.inr ⟨u, made, first, _, hbefore, hu, hfirst, .other a hrest ha hstep, rfl⟩)
  | pass ms hlogs ih =>
    obtain ⟨rfl, hs⟩ | ⟨hnone, y, hy, hdropped⟩ | ⟨u, made, first, rest, hbefore, hu, hfirst, hrest, rfl⟩ := ih
    · exact .inl ⟨rfl, hs⟩
    · exact .inr (.inl ⟨hnone, y, hy, hdropped⟩)
    · exact .inr (.inr ⟨u, made, first, _, hbefore, hu, hfirst, .pass ms hrest, rfl⟩)

/-- How far a tick has come that got the controller in a run, whatever others do meanwhile. -/
theorem Logs.levying {made : Option Fault} (h : Logs scene c s pages t) (hr : r.Lock)
    (hx : r.controls[c]? = some x) (hqueued : x.stand = .queued) (htick : x.command = .tick)
    (hstep : r.step scene (.proceed c made) = some s) :
    ∃ y, t.controls[c]? = some y ∧ Levying scene.settings.workers r
      (r.startFirst.2 ++ (r.startFirst.1.collectAll scene).2) t.census
      (r.page (.proceed c made) s :: pages).flatten y.stand ∧
      ∀ m ∈ (r.page (.proceed c made) s :: pages).flatten, m.touches = false := by
  obtain ⟨z, y, hz, hy, -, hentry⟩ := step_entry hstep rfl
  obtain rfl := Option.some.inj (hx.symm.trans hz)
  obtain ⟨hfirst, huntouched⟩ := hentry.levying hqueued htick
  have hlevying := h.along (fun pages t y => t.Lock ∧ Levying scene.settings.workers r
    (r.startFirst.2 ++ (r.startFirst.1.collectAll scene).2) t.census
    (r.page (.proceed c made) s :: pages).flatten y.stand ∧
    ∀ m ∈ (r.page (.proceed c made) s :: pages).flatten, m.touches = false) hy ?_ ?_ ?_
  · obtain ⟨y, hy, -, hlevying⟩ := hlevying
    exact ⟨y, hy, hlevying⟩
  · rw [List.flatten_singleton]
    exact ⟨step_lock hstep rfl hr, hfirst, huntouched⟩
  · intro pages s x t y page ⟨hlock, hx, huntouched⟩ _ hkept hentry
    obtain ⟨hy, hpage⟩ := hx.own hentry
    rw [← List.cons_append, List.flatten_append, List.flatten_singleton, List.forall_mem_append]
    exact ⟨hkept hlock, hy, huntouched, hpage⟩
  · intro pages s x t hs ⟨hlock, hx, huntouched⟩ helsewhere
    exact ⟨helsewhere.lock hlock, hx.elsewhere hlock hs helsewhere, huntouched⟩

/-- What a tick hands out belongs to somebody each, and nobody has two things of it. -/
theorem wares_nodup (hnodup : r.registry.entries.Nodup) (draws : Nat → Draw) (recruits : List Params) :
    ((r.wares draws recruits).map Prod.fst).Nodup := by
  obtain ⟨honce, hthere⟩ := gathered_nodup hnodup draws
  rw [wares, List.map_append, List.nodup_append, fst_enlistments]
  refine ⟨honce, List.nodup_range', ?_⟩
  rintro i hi j hj rfl
  have hsmall := hthere i hi
  have hlarge := (List.mem_range'_1.mp hj).1
  omega

/-- What comes of a tick that gets the controller in a run: what it hands out, with the draws that it uses
    and the prices of the levels that it rises by, and what it has on record then. -/
structure Yield (scene : Scene) (r : Run) (marks : List Mark) (tasks : List Task) (draws : Nat → Draw)
    (prices : List Int) : Prop
    extends Tally r prices (Batch.levied scene.settings.workers r.level prices) marks where
  drawn : ∀ i, ∃ n, draws i = scene.draw n
  wares : tasks = (r.wares draws (Batch.levied scene.settings.workers r.level prices)).map Prod.snd
  once : ((r.wares draws (Batch.levied scene.settings.workers r.level prices)).map Prod.fst).Nodup

theorem Logs.untouched (h : Logs scene c r pages t) (hlock : r.Lock) (hx : r.controls[c]? = some x)
    (hqueued : x.stand = .queued) (htick : x.command = .tick) : ∀ m ∈ pages.flatten, m.touches = false := by
  obtain ⟨rfl, -⟩ | ⟨hnone, -⟩ | ⟨u, made, s, rest, hbefore, hu, hstep, hrest, rfl⟩ :=
    h.opened hx hqueued htick
  · simp
  · simp [hnone]
  · obtain ⟨_, _, _, huntouched⟩ := hrest.levying (hbefore.lock hlock) hu hqueued htick hstep
    exact huntouched

/-- A tick that waits for the controller in any run in which at most one call has it, whatever the exchange,
    the producer and other activities do until it returns. However it ends, it makes no deposit of its own,
    and leaves the registry, the score and the errors alone, as does each of its stretches. If it gets the
    controller now, nobody is registered twice, and it ends well, then it hands out in this order the start
    of the earliest registered investor that has not been started, the work of those that are signed in, and
    for each level that it rises by an enrolment with its own credit for everybody in the batch of that
    level. No two of these are of the same investor. -/
theorem tick_yields (hlock : r.Lock) (hx : r.controls[c]? = some x) (hqueued : x.stand = .queued)
    (htick : x.command = .tick) :
    (∀ pages t, Logs scene c r pages t → ∀ m ∈ pages.flatten, m.touches = false) ∧
    (∀ made s pages t y tasks, r.step scene (.proceed c made) = some s → Logs scene c s pages t →
      r.registry.entries.Nodup → t.controls[c]? = some y → y.stand = .ended (.ok tasks) →
      ∃ draws prices, Yield scene r (r.page (.proceed c made) s :: pages).flatten tasks draws prices) ∧
    ∀ pages s a u, Logs scene c r pages s → s.callOf a = some c → s.step scene a = some u →
      u.registry.entries = s.registry.entries ∧ u.deposits.size ≤ s.deposits.size ∧ u.tracker = s.tracker := by
  refine ⟨fun pages t h => h.untouched hlock hx hqueued htick, ?_, fun pages s a u hlogs ha hstep => ?_⟩
  · intro made s pages t z tasks hstep h hnodup hz hended
    obtain ⟨y, hy, hlevying, -⟩ := h.levying hlock hx hqueued htick hstep
    obtain rfl := Option.some.inj (hy.symm.trans hz)
    rw [hended] at hlevying
    cases hlevying with
    | ended _ prices htally htasks =>
      obtain ⟨draws, hdrawn, hgathered⟩ := gathered_eq scene hnodup
      refine ⟨draws, prices, htally, hdrawn, ?_, wares_nodup hnodup draws _⟩
      rw [htasks, hgathered, ← List.map_append]
      rfl
  · have huntouched := (hlogs.own a ha hstep).untouched hlock hx hqueued htick
    exact kept_of_touches fun m hm => huntouched m (mem_pages_of_news hm)

/-- A seller is registered and has not been started, and there is score enough for one level. -/
theorem tick_yields_of_seller :
    let scene := Scene.plain 1 0
    let r := { ofSeller with tracker := ofSeller.tracker.addScore 100 }.enter .tick false
    let steps : List Step := [.produce, .decide true, .provide 0 none]
    let tasks : List Task := [.exec "sign-in" 0 (.signIn 0), .enrol 1 1]
    ∃ s t draws prices, r.step scene (.proceed 0 none) = some s ∧ s.play scene steps = some t ∧
      t.resultOf 0 = some (.ok tasks) ∧ Yield scene r
        (r.page (.proceed 0 none) s :: s.along scene (pagesOf 0) steps).flatten tasks draws prices := by
  intro scene r steps tasks
  have hplayed : (r.step scene (.proceed 0 none)).bind (fun s => (s.play scene steps).map fun t => t.resultOf 0) =
      some (some (.ok tasks)) := by
    decide +kernel
  obtain ⟨s, hs, hplayed⟩ := Option.bind_eq_some_iff.mp hplayed
  obtain ⟨t, ht, hresult⟩ := Option.map_eq_some_iff.mp hplayed
  have hlock : r.Lock := lock_of_queued (by simp [r, enter, ofSeller, fresh])
  have hx : r.controls[0]? = some ⟨.tick, false, none, none, .queued⟩ := rfl
  obtain ⟨y, hy, hended⟩ := getElem?_of_resultOf hresult
  obtain ⟨draws, prices, hyield⟩ :=
    (tick_yields hlock hx rfl rfl).2.1 _ _ _ _ _ _ hs (logs_of_play ht) (by decide) hy hended
  exact ⟨s, t, draws, prices, hs, ht, hresult, hyield⟩

end Run

end ExchangeLoad
