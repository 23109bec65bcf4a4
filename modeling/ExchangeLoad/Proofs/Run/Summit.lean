import ExchangeLoad.Proofs.Run.Levy
import Mathlib.Tactic.Ring

/-!
Whether a tick comes to the end of its ascent. The score that it goes by stays what it was, and the score
that a level needs doubles, so that it rises by a few levels at most. But the needed score never grows
beyond the largest counter value: a tick that goes by that very score always finds it enough, and rises for
ever.
-/

namespace ExchangeLoad

theorem levelFor_le_of_le_largest {score : Int} (h : score ≤ Word.largest) : levelFor score ≤ 57 :=
  levelFor_le_iff.mpr (Int.lt_of_le_of_lt h (by decide))

theorem requiredScore_le_largest (level : Nat) : requiredScore level ≤ Word.largest := by
  unfold requiredScore
  split
  · next h => exact h.2
  · exact Int.le_refl _

/-- As long as the producer goes on nobody learns that the pipeline is closed. -/
theorem Pipeline.not_refused {p q : Pipeline} {ticket : Nat} (h : p.producer ≠ .stopped) :
    p.take ticket ≠ some (q, none) := by
  intro htake
  unfold take at htake
  split at htake
  · split at htake
    · simp at htake
    · cases htake
  · cases htake

namespace Run

/-- A history without end in which the call with number `c` is attended to: until it is over it gets its
    turn again and again, with an identity and a client for everybody whom it builds, nobody gives it up,
    and no error is counted. -/
structure Attended (scene : Scene) (c : Nat) (runs : Nat → Run) (steps : Nat → Step) : Prop where
  goes : ∀ n, (runs n).step scene (steps n) = some (runs (n + 1))
  turns : ∀ n, ∃ m, n ≤ m ∧ ((runs m).callOf (steps m) = some c ∨
    ∃ x, (runs m).controls[c]? = some x ∧ x.stand.over = true)
  flowing : ∀ n x, (runs n).controls[c]? = some x → x.stand.over = false →
    (runs n).pipeline.producer ≠ .stopped
  created : ∀ n made, steps n = .provide c made → made = none
  kept : ∀ n x, (runs n).controls[c]? = some x → x.stand ≠ .dropped
  steady : ∀ n x, (runs n).controls[c]? = some x → x.stand.over = false →
    (runs n).tracker.errors = (runs 0).tracker.errors

/-- The journal of a call over the first steps of a history. -/
def journal (c : Nat) (runs : Nat → Run) (steps : Nat → Step) (n : Nat) : List (List Mark) :=
  (List.range n).flatMap fun k => pagesOf c (runs k) (steps k) (runs (k + 1))

/-- How many stretches a tick has before it at most that rises to a level `top`. -/
def ahead (workers top level : Nat) : Stand → Nat
  | .weighing _ => (top - level) * (workers + 1)
  | .raising _ slot _ => (top - level) * (workers + 1) + (workers - slot)
  | _ => 0

variable {scene : Scene} {c slot ticket workers : Nat} {r s t : Run} {x y : Control} {a : Step} {b b' : Census}
  {climb : Climb} {stand : Stand} {gathered : List Task} {marks page : List Mark} {pipeline : Pipeline}
  {id : Identity} {made : Option Fault} {runs : Nat → Run} {steps : Nat → Step}

/-- A tick rises by no more levels than its score is enough for. -/
theorem Tally.rises_le {prices : List Int} {recruits : List Params} (h : Tally r prices recruits marks)
    (hscore : r.tracker.score < Word.largest ∨ r.tracker.floor < r.tracker.errors) :
    (marks.filterMap Mark.rise?).length ≤ 57 - r.level := by
  rw [h.raised, List.length_map, List.length_range]
  cases prices with
  | nil => exact Nat.zero_le _
  | cons price rest =>
    have hadmitted := h.admitted (by simp)
    have hsmall : r.tracker.score < Word.largest := hscore.resolve_right (Int.not_lt.mpr hadmitted)
    have hlast := h.afforded rest.length (by simp)
    have hlevel := lt_levelFor_iff.mpr ((requiredScore_le_iff hsmall).mp hlast)
    have hsummit := levelFor_le_of_le_largest (Int.le_of_lt hsmall)
    rw [List.length_cons]
    omega

theorem Weighed.not_failed (h : Weighed scene c r b climb b' stand) (e : RunError) :
    stand ≠ .ended (.error e) := by
  cases h with
  | stay _ hstand => simp [hstand]
  | again _ _ hstand => simp [hstand]
  | raise _ _ _ hstand => simp [hstand]

/-- With an identity and a client a slot is filled. -/
theorem recruit_not_failed (hx : s.controls[c]? = some x)
    (hy : ({ s with pipeline }.recruit scene c slot climb id none).controls[c]? = some y) (e : RunError) :
    y.stand ≠ .ended (.error e) := by
  have hmidway : Midway c s { s with pipeline } x := (Midway.refl hx).of_eq rfl
  have hbuilding := hmidway.build scene id (Batch.rising s.level climb.price slot)
    (.rising c s.level climb.price slot) none
  unfold recruit at hy
  cases hbuild : { s with pipeline }.build scene id (Batch.rising s.level climb.price slot)
      (.rising c s.level climb.price slot) none with
  | mk u result =>
    rw [hbuild] at hbuilding
    cases result with
    | error why => simp [build] at hbuild
    | ok i =>
      simp only [hbuild] at hy
      split at hy
      · obtain ⟨next, hleaves⟩ := hbuilding.awaitIdentity (.raising { climb with
          tasks := climb.tasks ++ [.enrol i (Batch.rising s.level climb.price slot).credit] } (slot + 1))
          fun _ => rfl
        simp [hleaves.eq hy]
      · obtain ⟨stand, hweighed, hleaves⟩ := (Midway.refl hbuilding.control).weigh scene { climb with
          tasks := climb.tasks ++ [.enrol i (Batch.rising s.level climb.price slot).credit] } rfl
        rw [hleaves.eq hy]
        exact hweighed.not_failed e

theorem Levying.active_or_over (h : Levying workers r gathered b marks stand) :
    stand.active = true ∨ stand.over = true := by
  cases h with
  | weighing | raising => exact .inl rfl
  | ended | failed | dropped => exact .inr rfl

/-- A tick whose clients can all be provisioned does not fail. -/
theorem Levying.not_failed (h : Levying workers r gathered b marks x.stand) (hx : s.controls[c]? = some x)
    (hstep : s.step scene a = some t) (ha : s.callOf a = some c) (hy : t.controls[c]? = some y)
    (hflowing : s.pipeline.producer ≠ .stopped) (hcreated : ∀ made, a = .provide c made → made = none)
    (e : RunError) : y.stand ≠ .ended (.error e) := by
  obtain ⟨z, hz, hmove | ⟨cause, u, rfl, hmove, rfl⟩⟩ := step_callMove_of_callOf hstep ha
  · obtain rfl := Option.some.inj (hx.symm.trans hz)
    have hover := hmove.not_over
    cases hmove with
    | recruit climb slot ticket pipeline id made =>
      obtain rfl := hcreated made rfl
      exact recruit_not_failed hx hy e
    | refuse ticket pipeline made hstand htake => exact absurd htake (Pipeline.not_refused hflowing)
    | weigh climb hstand =>
      obtain ⟨stand, hweighed, hleaves⟩ := (Midway.refl hx).weigh scene climb rfl
      rw [hleaves.eq hy]
      exact hweighed.not_failed e
    | giveUp =>
      have hdropped := hy.symm.trans (getElem?_withStand hx)
      simp [Option.some.inj hdropped]
    | start _ hstand | tick _ hstand | boot _ hstand | unready _ _ hstand | fund _ _ _ _ _ _ hstand
    | register _ _ _ _ _ hstand =>
      rw [hstand] at h
      cases h
  · obtain ⟨hdropped, -⟩ := giveUp_entry hz hmove
    simp [Option.some.inj (hy.symm.trans hdropped)]

/-- A tick that gets the controller looks at the level, unless it is given up. -/
theorem Entry.opening (h : Entry scene c r x y t page) (hqueued : x.stand = .queued) (htick : x.command = .tick) :
    Weighed scene c r r.census ⟨r.tracker.score, 0, r.startFirst.2 ++ (r.startFirst.1.collectAll scene).2⟩
      t.census y.stand ∨ y.stand = .dropped := by
  cases h with
  | tick _ _ _ hweighed => exact .inl hweighed
  | drop hstand => exact .inr hstand
  | uncreated _ _ hcommand | welcome _ _ hcommand =>
    rw [htick] at hcommand
    cases hcommand
  | unprovided _ _ _ hbefore =>
    rw [hqueued] at hbefore
    cases hbefore
  | _ => simp_all

/-- A look at the level ends the ascent, or leaves fewer stretches before it. -/
theorem Weighed.nears (h : Weighed scene c s b climb b' stand) (hlevel : b.level = s.level)
    (hscore : climb.score < Word.largest) : (∃ tasks, stand = .ended (.ok tasks)) ∨
      ahead scene.settings.workers (levelFor climb.score) b'.level stand <
        (levelFor climb.score - s.level) * (scene.settings.workers + 1) := by
  -- A level that is left was not the last one.
  have hmore (hrise : s.mayRise climb.score = true) : ∃ k, levelFor climb.score - s.level = k + 1 ∧
      levelFor climb.score - (s.level + 1) = k := by
    obtain ⟨henough, -⟩ := mayRise_iff.mp hrise
    have hbelow := lt_levelFor_iff.mpr ((requiredScore_le_iff hscore).mp henough)
    exact ⟨levelFor climb.score - (s.level + 1), by omega, rfl⟩
  cases h with
  | stay _ hstand => exact .inl ⟨climb.tasks, hstand⟩
  | again hrise _ hstand hcensus =>
    obtain ⟨k, hbefore, hafter⟩ := hmore hrise
    have hraised : b'.level = s.level + 1 := by simp [hcensus, Census.weighed, hlevel]
    right
    rw [hstand, ahead, hraised, hbefore, hafter, Nat.succ_mul]
    omega
  | raise ticket hrise _ hstand hcensus =>
    obtain ⟨k, hbefore, hafter⟩ := hmore hrise
    have hraised : b'.level = s.level + 1 := by simp [hcensus, Census.weighed, hlevel]
    right
    rw [hstand, ahead, hraised, hbefore, hafter, Nat.succ_mul]
    omega

/-- Every stretch of a tick ends it, or leaves fewer stretches before it. -/
theorem Levying.nears (h : Levying scene.settings.workers r gathered s.census marks x.stand)
    (hentry : Entry scene c s x y t page) (hscore : r.tracker.score < Word.largest)
    (hfailed : ∀ e, y.stand ≠ .ended (.error e)) (hkept : y.stand ≠ .dropped) :
    (∃ tasks, y.stand = .ended (.ok tasks)) ∨
      ahead scene.settings.workers (levelFor r.tracker.score) t.level y.stand <
        ahead scene.settings.workers (levelFor r.tracker.score) s.level x.stand := by
  cases hentry with
  | unprovided _ _ _ _ _ hstand => exact absurd hstand (hfailed _)
  | recruit climb slot ticket next id hbefore hmore hstand hcensus =>
    right
    have hlevel : t.level = s.level := congrArg Census.level hcensus
    rw [hbefore, hstand, ahead, ahead, hlevel]
    omega
  | complete climb slot ticket id hbefore hlast hweighed =>
    rw [hbefore] at h ⊢
    cases h with
    | raising _ _ _ prices hslot h =>
      have hsame : (s.recruited climb slot).score = r.tracker.score := h.score
      refine (hweighed.nears rfl (hsame ▸ hscore)).imp_right fun hless => ?_
      rw [hsame] at hless
      exact Nat.lt_of_lt_of_le hless (Nat.le_add_right ..)
  | weigh climb hbefore hweighed =>
    rw [hbefore] at h ⊢
    cases h with
    | weighing _ prices hprices h =>
      have hsame := h.score
      exact hsame ▸ hweighed.nears rfl (hsame ▸ hscore)
  | drop hstand => exact absurd hstand hkept
  | uncreated _ hbefore | welcome _ hbefore | unready _ _ hbefore | ready _ hbefore | found _ _ _ _ _ hbefore
  | register _ _ _ _ _ _ hbefore | lost _ _ _ _ _ hbefore | tick _ hbefore =>
    rw [hbefore] at h
    cases h

/-- The largest counter value is always enough to rise. -/
theorem Weighed.not_done (h : Weighed scene c s b climb b' stand) (hscore : Word.largest ≤ climb.score)
    (herrors : s.tracker.errors ≤ s.tracker.floor) (tasks : List Task) : stand ≠ .ended (.ok tasks) := by
  cases h with
  | stay hrise =>
    have henough := Int.le_trans (requiredScore_le_largest s.level) hscore
    rw [mayRise_iff.mpr ⟨henough, herrors⟩] at hrise
    cases hrise
  | again _ _ hstand => simp [hstand]
  | raise _ _ _ hstand => simp [hstand]

theorem Levying.not_done (h : Levying scene.settings.workers r gathered s.census marks x.stand)
    (hentry : Entry scene c s x y t page) (hscore : Word.largest ≤ r.tracker.score)
    (herrors : s.tracker.errors ≤ s.tracker.floor) (tasks : List Task) : y.stand ≠ .ended (.ok tasks) := by
  cases hentry with
  | unprovided _ _ _ _ _ hstand => simp [hstand]
  | recruit _ _ _ _ _ _ _ hstand => simp [hstand]
  | complete climb slot ticket id hbefore _ hweighed =>
    rw [hbefore] at h
    cases h with
    | raising _ _ _ prices _ h =>
      have hsame : (s.recruited climb slot).score = r.tracker.score := h.score
      exact hweighed.not_done (hsame ▸ hscore) herrors tasks
  | weigh climb hbefore hweighed =>
    rw [hbefore] at h
    cases h with
    | weighing _ prices _ h => exact hweighed.not_done (h.score ▸ hscore) herrors tasks
  | drop hstand => simp [hstand]
  | uncreated _ hbefore | welcome _ hbefore | unready _ _ hbefore | ready _ hbefore | found _ _ _ _ _ hbefore
  | register _ _ _ _ _ _ hbefore | lost _ _ _ _ _ hbefore | tick _ hbefore =>
    rw [hbefore] at h
    cases h

namespace Attended

variable (h : Attended scene c runs steps)
include h

theorem lock (hlock : (runs 0).Lock) (n : Nat) : (runs n).Lock := by
  induction n with
  | zero => exact hlock
  | succ n ih =>
    by_cases ha : (runs n).callOf (steps n) = some c
    · exact step_lock (h.goes n) ha ih
    · exact (step_elsewhere (h.goes n) ha).lock ih

theorem floor (n : Nat) : (runs n).tracker.floor = (runs 0).tracker.floor := by
  induction n with
  | zero => rfl
  | succ n ih => exact (step_errors (h.goes n)).1.trans ih

/-- The journal of the call from its first stretch on. -/
theorem logs (n : Nat) : Logs scene c (runs 1)
    ((List.range n).flatMap fun k => pagesOf c (runs (k + 1)) (steps (k + 1)) (runs (k + 2)))
    (runs (n + 1)) := by
  induction n with
  | zero => exact .refl
  | succ n ih =>
    rw [List.range_succ, List.flatMap_append, List.flatMap_singleton]
    exact ih.step (h.goes (n + 1))

/-- What has the controller keeps it, at the same level, until its next stretch. -/
theorem waits {n m : Nat} (hle : n ≤ m) (hlock : (runs 0).Lock) (hx : (runs n).controls[c]? = some x)
    (hactive : x.stand.active = true) :
    (∃ k, n ≤ k ∧ (runs k).controls[c]? = some x ∧ (runs k).level = (runs n).level ∧
      (runs k).callOf (steps k) = some c) ∨
    (runs m).controls[c]? = some x ∧ (runs m).level = (runs n).level := by
  induction m, hle using Nat.le_induction with
  | base => exact .inr ⟨hx, rfl⟩
  | succ m hle ih =>
    obtain hturn | ⟨hm, hlevel⟩ := ih
    · exact .inl hturn
    · by_cases ha : (runs m).callOf (steps m) = some c
      · exact .inl ⟨m, hle, hm, hlevel, ha⟩
      · have helsewhere := step_elsewhere (h.goes m) ha
        have hhistory := helsewhere.history_of_active (h.lock hlock m) hm hactive
        exact .inr ⟨helsewhere.control hm, (congrArg Prod.fst hhistory).trans hlevel⟩

theorem next_turn (n : Nat) (hlock : (runs 0).Lock) (hx : (runs n).controls[c]? = some x)
    (hactive : x.stand.active = true) : ∃ k, n ≤ k ∧ (runs k).controls[c]? = some x ∧
      (runs k).level = (runs n).level ∧ (runs k).callOf (steps k) = some c := by
  obtain ⟨m, hle, hturn⟩ := h.turns n
  obtain hfound | ⟨hm, hlevel⟩ := h.waits hle hlock hx hactive
  · exact hfound
  · obtain ha | ⟨y, hy, hover⟩ := hturn
    · exact ⟨m, hle, hm, hlevel, ha⟩
    · obtain rfl := Option.some.inj (hm.symm.trans hy)
      cases hstand : x.stand <;> simp_all [Stand.active, Stand.over]

variable (hlock : (runs 0).Lock) (hx : (runs 0).controls[c]? = some x) (hqueued : x.stand = .queued)
  (htick : x.command = .tick) (hfirst : steps 0 = .proceed c made)
include hlock hx hqueued htick hfirst

/-- How far the tick has come after some steps. -/
theorem levying (n : Nat) : ∃ y, (runs (n + 1)).controls[c]? = some y ∧
    Levying scene.settings.workers (runs 0)
      ((runs 0).startFirst.2 ++ ((runs 0).startFirst.1.collectAll scene).2) (runs (n + 1)).census
      (journal c runs steps (n + 1)).flatten y.stand := by
  have hstep : (runs 0).step scene (.proceed c made) = some (runs 1) := hfirst ▸ h.goes 0
  obtain ⟨y, hy, hlevying, -⟩ := (h.logs n).levying hlock hx hqueued htick hstep
  refine ⟨y, hy, ?_⟩
  have hpage : pagesOf c (runs 0) (steps 0) (runs 1) = [(runs 0).page (.proceed c made) (runs 1)] := by
    rw [hfirst]
    exact if_pos rfl
  rw [journal, List.range_succ_eq_map, List.flatMap_cons, hpage, List.flatMap_map]
  exact hlevying

omit hlock in
/-- The stand after the first stretch. -/
theorem opening (hy : (runs 1).controls[c]? = some y) : Weighed scene c (runs 0) (runs 0).census
    ⟨(runs 0).tracker.score, 0, (runs 0).startFirst.2 ++ ((runs 0).startFirst.1.collectAll scene).2⟩
    (runs 1).census y.stand := by
  have hstep : (runs 0).step scene (.proceed c made) = some (runs 1) := hfirst ▸ h.goes 0
  obtain ⟨x', y', hx', hy', -, hentry⟩ := step_entry hstep rfl
  obtain rfl := Option.some.inj (hx.symm.trans hx')
  obtain rfl := Option.some.inj (hy.symm.trans hy')
  obtain hweighed | hdropped := hentry.opening hqueued htick
  · exact hweighed
  · exact absurd hdropped (h.kept 1 y hy)

theorem not_failed (n : Nat) (hy : (runs (n + 1)).controls[c]? = some y) (e : RunError) :
    y.stand ≠ .ended (.error e) := by
  induction n generalizing y with
  | zero => exact (h.opening hx hqueued htick hfirst hy).not_failed e
  | succ n ih =>
    obtain ⟨z, hz, hlevying⟩ := h.levying hlock hx hqueued htick hfirst n
    by_cases ha : (runs (n + 1)).callOf (steps (n + 1)) = some c
    · have hflowing := h.flowing (n + 1) z hz (not_over_of_step (h.goes (n + 1)) ha hz)
      exact hlevying.not_failed hz (h.goes (n + 1)) ha hy hflowing (h.created (n + 1)) e
    · have hsame := (step_elsewhere (h.goes (n + 1)) ha).control hz
      obtain rfl := Option.some.inj (hsame.symm.trans hy)
      exact ih hz

theorem nears (hscore : (runs 0).tracker.score < Word.largest) (n : Nat)
    (hy : (runs (n + 1)).controls[c]? = some y) (hactive : y.stand.active = true) :
    ∃ k z, (runs (k + 1)).controls[c]? = some z ∧ ((∃ tasks, z.stand = .ended (.ok tasks)) ∨
      ahead scene.settings.workers (levelFor (runs 0).tracker.score) (runs (k + 1)).level z.stand <
        ahead scene.settings.workers (levelFor (runs 0).tracker.score) (runs (n + 1)).level y.stand) := by
  obtain ⟨k, hle, hk, hlevel, ha⟩ := h.next_turn (n + 1) hlock hy hactive
  obtain ⟨j, rfl⟩ : ∃ j, k = j + 1 := ⟨k - 1, by omega⟩
  obtain ⟨z, hz, hlevying⟩ := h.levying hlock hx hqueued htick hfirst j
  obtain rfl := Option.some.inj (hk.symm.trans hz)
  obtain ⟨x', z, hx', hz, -, hentry⟩ := step_entry (h.goes (j + 1)) ha
  obtain rfl := Option.some.inj (hk.symm.trans hx')
  refine ⟨j + 1, z, hz, ?_⟩
  rw [← hlevel]
  exact hlevying.nears hentry hscore (h.not_failed hlock hx hqueued htick hfirst (j + 1) hz)
    (h.kept (j + 2) z hz)

/-- An ascent by a score below the largest counter value comes to its end. -/
theorem ends (hscore : (runs 0).tracker.score < Word.largest) (n : Nat)
    (hy : (runs (n + 1)).controls[c]? = some y) : ∃ m tasks, (runs m).resultOf c = some (.ok tasks) := by
  induction hahead : ahead scene.settings.workers (levelFor (runs 0).tracker.score) (runs (n + 1)).level y.stand
    using Nat.strong_induction_on generalizing n y with
  | _ d ih =>
    subst hahead
    obtain ⟨z, hz, hlevying⟩ := h.levying hlock hx hqueued htick hfirst n
    obtain rfl := Option.some.inj (hy.symm.trans hz)
    obtain hactive | hover := hlevying.active_or_over
    · obtain ⟨k, z, hz, ⟨tasks, hended⟩ | hless⟩ := h.nears hlock hx hqueued htick hfirst hscore n hy hactive
      · exact ⟨k + 1, tasks, by rw [resultOf_of_getElem? hz, hended]⟩
      · exact ih _ hless k hz rfl
    · cases hstand : y.stand with
      | ended result =>
        cases result with
        | ok tasks => exact ⟨n + 1, tasks, by rw [resultOf_of_getElem? hy, hstand]⟩
        | error e => exact absurd hstand (h.not_failed hlock hx hqueued htick hfirst n hy e)
      | dropped => exact absurd hstand (h.kept (n + 1) y hy)
      | _ =>
        rw [hstand] at hover
        cases hover

/-- An ascent by the largest counter value does not. -/
theorem not_done (hscore : Word.largest ≤ (runs 0).tracker.score)
    (herrors : (runs 0).tracker.errors ≤ (runs 0).tracker.floor) (n : Nat)
    (hy : (runs (n + 1)).controls[c]? = some y) (tasks : List Task) : y.stand ≠ .ended (.ok tasks) := by
  induction n generalizing y with
  | zero => exact (h.opening hx hqueued htick hfirst hy).not_done hscore herrors tasks
  | succ n ih =>
    obtain ⟨z, hz, hlevying⟩ := h.levying hlock hx hqueued htick hfirst n
    by_cases ha : (runs (n + 1)).callOf (steps (n + 1)) = some c
    · obtain ⟨x', y', hx', hy', -, hentry⟩ := step_entry (h.goes (n + 1)) ha
      obtain rfl := Option.some.inj (hz.symm.trans hx')
      obtain rfl := Option.some.inj (hy.symm.trans hy')
      refine hlevying.not_done hentry hscore ?_ tasks
      rw [h.steady (n + 1) z hz (not_over_of_step (h.goes (n + 1)) ha hz), h.floor]
      exact herrors
    · have hsame := (step_elsewhere (h.goes (n + 1)) ha).control hz
      obtain rfl := Option.some.inj (hsame.symm.trans hy)
      exact ih hz

end Attended

/-- The runs of a history that takes some steps, and then is asked to stop over and over. -/
def lingering (scene : Scene) (r : Run) (steps : List Step) : Nat → Run
  | 0 => r
  | n + 1 => ((lingering scene r steps n).step scene (steps[n]?.getD .signal)).getD (lingering scene r steps n)

theorem lingering_signalled {steps : List Step} {n : Nat} (hn : steps.length ≤ n) :
    lingering scene r steps (n + 1) = { lingering scene r steps n with signalled := true } := by
  rw [lingering, List.getElem?_eq_none hn]
  rfl

/-- Once it is only asked to stop, nothing changes any more. -/
theorem lingering_of_le {steps : List Step} {n : Nat} (hn : steps.length < n) :
    lingering scene r steps n = lingering scene r steps (steps.length + 1) := by
  induction n, hn using Nat.le_induction with
  | base => rfl
  | succ n hn ih =>
    rw [lingering_signalled (Nat.le_of_succ_le hn), ih, lingering_signalled (Nat.le_refl _)]

/-- What holds of a run at each of the first steps of such a history holds for ever. -/
theorem lingering_forall {steps : List Step} (Holds : Run → Prop)
    (h : ∀ n < steps.length + 2, Holds (lingering scene r steps n)) (n : Nat) :
    Holds (lingering scene r steps n) := by
  by_cases hn : n < steps.length + 2
  · exact h n hn
  · rw [lingering_of_le (by omega)]
    exact h _ (by omega)

theorem lingering_step {steps : List Step}
    (h : ∀ n < steps.length, ((lingering scene r steps n).step scene (steps[n]?.getD .signal)).isSome = true)
    (n : Nat) : (lingering scene r steps n).step scene (steps[n]?.getD .signal) =
      some (lingering scene r steps (n + 1)) := by
  by_cases hn : n < steps.length
  · obtain ⟨t, ht⟩ := Option.isSome_iff_exists.mp (h n hn)
    rw [lingering, ht, Option.getD_some]
  · have hle := Nat.le_of_not_lt hn
    rw [lingering_signalled hle, List.getElem?_eq_none hle]
    rfl

/-- A tick with nobody else about, in a run of a certain score. -/
def alone (score : Int) : Run :=
  { fresh 0 10 4 0 with tracker := (Tracker.fresh 0 10).addScore score }.enter .tick false

/-- A tick that gets the controller and is attended to in any run in which at most one call has it. It
    comes to its end exactly where it finds a score below the largest counter value, or more errors than the
    floor. Then it rises to level 57 at most: from level 0 by no more than 57 levels. -/
theorem climb_ends_iff (h : Attended scene c runs steps) (hlock : (runs 0).Lock)
    (hx : (runs 0).controls[c]? = some x) (hqueued : x.stand = .queued) (htick : x.command = .tick)
    (hfirst : steps 0 = .proceed c made) :
    ((∃ n tasks, (runs n).resultOf c = some (.ok tasks)) ↔ (runs 0).tracker.score < Word.largest ∨
      (runs 0).tracker.floor < (runs 0).tracker.errors) ∧
    ((runs 0).tracker.score < Word.largest ∨ (runs 0).tracker.floor < (runs 0).tracker.errors →
      ∀ n, ((journal c runs steps n).flatten.filterMap Mark.rise?).length ≤ 57 - (runs 0).level) := by
  obtain ⟨y, hy, -⟩ := h.levying hlock hx hqueued htick hfirst 0
  refine ⟨⟨?_, ?_⟩, fun hends n => ?_⟩
  · rintro ⟨n, tasks, hresult⟩
    by_contra hnot
    obtain ⟨hscore, herrors⟩ := not_or.mp hnot
    obtain ⟨z, hz, hended⟩ := getElem?_of_resultOf hresult
    cases n with
    | zero =>
      obtain rfl := Option.some.inj (hx.symm.trans hz)
      rw [hqueued] at hended
      cases hended
    | succ n =>
      exact h.not_done hlock hx hqueued htick hfirst (Int.not_lt.mp hscore) (Int.not_lt.mp herrors) n hz
        tasks hended
  · rintro (hscore | herrors)
    · exact h.ends hlock hx hqueued htick hfirst hscore 0 hy
    · have hheld : (runs 0).mayRise (runs 0).tracker.score = false := by
        rw [Bool.eq_false_iff, ne_eq, mayRise_iff]
        omega
      cases h.opening hx hqueued htick hfirst hy with
      | stay _ hstand => exact ⟨1, _, by rw [resultOf_of_getElem? hy, hstand]⟩
      | again hrise => rw [hheld] at hrise; cases hrise
      | raise _ hrise => rw [hheld] at hrise; cases hrise
  · cases n with
    | zero => exact Nat.zero_le _
    | succ n =>
      obtain ⟨_, _, hlevying⟩ := h.levying hlock hx hqueued htick hfirst n
      obtain ⟨_, _, htally⟩ := hlevying.tally
      exact htally.rises_le hends

/-- With the score for one level, a tick fills the one slot of its batch and is done. -/
theorem climb_ends_at_first_level :
    let steps : List Step := [.proceed 0 none, .produce, .decide true, .provide 0 none]
    let runs := lingering (Scene.plain 1 0) (alone 100) steps
    Attended (Scene.plain 1 0) 0 runs (fun n => steps[n]?.getD .signal) ∧
      ∃ n tasks, (runs n).resultOf 0 = some (.ok tasks) := by
  intro steps runs
  have hgoes : ∀ n, (runs n).step (Scene.plain 1 0) (steps[n]?.getD .signal) = some (runs (n + 1)) :=
    lingering_step (by decide +kernel)
  have hflowing : ∀ n, (runs n).pipeline.producer ≠ .stopped :=
    lingering_forall (fun s => s.pipeline.producer ≠ .stopped) (by decide +kernel)
  have hsteady : ∀ n, (runs n).tracker.errors = 0 :=
    lingering_forall (fun s => s.tracker.errors = 0) (by decide +kernel)
  have hkept : ∀ n, ((runs n).controls[0]?).any (fun x => x.stand matches .dropped) = false :=
    lingering_forall (fun s => (s.controls[0]?).any (fun x => x.stand matches .dropped) = false)
      (by decide +kernel)
  have hover (n : Nat) (hn : 3 < n) : ∃ x, (runs n).controls[0]? = some x ∧ x.stand.over = true := by
    have hresult : (runs n).resultOf 0 = some (.ok [.enrol 0 1]) := by
      obtain rfl | hlast := Nat.eq_or_lt_of_le hn
      · decide +kernel
      · rw [show runs n = runs 5 from lingering_of_le hlast]
        decide +kernel
    obtain ⟨x, hx, hended⟩ := getElem?_of_resultOf hresult
    exact ⟨x, hx, by rw [hended]; rfl⟩
  have hattended : Attended (Scene.plain 1 0) 0 runs (fun n => steps[n]?.getD .signal) := by
    refine ⟨hgoes, fun n => ?_, fun n _ _ _ => hflowing n, fun n made hmade => ?_,
      fun n x hx hdropped => ?_, fun n _ _ _ => ?_⟩
    · by_cases hn : n ≤ 3
      · exact ⟨3, hn, .inl rfl⟩
      · exact ⟨n, Nat.le_refl n, .inr (hover n (Nat.lt_of_not_le hn))⟩
    · match n with
      | 0 | 1 | 2 => cases hmade
      | 3 => cases hmade; rfl
      | n + 4 => cases hmade
    · have hstays := hkept n
      simp [hx, hdropped] at hstays
    · exact (hsteady n).trans (hsteady 0).symm
  have hlock : (runs 0).Lock := lock_of_queued (by simp [runs, lingering, alone, enter, fresh])
  exact ⟨hattended, (climb_ends_iff hattended hlock rfl rfl rfl rfl).1.mpr (.inl (by decide))⟩

/-- A tick that finds the largest counter value and no error has risen by 58 levels, and goes on. -/
theorem climb_passes_summit :
    let steps := .proceed 0 none :: (List.replicate 57 [Step.produce, .decide true, .provide 0 none]).flatten
    ∃ t, (alone Word.largest).play (Scene.plain 1 0) steps = some t ∧ t.tracker.errors = 0 ∧
      t.level = 58 ∧ t.resultOf 0 = none := by
  intro steps
  have hplayed : ((alone Word.largest).play (Scene.plain 1 0) steps).map (fun t =>
      (t.tracker.errors, t.level, t.resultOf 0)) = some (0, 58, none) := by
    decide +kernel
  obtain ⟨t, ht, hvalues⟩ := Option.map_eq_some_iff.mp hplayed
  simp only [Prod.mk.injEq] at hvalues
  exact ⟨t, ht, hvalues⟩

end Run

end ExchangeLoad
