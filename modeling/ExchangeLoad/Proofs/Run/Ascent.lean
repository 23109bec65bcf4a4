import ExchangeLoad.Proofs.Run.Effect
import ExchangeLoad.Proofs.Threshold
import Mathlib.Data.Finset.Lattice.Fold
import Mathlib.Order.Lattice.Nat

/-!
How the level rises. Every look at the level is that of a tick, which goes by the score that it found
when it got the controller; the level rises by one at each look that finds the score high enough and
few enough errors, and only there. A tick does not end well before it has found the level too high.
-/

namespace ExchangeLoad

/-- What a call handed out, if it ended well. -/
def Stand.handedOut? : Stand → Option (List Task)
  | ended (.ok tasks) => some tasks
  | _ => none

theorem Stand.handedOut?_eq_some {stand : Stand} {tasks : List Task} :
    stand.handedOut? = some tasks ↔ stand = .ended (.ok tasks) := by
  unfold handedOut?
  split
  · simp
  · next hother =>
    constructor
    · intro h
      cases h
    · exact fun h => absurd h (hother tasks)

/-- A call stands where one of its kind can, and a tick goes by the score that it found. -/
def Control.InRole (x : Control) : Prop :=
  match x.stand with
  | .queued => x.outset = none
  | .booting _ => x.command = .start
  | .founding .. => x.command = .start
  | .funding .. => x.command = .start
  | .raising climb _ _ => x.command = .tick ∧ x.outset.map Outset.score = some climb.score
  | .weighing climb => x.command = .tick ∧ x.outset.map Outset.score = some climb.score
  | _ => True

/-- The looks at which the level rose. -/
def Census.rises (b : Census) : List Weighing := b.weighings.filter (·.rose.isSome)

namespace Run

/-- Every call stands where one of its kind can. -/
def InRole (r : Run) : Prop := ∀ (c : Nat) (x : Control), r.controls[c]? = some x → x.InRole

/-- The call with number `c`, which becomes `y`, looks at the level, and leaves the census as `b`. -/
structure Look (c : Nat) (r : Run) (y : Control) (b : Census) (w : Weighing) : Prop where
  tick : y.command = .tick
  control : w.control = c
  level : w.level = r.level
  errors : w.errors = r.tracker.errors
  score : y.outset.map Outset.score = some w.score
  rose : w.rose = if r.mayRise w.score then some r.marketPrice else none
  last : ∀ tasks, y.stand = .ended (.ok tasks) → w.rose = none
  weighings : b.weighings = r.census.weighings ++ [w]
  levelAfter : b.level = r.level + if w.rose.isSome then 1 else 0

variable {scene : Scene} {kind : Step → Prop} {c : Nat} {r s t : Run} {a : Step} {x y : Control}
  {b b' : Census} {taken : List Identity} {floor : Int} {w : Weighing}

theorem mayRise_iff {score : Int} : r.mayRise score = true ↔
    requiredScore r.level ≤ score ∧ r.tracker.errors ≤ r.tracker.floor := by
  simp [mayRise]

theorem ToSlot.inRole {slot : Nat} {tasks : List Task} (h : ToSlot scene slot tasks y.stand)
    (hcommand : y.command = .start) : y.InRole := by
  unfold Control.InRole
  cases h with
  | more _ _ hstand => rw [hstand]; exact hcommand
  | done _ hstand => rw [hstand]; trivial

theorem Weighed.inRole {climb : Climb} (h : Weighed scene c r b climb b' y.stand)
    (hcommand : y.command = .tick) (hscore : y.outset.map Outset.score = some climb.score) : y.InRole := by
  unfold Control.InRole
  cases h with
  | stay _ hstand => rw [hstand]; trivial
  | again _ _ hstand => rw [hstand]; exact ⟨hcommand, hscore⟩
  | raise _ _ _ hstand => rw [hstand]; exact ⟨hcommand, hscore⟩

/-- Wherever a stretch takes a call, it stands where one of its kind can. -/
theorem Turn.inRole (h : Turn scene c r x t y) (hx : x.InRole) : y.InRole := by
  have hcommand := h.command
  unfold Control.InRole at hx
  cases h.deed with
  | fail e hstand => unfold Control.InRole; rw [hstand]; trivial
  | drop hstand => unfold Control.InRole; rw [hstand]; trivial
  | boot guest _ hstart _ hstand => unfold Control.InRole; rw [hstand]; exact hcommand.trans hstart
  | found guest hbefore hslot =>
    rw [hbefore] at hx
    exact hslot.inRole (hcommand.trans hx)
  | fund slot ticket tasks id hbefore hstand =>
    rw [hbefore] at hx
    unfold Control.InRole
    rw [hstand]
    exact hcommand.trans hx
  | register slot i deposit tasks started accepted hbefore _ hslot =>
    rw [hbefore] at hx
    exact hslot.inRole (hcommand.trans hx)
  | tick tasks _ htick _ _ houtset hweighed =>
    exact hweighed.inRole (hcommand.trans htick) (by rw [houtset]; rfl)
  | recruit climb slot ticket next id hbefore _ hstand houtset =>
    rw [hbefore] at hx
    unfold Control.InRole
    rw [hstand, hcommand, houtset]
    exact hx
  | complete climb slot ticket id hbefore _ houtset _ hweighed =>
    rw [hbefore] at hx
    exact hweighed.inRole (hcommand.trans hx.1) (by rw [houtset]; exact hx.2)
  | weigh climb hbefore houtset hweighed =>
    rw [hbefore] at hx
    exact hweighed.inRole (hcommand.trans hx.1) (by rw [houtset]; exact hx.2)

theorem Turn.roles (h : Turn scene c r x t y) (hx : r.controls[c]? = some x) (hr : r.InRole) : t.InRole := by
  intro k z hz
  obtain ⟨rfl, rfl⟩ | ⟨_, hz⟩ := h.calls hz
  · exact h.inRole (hr k x hx)
  · exact hr k z hz

theorem Idle.roles (h : Idle r t) (hr : r.InRole) : t.InRole := by
  intro k z hz
  obtain hz | ⟨_, hqueued, hnone⟩ := h.new hz
  · exact hr k z hz
  · unfold Control.InRole
    rw [hqueued]
    exact hnone

theorem Effect.roles (h : Effect scene a r t) (hr : r.InRole) : t.InRole := by
  obtain ⟨c, x, y, hx, hturn⟩ | hidle := h.calls
  · exact hturn.roles hx hr
  · exact hidle.roles hr

/-- The score that a tick found stays on record. -/
theorem Turn.outset {o : Outset} (h : Turn scene c r x t y) (hx : x.InRole) (ho : x.outset = some o) :
    y.outset = some o := by
  cases h.deed with
  | tick _ hbefore =>
    unfold Control.InRole at hx
    rw [hbefore] at hx
    cases hx.symm.trans ho
  | _ => simp_all

theorem Weighed.look {climb : Climb} (h : Weighed scene c r b climb b' y.stand) (htick : y.command = .tick)
    (hscore : y.outset.map Outset.score = some climb.score)
    (hb : (b.level, b.weighings) = (r.level, r.census.weighings)) :
    ∃ w, Look c r y b' w := by
  obtain ⟨hlevel, hweighings⟩ := Prod.mk.inj hb
  cases h with
  | stay hrise _ hcensus =>
    refine ⟨⟨c, r.level, climb.score, r.tracker.errors, none⟩, htick, rfl, rfl, rfl, hscore,
      by simp [hrise], fun _ _ => rfl, ?_, ?_⟩
    · rw [hcensus, Census.weighed, hweighings]
    · rw [hcensus, Census.weighed, hlevel]
  | again hrise _ hstand hcensus =>
    refine ⟨⟨c, r.level, climb.score, r.tracker.errors, some r.marketPrice⟩, htick, rfl, rfl, rfl, hscore,
      by simp [hrise], ?_, ?_, ?_⟩
    · intro tasks hended
      cases hstand.symm.trans hended
    · rw [hcensus, Census.weighed, hweighings]
    · rw [hcensus, Census.weighed, hlevel]
  | raise _ hrise _ hstand hcensus =>
    refine ⟨⟨c, r.level, climb.score, r.tracker.errors, some r.marketPrice⟩, htick, rfl, rfl, rfl, hscore,
      by simp [hrise], ?_, ?_, ?_⟩
    · intro tasks hended
      cases hstand.symm.trans hended
    · rw [hcensus, Census.weighed, hweighings]
    · rw [hcensus, Census.weighed, hlevel]

/-- A stretch looks at the level once or not at all; a tick does not end well without a look. -/
theorem Turn.look (h : Turn scene c r x t y) (hx : x.InRole) :
    (t.census.level, t.census.weighings) = (r.census.level, r.census.weighings) ∧
      (y.command = .tick → ∀ tasks, y.stand ≠ .ended (.ok tasks)) ∨
    ∃ w, Look c r y t.census w := by
  have hcommand := h.command
  unfold Control.InRole at hx
  cases h.deed with
  | fail e hstand _ hcensus => exact .inl ⟨by rw [hcensus], fun _ _ => by simp [hstand]⟩
  | drop hstand _ hcensus => exact .inl ⟨by rw [hcensus], fun _ _ => by simp [hstand]⟩
  | boot guest _ _ _ hstand _ hcensus => exact .inl ⟨by rw [hcensus], fun _ _ => by simp [hstand]⟩
  | found guest hbefore _ _ hcensus =>
    rw [hbefore] at hx
    exact .inl ⟨by rw [hcensus], fun htick => by simp [hcommand, hx] at htick⟩
  | fund slot ticket tasks id _ hstand _ _ hcensus =>
    exact .inl ⟨by rw [hcensus]; rfl, fun _ _ => by simp [hstand]⟩
  | register slot i deposit tasks started accepted hbefore _ _ _ hcensus =>
    rw [hbefore] at hx
    exact .inl ⟨by rw [hcensus]; rfl, fun htick => by simp [hcommand, hx] at htick⟩
  | tick tasks _ htick _ _ houtset hweighed =>
    exact .inr (hweighed.look (hcommand.trans htick) (by rw [houtset]; rfl) rfl)
  | recruit climb slot ticket next id _ _ hstand _ _ hcensus =>
    exact .inl ⟨by rw [hcensus]; rfl, fun _ _ => by simp [hstand]⟩
  | complete climb slot ticket id hbefore _ houtset _ hweighed =>
    rw [hbefore] at hx
    exact .inr (hweighed.look (hcommand.trans hx.1) (by rw [houtset]; exact hx.2) rfl)
  | weigh climb hbefore houtset hweighed =>
    rw [hbefore] at hx
    exact .inr (hweighed.look (hcommand.trans hx.1) (by rw [houtset]; exact hx.2) rfl)

/-- What is known of the looks at the level, and of the calls that looked. -/
structure Ascent (floor : Int) (r : Run) : Prop where
  bound : r.tracker.floor = floor
  rises : r.census.rises.map Weighing.level = List.range r.census.level
  level_le : ∀ w ∈ r.census.weighings, w.level ≤ r.census.level
  rose_iff : ∀ w ∈ r.census.weighings,
    w.rose.isSome = true ↔ requiredScore w.level ≤ w.score ∧ w.errors ≤ floor
  author : ∀ w ∈ r.census.weighings, ∃ x o, r.controls[w.control]? = some x ∧ x.command = .tick ∧
    x.outset = some o ∧ o.score = w.score
  inRole : r.InRole
  last : ∀ (c : Nat) x tasks, r.controls[c]? = some x → x.command = .tick → x.stand = .ended (.ok tasks) →
    ∃ w ∈ r.census.weighings, w.control = c ∧ w.rose = none

theorem fresh_ascent (floor ceiling : Int) (capacity drawn : Nat) :
    (fresh floor ceiling capacity drawn).Ascent floor where
  bound := rfl
  rises := rfl
  level_le := by simp [census, fresh]
  rose_iff := by simp [census, fresh]
  author := by simp [census, fresh]
  inRole := by simp [InRole, fresh]
  last := by simp [fresh]

/-- What a tick found at its outset stays on record, whichever call goes on. -/
theorem Turn.keeps_outset {k : Nat} {z : Control} {o : Outset} (h : Turn scene c r x t y)
    (hx : r.controls[c]? = some x) (hrole : x.InRole) (hz : r.controls[k]? = some z) (ho : z.outset = some o) :
    ∃ z', t.controls[k]? = some z' ∧ z'.command = z.command ∧ z'.outset = some o := by
  by_cases hk : k = c
  · subst hk
    obtain rfl := Option.some.inj (hx.symm.trans hz)
    exact ⟨y, h.control, h.command, h.outset hrole ho⟩
  · exact ⟨z, (h.others k hk).trans hz, rfl, ho⟩

theorem Look.rose_iff (h : Look c r y b w) :
    w.rose.isSome = true ↔ requiredScore w.level ≤ w.score ∧ w.errors ≤ r.tracker.floor := by
  rw [h.rose, h.level, h.errors, ← mayRise_iff]
  cases r.mayRise w.score <;> simp

theorem Look.rises (h : Look c r y b w) : b.rises = r.census.rises ++ if w.rose.isSome then [w] else [] := by
  rw [Census.rises, h.weighings, List.filter_append, List.filter_singleton]
  cases w.rose <;> rfl

namespace Ascent

theorem turn (hx : r.controls[c]? = some x) (h : Turn scene c r x t y) (hr : r.Ascent floor) :
    t.Ascent floor := by
  have hrole := hr.inRole c x hx
  have hroles := h.roles hx hr.inRole
  have hauthor : ∀ w ∈ r.census.weighings, ∃ z o, t.controls[w.control]? = some z ∧ z.command = .tick ∧
      z.outset = some o ∧ o.score = w.score := by
    intro w hw
    obtain ⟨z, o, hz, htick, ho, hscore⟩ := hr.author w hw
    obtain ⟨z', hz', hcommand, ho'⟩ := h.keeps_outset hx hrole hz ho
    exact ⟨z', o, hz', hcommand.trans htick, ho', hscore⟩
  have hfloor : t.tracker.floor = floor := by rw [h.tracker, hr.bound]
  obtain ⟨hsame, hnone⟩ | ⟨w, hlook⟩ := h.look hrole
  · obtain ⟨hlevel, hweighings⟩ := Prod.mk.inj hsame
    refine ⟨hfloor, ?_, ?_, ?_, ?_, hroles, ?_⟩
    · rw [Census.rises, hweighings, hlevel]
      exact hr.rises
    · rw [hweighings, hlevel]
      exact hr.level_le
    · rw [hweighings]
      exact hr.rose_iff
    · rw [hweighings]
      exact hauthor
    · rw [hweighings]
      intro k z tasks hz htick hended
      obtain ⟨rfl, rfl⟩ | ⟨_, hz⟩ := h.calls hz
      · exact absurd hended (hnone htick tasks)
      · exact hr.last k z tasks hz htick hended
  · refine ⟨hfloor, ?_, ?_, ?_, ?_, hroles, ?_⟩
    · rw [hlook.rises, List.map_append, hr.rises, hlook.levelAfter]
      have hlevel := hlook.level
      cases w.rose with
      | none => simp [census]
      | some price => simp [census, hlevel, List.range_succ]
    · rw [hlook.weighings, List.forall_mem_append, List.forall_mem_singleton, hlook.levelAfter, hlook.level]
      exact ⟨fun v hv => Nat.le_add_right_of_le (hr.level_le v hv), Nat.le_add_right _ _⟩
    · rw [hlook.weighings, List.forall_mem_append, List.forall_mem_singleton, hlook.rose_iff, hr.bound]
      exact ⟨hr.rose_iff, Iff.rfl⟩
    · rw [hlook.weighings, List.forall_mem_append, List.forall_mem_singleton, hlook.control]
      obtain ⟨o, ho, hscore⟩ := Option.map_eq_some_iff.mp hlook.score
      exact ⟨hauthor, y, o, h.control, hlook.tick, ho, hscore⟩
    · rw [hlook.weighings]
      intro k z tasks hz htick hended
      obtain ⟨rfl, rfl⟩ | ⟨_, hz⟩ := h.calls hz
      · exact ⟨w, by simp, hlook.control, hlook.last tasks hended⟩
      · obtain ⟨v, hv, hlast⟩ := hr.last k z tasks hz htick hended
        exact ⟨v, List.mem_append_left _ hv, hlast⟩

theorem idle (hfloor : t.tracker.floor = r.tracker.floor) (h : Idle r t) (hr : r.Ascent floor) :
    t.Ascent floor := by
  have hweighings := h.weighings
  refine ⟨hfloor.trans hr.bound, ?_, ?_, ?_, ?_, ?_, ?_⟩
  · rw [Census.rises, hweighings, h.level]
    exact hr.rises
  · rw [hweighings, h.level]
    exact hr.level_le
  · rw [hweighings]
    exact hr.rose_iff
  · rw [hweighings]
    intro w hw
    obtain ⟨z, o, hz, hrest⟩ := hr.author w hw
    exact ⟨z, o, h.kept hz, hrest⟩
  · exact h.roles hr.inRole
  · rw [hweighings]
    intro k z tasks hz htick hended
    obtain hz | ⟨_, hqueued, hnone⟩ := h.new hz
    · exact hr.last k z tasks hz htick hended
    · cases hqueued.symm.trans hended

theorem advance (h : Advance scene a r t) (hr : r.Ascent floor) : t.Ascent floor := by
  obtain ⟨c, x, y, hx, hturn⟩ | hidle := h.effect.calls
  · exact hr.turn hx hturn
  · exact hr.idle h.floor hidle

/-- The last rise of a level above zero. -/
theorem exists_rise (h : r.Ascent floor) {level : Nat} (hlevel : level < r.level) :
    ∃ w ∈ r.census.weighings, w.level = level ∧ requiredScore level ≤ w.score ∧ w.errors ≤ floor := by
  have hmem : level ∈ r.census.rises.map Weighing.level := by
    rw [h.rises]
    exact List.mem_range.mpr hlevel
  obtain ⟨w, hw, rfl⟩ := List.mem_map.mp hmem
  obtain ⟨hw, hrose⟩ := List.mem_filter.mp hw
  obtain ⟨hscore, herrors⟩ := (h.rose_iff w hw).mp hrose
  exact ⟨w, hw, rfl, hscore, herrors⟩

end Ascent

theorem Becomes.ascent {ceiling : Int} {capacity drawn : Nat}
    (h : Becomes scene (fun _ => True) (fresh floor ceiling capacity drawn) r) : r.Ascent floor :=
  h.keeps (·.Ascent floor) (fun _ => trivial) (fun _ _ _ _ hs hadvance => hs.advance hadvance)
    (fresh_prompt floor ceiling capacity drawn) (fresh_ascent floor ceiling capacity drawn)

theorem Advance.level_le (h : Advance scene a r t) (hr : r.Ascent floor) : r.level ≤ t.level := by
  obtain ⟨c, x, y, hx, hturn⟩ | hidle := h.effect.calls
  · obtain ⟨hsame, _⟩ | ⟨w, hlook⟩ := hturn.look (hr.inRole c x hx)
    · exact Nat.le_of_eq (Prod.mk.inj hsame).1.symm
    · have hlevel : t.level = _ := hlook.levelAfter
      rw [hlevel]
      exact Nat.le_add_right _ _
  · exact Nat.le_of_eq hidle.level.symm

/-- The level never falls. -/
theorem Becomes.level_le (h : Becomes scene kind s t) (hwait : ∀ ms, kind (.wait ms)) (hprompt : s.Prompt)
    (hs : s.Ascent floor) : s.level ≤ t.level := by
  have hkept : t.Ascent floor ∧ s.level ≤ t.level :=
    h.keeps (fun u => u.Ascent floor ∧ s.level ≤ u.level) hwait
      (fun _ _ _ _ hu hadvance =>
        ⟨hu.1.advance hadvance, Nat.le_trans hu.2 (hadvance.level_le hu.1)⟩) hprompt ⟨hs, Nat.le_refl _⟩
  exact hkept.2

/-- The score that the call with a number found, if it is a tick that has had the controller. -/
def scoreOf (r : Run) (c : Nat) : Int := ((r.controls[c]?).bind Control.outset).elim 0 Outset.score

/-- The ticks that found no more errors than the floor, if each found a certain number of them. -/
def admitted (r : Run) (floor : Int) (errors : Nat → Int) : Finset Nat :=
  (Finset.range r.controls.size).filter fun c =>
    (r.controls[c]?).map Control.command = some .tick ∧ errors c ≤ floor

theorem scoreOf_eq {o : Outset} (hx : r.controls[c]? = some x) (ho : x.outset = some o) :
    r.scoreOf c = o.score := by
  simp [scoreOf, hx, ho]

theorem mem_admitted {errors : Nat → Int} : c ∈ r.admitted floor errors ↔
    ∃ x, r.controls[c]? = some x ∧ x.command = .tick ∧ errors c ≤ floor := by
  simp only [admitted, Finset.mem_filter, Finset.mem_range, Option.map_eq_some_iff]
  constructor
  · rintro ⟨_, ⟨x, hx, htick⟩, herrors⟩
    exact ⟨x, hx, htick, herrors⟩
  · rintro ⟨x, hx, htick, herrors⟩
    obtain ⟨hc, _⟩ := Array.getElem?_eq_some_iff.mp hx
    exact ⟨hc, ⟨x, hx, htick⟩, herrors⟩

/-- A level reached needs an admitted tick with a score that is enough for it. -/
theorem Ascent.exists_admitted {errors : Nat → Int} (hr : r.Ascent floor)
    (hscores : ∀ c ∈ r.admitted floor errors, r.scoreOf c < Word.largest)
    (herrors : ∀ w ∈ r.weighings, w.errors = errors w.control) {level : Nat} (hlevel : level < r.level) :
    ∃ c ∈ r.admitted floor errors, level < levelFor (r.scoreOf c) := by
  obtain ⟨w, hw, rfl, hscore, hfew⟩ := hr.exists_rise hlevel
  obtain ⟨x, o, hx, htick, ho, hsame⟩ := hr.author w hw
  rw [herrors w (by simpa [census] using hw)] at hfew
  have hmem : w.control ∈ r.admitted floor errors := mem_admitted.mpr ⟨x, hx, htick, hfew⟩
  refine ⟨w.control, hmem, lt_levelFor_iff.mpr ((requiredScore_le_iff (hscores _ hmem)).mp ?_)⟩
  rwa [scoreOf_eq hx ho, hsame]

/-- An admitted tick that ended well left no level for which its score was enough. -/
theorem Ascent.levelFor_le {errors : Nat → Int} (hr : r.Ascent floor)
    (herrors : ∀ w ∈ r.weighings, w.errors = errors w.control) (hmem : c ∈ r.admitted floor errors)
    (hended : ∀ x, r.controls[c]? = some x → ∃ tasks, x.stand = .ended (.ok tasks))
    (hscore : r.scoreOf c < Word.largest) : levelFor (r.scoreOf c) ≤ r.level := by
  obtain ⟨x, hx, htick, hfew⟩ := mem_admitted.mp hmem
  obtain ⟨tasks, htasks⟩ := hended x hx
  -- The last look of the tick found the level too high, and the level has not fallen since.
  obtain ⟨w, hw, rfl, hlast⟩ := hr.last c x tasks hx htick htasks
  obtain ⟨z, o, hz, _, ho, hsame⟩ := hr.author w hw
  obtain rfl := Option.some.inj (hx.symm.trans hz)
  rw [← herrors w (by simpa [census] using hw)] at hfew
  have hnot : ¬requiredScore w.level ≤ w.score := fun hle => by
    have hrose := (hr.rose_iff w hw).mpr ⟨hle, hfew⟩
    simp [hlast] at hrose
  rw [← hsame, ← scoreOf_eq hx ho, requiredScore_le_iff hscore] at hnot
  exact Nat.le_trans (levelFor_le_iff.mpr (Int.not_le.mp hnot)) (hr.level_le w hw)

/-- Where all ticks ended well, whatever else was called or executed in between: the level is the
    greatest that the score of one of them is enough for, counting only the ticks that found no more
    errors than the floor, and zero if there is none. So only the best score among these ticks matters,
    and the level never falls. The scores may go up and down, but stay below the largest counter value;
    each tick finds the same number of errors at all its looks. -/
theorem level_eq_sup_levelFor {ceiling : Int} {capacity drawn : Nat} {errors : Nat → Int}
    (h : Becomes scene (fun _ => True) (fresh floor ceiling capacity drawn) r)
    (hended : ∀ (c : Nat) x, r.controls[c]? = some x → x.command = .tick →
      ∃ tasks, x.stand = .ended (.ok tasks))
    (hscores : ∀ (c : Nat) x, r.controls[c]? = some x → x.command = .tick → r.scoreOf c < Word.largest)
    (herrors : ∀ w ∈ r.weighings, w.errors = errors w.control) :
    r.level = (r.admitted floor errors).sup (fun c => levelFor (r.scoreOf c)) ∧
    (∀ c ∈ r.admitted floor errors, (∀ k ∈ r.admitted floor errors, r.scoreOf k ≤ r.scoreOf c) →
      r.level = levelFor (r.scoreOf c)) ∧
    ∀ s, Becomes scene (fun _ => True) (fresh floor ceiling capacity drawn) s →
      Becomes scene (fun _ => True) s r → s.level ≤ r.level := by
  have hr := h.ascent
  have hbelow : ∀ c ∈ r.admitted floor errors, r.scoreOf c < Word.largest := by
    intro c hc
    obtain ⟨x, hx, htick, _⟩ := mem_admitted.mp hc
    exact hscores c x hx htick
  have hreached : ∀ c ∈ r.admitted floor errors, levelFor (r.scoreOf c) ≤ r.level := by
    intro c hc
    refine hr.levelFor_le herrors hc ?_ (hbelow c hc)
    intro x hx
    obtain ⟨z, hz, htick, _⟩ := mem_admitted.mp hc
    obtain rfl := Option.some.inj (hx.symm.trans hz)
    exact hended c x hx htick
  have hsup : r.level = (r.admitted floor errors).sup (fun c => levelFor (r.scoreOf c)) := by
    refine Nat.le_antisymm ?_ (Finset.sup_le hreached)
    -- Above the supremum, the tick that raised the level last would be a better one.
    by_contra hnot
    obtain ⟨c, hc, hlt⟩ := hr.exists_admitted hbelow herrors (Nat.not_le.mp hnot)
    exact absurd (Finset.le_sup (f := fun c => levelFor (r.scoreOf c)) hc) (Nat.not_le.mpr hlt)
  refine ⟨hsup, ?_, ?_⟩
  · intro c hc hbest
    refine Nat.le_antisymm ?_ (hreached c hc)
    rw [hsup]
    exact Finset.sup_le fun k hk => levelFor_le_levelFor (hbest k hk)
  · intro s hs hsr
    exact hsr.level_le (fun _ => trivial) (hs.prompt (fresh_prompt floor ceiling capacity drawn)) hs.ascent

/-- The second tick finds a higher score, but also an error more than the floor, so that the level stays
    where the first one left it. -/
theorem level_of_unadmitted_tick :
    let scene := Scene.plain 1 0
    let steps : List Step := [.produce, .decide true, .score 150, .enter .tick, .proceed 0 none,
      .provide 0 none, .error, .score 500, .enter .tick, .proceed 1 none]
    let errors : Nat → Int := fun c => if c = 0 then 0 else 1
    ∃ r, (fresh 0 10 1 0).play scene steps = some r ∧ r.level = 1 ∧ r.scoreOf 0 = 150 ∧ r.scoreOf 1 = 650 ∧
      r.level = (r.admitted 0 errors).sup (fun c => levelFor (r.scoreOf c)) := by
  intro scene steps errors
  have hplayed : ((fresh 0 10 1 0).play scene steps).map (fun r =>
      (r.level, r.controls.size, r.scoreOf 0, r.scoreOf 1,
        r.weighings.all (fun w => w.errors = errors w.control),
        r.controls.all (·.stand.handedOut?.isSome))) =
      some (1, 2, 150, 650, true, true) := by decide +kernel
  obtain ⟨r, hr, hvalues⟩ := Option.map_eq_some_iff.mp hplayed
  simp only [Prod.mk.injEq, Array.all_eq_true_iff_forall_mem, decide_eq_true_eq] at hvalues
  obtain ⟨hlevel, hsize, hscore₀, hscore₁, herrors, hstands⟩ := hvalues
  have hbecomes := becomes_of_play (fun _ _ => trivial) hr
  have hended : ∀ (c : Nat) x, r.controls[c]? = some x → x.command = .tick →
      ∃ tasks, x.stand = .ended (.ok tasks) := by
    intro c x hx _
    obtain ⟨tasks, htasks⟩ := Option.isSome_iff_exists.mp (hstands x (Array.mem_of_getElem? hx))
    exact ⟨tasks, Stand.handedOut?_eq_some.mp htasks⟩
  have hscores : ∀ (c : Nat) x, r.controls[c]? = some x → x.command = .tick →
      r.scoreOf c < Word.largest := by
    intro c x hx _
    obtain ⟨hc, _⟩ := Array.getElem?_eq_some_iff.mp hx
    obtain rfl | rfl : c = 0 ∨ c = 1 := by omega
    · rw [hscore₀]
      decide
    · rw [hscore₁]
      decide
  obtain ⟨hsup, _⟩ := level_eq_sup_levelFor hbecomes hended hscores herrors
  exact ⟨r, hr, hlevel, hscore₀, hscore₁, hsup⟩

end Run

end ExchangeLoad
