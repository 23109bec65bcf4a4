import ExchangeLoad.Proofs.Run.Ascent

/-!
Which call did what. Of the calls that are under way only the first in line has the controller, so that
nobody raises the level while a batch is being built. The census then tells, for each call by where it
stands, which investors were built for it: as many slots of a founding batch as it has come to, or one
batch for every level that it raised, of which the last may be incomplete.
-/

namespace ExchangeLoad

/-- Whether a call has the controller. -/
def Stand.active : Stand → Bool
  | .queued => false
  | .ended _ => false
  | .dropped => false
  | _ => true

/-- The call for which an investor was built. -/
def Origin.control : Origin → Nat
  | founding control _ => control
  | rising control _ _ _ => control

@[simp] theorem Origin.control_founding {c slot : Nat} : (Origin.founding c slot).control = c := rfl

@[simp] theorem Origin.control_rising {c level slot : Nat} {price : Int} :
    (Origin.rising c level price slot).control = c := rfl

/-- What an investor was built from. -/
def Origin.params : Origin → Params
  | founding _ slot => Batch.founding slot
  | rising _ level price slot => Batch.rising level price slot

/-- The first slots of the batch that a rise of the level brings. -/
def Weighing.batch (w : Weighing) (slots : Nat) : List Origin :=
  match w.rose with
  | none => []
  | some price => (List.range slots).map (.rising w.control (w.level + 1) price ·)

namespace Census

variable {b : Census} {c k : Nat}

/-- The looks at which the call with a number raised the level. -/
def raisedBy (b : Census) (c : Nat) : List Weighing := b.rises.filter (·.control = c)

/-- The investors that were built for the call with a number: why, and under which number. -/
def builtBy (b : Census) (c : Nat) : List (Origin × Nat) := b.origins.zipIdx.filter (·.1.control = c)

theorem raisedBy_weighed {w : Weighing} : (b.weighed w).raisedBy c =
    b.raisedBy c ++ if w.rose.isSome ∧ w.control = c then [w] else [] := by
  by_cases hrose : w.rose.isSome = true <;> by_cases hc : w.control = c <;>
    simp [raisedBy, rises, weighed, hrose, hc]

theorem builtBy_weighed {w : Weighing} : (b.weighed w).builtBy c = b.builtBy c := rfl

theorem builtBy_built {origin : Origin} {card : Identity × Params} : (b.built origin card).builtBy c =
    b.builtBy c ++ if origin.control = c then [(origin, b.origins.length)] else [] := by
  by_cases hc : origin.control = c <;> simp [builtBy, built, List.zipIdx_append, hc]

theorem raisedBy_of_history {b' : Census} (h : b'.history = b.history) : b'.raisedBy c = b.raisedBy c := by
  simp only [history, Prod.mk.injEq] at h
  simp only [raisedBy, rises, h.2.1]

theorem builtBy_of_history {b' : Census} (h : b'.history = b.history) : b'.builtBy c = b.builtBy c := by
  simp only [history, Prod.mk.injEq] at h
  simp only [builtBy, h.2.2.1]

theorem getElem?_origins {p : Origin × Nat} (h : p ∈ b.builtBy c) :
    b.origins[p.2]? = some p.1 ∧ p.1.control = c := by
  obtain ⟨hmem, hc⟩ := List.mem_filter.mp h
  exact ⟨List.mem_zipIdx_iff_getElem?.mp hmem, by simpa using hc⟩

end Census

/-- The task that enrols an investor that was built, as the number and the credit that it names. -/
def enrolling (p : Origin × Nat) : Nat × Int := (p.2, p.1.params.credit)

/-- A start has built so many slots of its founding batch, and hands out no enrolments. -/
structure Founding (b : Census) (c slots : Nat) (tasks : List Task) : Prop where
  raised : b.raisedBy c = []
  built : (b.builtBy c).map Prod.fst = (List.range slots).map (.founding c)
  tasks : enrolments tasks = []

/-- A tick has built a batch for every level that it raised, and hands out the enrolments of them all. -/
structure Complete (workers : Nat) (b : Census) (c : Nat) (tasks : List Task) : Prop where
  built : (b.builtBy c).map Prod.fst = (b.raisedBy c).flatMap (·.batch workers)
  tasks : enrolments tasks = (b.builtBy c).map enrolling

/-- A tick has come to a slot of the batch of the level that it raised last, which is still the level,
    and has built all batches before it. -/
structure Filling (workers : Nat) (b : Census) (c : Nat) (climb : Climb) (slot : Nat) (earlier : List Weighing)
    (w : Weighing) : Prop where
  raised : b.raisedBy c = earlier ++ [w]
  level : w.level + 1 = b.level
  price : w.rose = some climb.price
  built : (b.builtBy c).map Prod.fst = earlier.flatMap (·.batch workers) ++ w.batch slot
  tasks : enrolments climb.tasks = (b.builtBy c).map enrolling

/-- What the census tells of a call. -/
def Census.Tells (workers : Nat) (b : Census) (c : Nat) (x : Control) : Prop :=
  match x.stand with
  | .queued => Founding b c 0 []
  | .booting _ => Founding b c 0 []
  | .founding slot _ tasks => slot < workers ∧ Founding b c slot tasks
  | .funding slot _ _ tasks => slot < workers ∧ Founding b c (slot + 1) tasks
  | .raising climb slot _ => slot < workers ∧ ∃ earlier w, Filling workers b c climb slot earlier w
  | .weighing climb => Complete workers b c climb.tasks
  | .ended (.ok tasks) =>
    x.command = .start ∧ Founding b c workers tasks ∨ x.command = .tick ∧ Complete workers b c tasks
  | .ended (.error _) => True
  | .dropped => True

section Records

variable {b b' : Census} {c slot slots workers : Nat} {tasks : List Task} {climb : Climb} {w : Weighing}
  {earlier : List Weighing} {x : Control}

@[simp] theorem Weighing.batch_zero : w.batch 0 = [] := by
  unfold batch
  split <;> rfl

theorem Weighing.batch_succ {price : Int} (h : w.rose = some price) :
    w.batch (slots + 1) = w.batch slots ++ [.rising w.control (w.level + 1) price slots] := by
  simp [batch, h, List.range_succ]

theorem Founding.congr (h : Founding b c slots tasks) (hraised : b'.raisedBy c = b.raisedBy c)
    (hbuilt : b'.builtBy c = b.builtBy c) : Founding b' c slots tasks :=
  ⟨hraised.trans h.raised, (congrArg _ hbuilt).trans h.built, h.tasks⟩

theorem Complete.congr (h : Complete workers b c tasks) (hraised : b'.raisedBy c = b.raisedBy c)
    (hbuilt : b'.builtBy c = b.builtBy c) : Complete workers b' c tasks := by
  obtain ⟨hb, ht⟩ := h
  exact ⟨by rw [hbuilt, hraised, hb], by rw [hbuilt, ht]⟩

theorem Filling.congr (h : Filling workers b c climb slot earlier w)
    (hraised : b'.raisedBy c = b.raisedBy c) (hbuilt : b'.builtBy c = b.builtBy c)
    (hlevel : b'.level = b.level) : Filling workers b' c climb slot earlier w := by
  obtain ⟨hr, hl, hp, hb, ht⟩ := h
  exact ⟨hraised.trans hr, hl.trans hlevel.symm, hp, by rw [hbuilt, hb], by rw [hbuilt, ht]⟩

/-- What the census tells of a call depends on what was written for that call, and on the level if the
    call has the controller. -/
theorem Census.Tells.congr (h : b.Tells workers c x) (hraised : b'.raisedBy c = b.raisedBy c)
    (hbuilt : b'.builtBy c = b.builtBy c) (hlevel : x.stand.active = true → b'.level = b.level) :
    b'.Tells workers c x := by
  unfold Census.Tells at h ⊢
  cases hstand : x.stand with
  | queued => simp only [hstand] at h ⊢; exact h.congr hraised hbuilt
  | booting guest => simp only [hstand] at h ⊢; exact h.congr hraised hbuilt
  | founding slot ticket tasks => simp only [hstand] at h ⊢; exact ⟨h.1, h.2.congr hraised hbuilt⟩
  | funding slot i deposit tasks => simp only [hstand] at h ⊢; exact ⟨h.1, h.2.congr hraised hbuilt⟩
  | raising climb slot ticket =>
    simp only [hstand] at h ⊢
    obtain ⟨hslot, earlier, w, hfilling⟩ := h
    exact ⟨hslot, earlier, w, hfilling.congr hraised hbuilt (hlevel (by rw [hstand]; rfl))⟩
  | weighing climb => simp only [hstand] at h ⊢; exact h.congr hraised hbuilt
  | ended result =>
    cases result with
    | error e => trivial
    | ok tasks =>
      simp only [hstand] at h ⊢
      exact h.imp (fun h => ⟨h.1, h.2.congr hraised hbuilt⟩) fun h => ⟨h.1, h.2.congr hraised hbuilt⟩
  | dropped => trivial

/-- The next slot of a founding batch. -/
theorem Founding.next (h : Founding b c slot tasks) (card : Identity × Params) :
    Founding (b.built (.founding c slot) card) c (slot + 1) tasks := by
  refine ⟨h.raised, ?_, h.tasks⟩
  rw [Census.builtBy_built, Origin.control_founding, if_pos rfl, List.map_append, h.built,
    List.range_succ, List.map_append]
  rfl

/-- A batch with all its slots. -/
theorem Filling.complete (h : Filling workers b c climb workers earlier w) :
    Complete workers b c climb.tasks := by
  refine ⟨?_, h.tasks⟩
  rw [h.built, h.raised, List.flatMap_append, List.flatMap_singleton]

end Records

namespace Run

variable {scene : Scene} {kind : Step → Prop} {c k : Nat} {r s t : Run} {a : Step} {x y z : Control}
  {b b' : Census} {taken : List Identity} {floor : Int}

/-- Only the first call in line has the controller. -/
def Lock (r : Run) : Prop :=
  ∀ (c : Nat) x, r.controls[c]? = some x → x.stand.active = true → r.line.head? = some c

/-- A call that does something was the first in line. -/
theorem Turn.head (h : Turn scene c r x t y) (hx : r.controls[c]? = some x) (hr : r.Lock) :
    y.stand.over = true ∧ t.census = r.census ∨ r.line.head? = some c := by
  cases h.deed with
  | fail e hstand _ hcensus => exact .inl ⟨by rw [hstand]; rfl, hcensus⟩
  | drop hstand _ hcensus => exact .inl ⟨by rw [hstand]; rfl, hcensus⟩
  | boot _ _ _ hline => exact .inr hline
  | tick _ _ _ hline => exact .inr hline
  | found _ hbefore => exact .inr (hr c x hx (by rw [hbefore]; rfl))
  | fund _ _ _ _ hbefore => exact .inr (hr c x hx (by rw [hbefore]; rfl))
  | register _ _ _ _ _ _ hbefore => exact .inr (hr c x hx (by rw [hbefore]; rfl))
  | recruit _ _ _ _ _ hbefore => exact .inr (hr c x hx (by rw [hbefore]; rfl))
  | complete _ _ _ _ hbefore => exact .inr (hr c x hx (by rw [hbefore]; rfl))
  | weigh _ hbefore => exact .inr (hr c x hx (by rw [hbefore]; rfl))

/-- While a call has the controller, another one can only end, and writes nothing. -/
theorem Turn.census_of_active (h : Turn scene c r x t y) (hx : r.controls[c]? = some x) (hr : r.Lock)
    (hk : k ≠ c) (hz : r.controls[k]? = some z) (hactive : z.stand.active = true) : t.census = r.census := by
  obtain ⟨_, hcensus⟩ | hhead := h.head hx hr
  · exact hcensus
  · exact absurd (Option.some.inj ((hr k z hz hactive).symm.trans hhead)) hk

theorem Turn.lock (h : Turn scene c r x t y) (hx : r.controls[c]? = some x) (hr : r.Lock) : t.Lock := by
  intro k z hz hactive
  obtain ⟨rfl, rfl⟩ | ⟨hk, hz⟩ := h.calls hz
  · have hover : z.stand.over = false := by cases hz : z.stand <;> simp_all [Stand.over, Stand.active]
    obtain ⟨hdone, _⟩ | hhead := h.head hx hr
    · rw [hover] at hdone
      cases hdone
    · rwa [h.line, hover, if_neg Bool.false_ne_true]
  · have hhead := hr k z hz hactive
    rw [h.line]
    -- Another call that ends leaves the line somewhere behind its head.
    split
    · obtain ⟨rest, hline⟩ := List.head?_eq_some_iff.mp hhead
      rw [hline, List.erase_cons_tail (by simpa using hk), List.head?_cons]
    · exact hhead

theorem Idle.lock (h : Idle r t) (hr : r.Lock) : t.Lock := by
  intro k z hz hactive
  obtain hz | ⟨_, hqueued, _⟩ := h.new hz
  · have hhead := hr k z hz hactive
    obtain heq | ⟨command, driven, heq⟩ := h.calls
    · rwa [(Prod.mk.inj heq).2]
    · rw [(Prod.mk.inj heq).2, List.head?_append, hhead]
      rfl
  · rw [hqueued] at hactive
    cases hactive

/-- The next slot of a batch that a level brings. -/
theorem recruited_filling {workers slot : Nat} {climb : Climb} {earlier : List Weighing} {w : Weighing}
    (h : Filling workers r.census c climb slot earlier w)
    (hsize : r.investors.size = r.census.origins.length) (id : Identity) :
    Filling workers (r.recruitedCensus c slot climb id) c (r.recruited climb slot) (slot + 1) earlier w := by
  have hmem : w ∈ r.census.raisedBy c := by simp [h.raised]
  have hcontrol : w.control = c := by simpa using (List.mem_filter.mp hmem).2
  have hlevel : r.level = w.level + 1 := h.level.symm
  have hbuilt : (r.recruitedCensus c slot climb id).builtBy c =
      r.census.builtBy c ++ [(.rising c r.level climb.price slot, r.investors.size)] := by
    rw [recruitedCensus, Census.builtBy_built, Origin.control_rising, if_pos rfl, hsize]
  refine ⟨h.raised, h.level, h.price, ?_, ?_⟩
  · rw [hbuilt, List.map_append, h.built, Weighing.batch_succ h.price, hcontrol, ← hlevel,
      List.append_assoc]
    rfl
  · rw [hbuilt, List.map_append, ← h.tasks]
    simp [recruited, enrolling, Origin.params]

theorem ToSlot.tells {slot : Nat} {tasks : List Task} (h : ToSlot scene slot tasks y.stand)
    (hfounding : Founding b c slot tasks) (hle : slot ≤ scene.settings.workers)
    (hcommand : y.command = .start) : b.Tells scene.settings.workers c y := by
  unfold Census.Tells
  cases h with
  | more ticket hmore hstand =>
    rw [hstand]
    exact ⟨hmore, hfounding⟩
  | done hdone hstand =>
    obtain rfl : slot = scene.settings.workers := Nat.le_antisymm hle hdone
    rw [hstand]
    exact .inl ⟨hcommand, hfounding⟩

theorem Weighed.tells {climb : Climb} (h : Weighed scene c r b climb b' y.stand)
    (hcomplete : Complete scene.settings.workers b c climb.tasks) (hlevel : b.level = r.level)
    (hcommand : y.command = .tick) : b'.Tells scene.settings.workers c y := by
  unfold Census.Tells
  cases h with
  | stay _ hstand hcensus =>
    rw [hstand, hcensus]
    refine .inr ⟨hcommand, hcomplete.congr ?_ Census.builtBy_weighed⟩
    simp [Census.raisedBy_weighed]
  | again _ hworkers hstand hcensus =>
    rw [hstand, hcensus]
    obtain ⟨hbuilt, htasks⟩ := hcomplete
    refine ⟨?_, htasks⟩
    rw [Census.builtBy_weighed, hbuilt, Census.raisedBy_weighed, hworkers]
    simp
  | raise ticket _ hworkers hstand hcensus =>
    rw [hstand, hcensus]
    obtain ⟨hbuilt, htasks⟩ := hcomplete
    refine ⟨hworkers, b.raisedBy c, ⟨c, r.level, climb.score, r.tracker.errors, some r.marketPrice⟩, ?_, ?_,
      rfl, ?_, htasks⟩
    · rw [Census.raisedBy_weighed, if_pos ⟨rfl, rfl⟩]
    · simp [Census.weighed, hlevel]
    · rw [Census.builtBy_weighed, hbuilt, Weighing.batch_zero, List.append_nil]

/-- A stretch of a call keeps what the census tells of it. -/
theorem Turn.tells (h : Turn scene c r x t y) (hrole : x.InRole)
    (hsize : r.investors.size = r.census.origins.length)
    (hx : r.census.Tells scene.settings.workers c x) : t.census.Tells scene.settings.workers c y := by
  have hcommand := h.command
  unfold Census.Tells at hx
  unfold Control.InRole at hrole
  cases h.deed with
  | fail e hstand => unfold Census.Tells; rw [hstand]; trivial
  | drop hstand => unfold Census.Tells; rw [hstand]; trivial
  | boot guest hbefore _ _ hstand _ hcensus =>
    rw [hbefore] at hx
    unfold Census.Tells
    rw [hstand, hcensus]
    exact hx
  | found guest hbefore hslot _ hcensus =>
    rw [hbefore] at hx hrole
    rw [hcensus]
    exact hslot.tells hx (Nat.zero_le _) (hcommand.trans hrole)
  | fund slot ticket tasks id hbefore hstand _ _ hcensus =>
    rw [hbefore] at hx
    unfold Census.Tells
    rw [hstand, hcensus]
    exact ⟨hx.1, (hx.2.next (id, Batch.founding slot)).congr rfl rfl⟩
  | register slot i deposit tasks started accepted hbefore hjobs hslot _ hcensus =>
    rw [hbefore] at hx hrole
    obtain ⟨hlt, hraised, hbuilt, htasks⟩ := hx
    rw [hcensus]
    refine hslot.tells ⟨hraised, hbuilt, ?_⟩ hlt (hcommand.trans hrole)
    rw [enrolments_append, htasks, hjobs, List.append_nil]
  | tick tasks hbefore htick _ hjobs _ hweighed =>
    rw [hbefore] at hx
    have hnone : r.census.builtBy c = [] := List.map_eq_nil_iff.mp hx.built
    refine hweighed.tells ⟨?_, ?_⟩ rfl (hcommand.trans htick)
    · rw [hnone, hx.raised]
      rfl
    · rw [hnone, hjobs]
      rfl
  | recruit climb slot ticket next id hbefore hmore hstand _ _ hcensus =>
    rw [hbefore] at hx
    obtain ⟨_, earlier, w, hfilling⟩ := hx
    unfold Census.Tells
    rw [hstand, hcensus]
    exact ⟨hmore, earlier, w, recruited_filling hfilling hsize id⟩
  | complete climb slot ticket id hbefore hlast _ _ hweighed =>
    rw [hbefore] at hx hrole
    obtain ⟨hlt, earlier, w, hfilling⟩ := hx
    have hnext := recruited_filling hfilling hsize id
    -- That was the last slot: the batch is complete before the tick looks at the level again.
    have hslots : slot + 1 = scene.settings.workers := Nat.le_antisymm hlt hlast
    rw [hslots] at hnext
    exact hweighed.tells hnext.complete rfl (hcommand.trans hrole.1)
  | weigh climb hbefore _ hweighed =>
    rw [hbefore] at hx hrole
    exact hweighed.tells hx rfl (hcommand.trans hrole.1)

theorem Weighed.others {climb : Climb} {stand : Stand} (h : Weighed scene c r b climb b' stand) (hk : k ≠ c) :
    b'.raisedBy k = b.raisedBy k ∧ b'.builtBy k = b.builtBy k := by
  cases h with
  | stay _ _ hcensus => rw [hcensus]; simp [Census.raisedBy_weighed, Census.builtBy_weighed]
  | again _ _ _ hcensus =>
    rw [hcensus]
    simp [Census.raisedBy_weighed, Census.builtBy_weighed, Ne.symm hk]
  | raise _ _ _ _ hcensus =>
    rw [hcensus]
    simp [Census.raisedBy_weighed, Census.builtBy_weighed, Ne.symm hk]

/-- A stretch of a call writes nothing for another one. -/
theorem Turn.records_other (h : Turn scene c r x t y) (hk : k ≠ c) :
    t.census.raisedBy k = r.census.raisedBy k ∧ t.census.builtBy k = r.census.builtBy k := by
  have hfounding (slot : Nat) (card : Identity × Params) :
      (r.census.built (.founding c slot) card).builtBy k = r.census.builtBy k := by
    simp [Census.builtBy_built, Ne.symm hk]
  have hrising (slot : Nat) (climb : Climb) (id : Identity) :
      (r.recruitedCensus c slot climb id).builtBy k = r.census.builtBy k := by
    simp [recruitedCensus, Census.builtBy_built, Ne.symm hk]
  cases h.deed with
  | fail _ _ _ hcensus => rw [hcensus]; exact ⟨rfl, rfl⟩
  | drop _ _ hcensus => rw [hcensus]; exact ⟨rfl, rfl⟩
  | boot _ _ _ _ _ _ hcensus => rw [hcensus]; exact ⟨rfl, rfl⟩
  | found _ _ _ _ hcensus => rw [hcensus]; exact ⟨rfl, rfl⟩
  | fund slot _ _ id _ _ _ _ hcensus => rw [hcensus]; exact ⟨rfl, hfounding slot (id, Batch.founding slot)⟩
  | register _ _ _ _ _ _ _ _ _ _ hcensus => rw [hcensus]; exact ⟨rfl, rfl⟩
  | tick _ _ _ _ _ _ hweighed => exact hweighed.others hk
  | recruit climb slot _ _ id _ _ _ _ _ hcensus => rw [hcensus]; exact ⟨rfl, hrising slot climb id⟩
  | complete climb slot _ id _ _ _ _ hweighed =>
    obtain ⟨hraised, hbuilt⟩ := hweighed.others hk
    exact ⟨hraised, hbuilt.trans (hrising slot climb id)⟩
  | weigh _ _ _ hweighed => exact hweighed.others hk

/-- A look at the level builds nobody. -/
theorem Weighed.built {climb : Climb} {stand : Stand} (h : Weighed scene c r b climb b' stand) :
    (b'.origins, b'.cards) = (b.origins, b.cards) := by
  cases h with
  | stay _ _ hcensus => rw [hcensus]; rfl
  | again _ _ _ hcensus => rw [hcensus]; rfl
  | raise _ _ _ _ hcensus => rw [hcensus]; rfl

/-- A stretch of a call builds one investor for the call, with an identity just taken, or none. -/
theorem Turn.built (h : Turn scene c r x t y) :
    (t.census.origins, t.census.cards) = (r.census.origins, r.census.cards) ∨
    ∃ o id, o.control = c ∧ r.pipeline.taken ++ [id] <+: t.pipeline.taken ∧
      (t.census.origins, t.census.cards) = (r.census.origins ++ [o], r.census.cards ++ [(id, o.params)]) := by
  cases h.deed with
  | fail _ _ _ hcensus => exact .inl (by rw [hcensus])
  | drop _ _ hcensus => exact .inl (by rw [hcensus])
  | boot _ _ _ _ _ _ hcensus => exact .inl (by rw [hcensus])
  | found _ _ _ _ hcensus => exact .inl (by rw [hcensus])
  | fund slot _ _ id _ _ _ htaken hcensus =>
    exact .inr ⟨.founding c slot, id, rfl, htaken, by rw [hcensus]; rfl⟩
  | register _ _ _ _ _ _ _ _ _ _ hcensus => exact .inl (by rw [hcensus]; rfl)
  | tick _ _ _ _ _ _ hweighed => exact .inl hweighed.built
  | recruit climb slot _ _ id _ _ _ _ htaken hcensus =>
    exact .inr ⟨.rising c r.level climb.price slot, id, rfl, htaken, by rw [hcensus]; rfl⟩
  | complete climb slot _ id _ _ _ htaken hweighed =>
    exact .inr ⟨.rising c r.level climb.price slot, id, rfl, htaken, hweighed.built⟩
  | weigh _ _ _ hweighed => exact .inl hweighed.built

/-- What is known of the calls, and of what was built for them. -/
structure Attributed (scene : Scene) (r : Run) : Prop where
  lock : r.Lock
  tells : ∀ (c : Nat) x, r.controls[c]? = some x → r.census.Tells scene.settings.workers c x
  authors : ∀ o ∈ r.census.origins, o.control < r.controls.size
  params : r.census.cards.map Prod.snd = r.census.origins.map Origin.params

theorem fresh_attributed (scene : Scene) (floor ceiling : Int) (capacity drawn : Nat) :
    (fresh floor ceiling capacity drawn).Attributed scene where
  lock := by simp [Lock, fresh]
  tells := by simp [fresh]
  authors := by simp [census, fresh]
  params := rfl

namespace Attributed

/-- A call that ended well has built its founding batch, or a batch for each level that it raised. -/
theorem of_ended {tasks : List Task} (hr : r.Attributed scene) (hx : r.controls[c]? = some x)
    (hended : x.stand = .ended (.ok tasks)) :
    x.command = .start ∧ Founding r.census c scene.settings.workers tasks ∨
      x.command = .tick ∧ Complete scene.settings.workers r.census c tasks := by
  have htells := hr.tells c x hx
  unfold Census.Tells at htells
  rwa [hended] at htells

theorem size_investors (hr : r.Attributed scene) : r.investors.size = r.census.origins.length := by
  have hlengths := congrArg List.length hr.params
  rwa [List.length_map, List.length_map, length_cards] at hlengths

theorem turn (hx : r.controls[c]? = some x) (h : Turn scene c r x t y) (hascent : r.Ascent floor)
    (hr : r.Attributed scene) : t.Attributed scene := by
  have hsize : t.controls.size = r.controls.size := h.size_controls hx
  refine ⟨h.lock hx hr.lock, ?_, ?_, ?_⟩
  · intro k z hz
    obtain ⟨rfl, rfl⟩ | ⟨hk, hz⟩ := h.calls hz
    · exact h.tells (hascent.inRole k x hx) hr.size_investors (hr.tells k x hx)
    · obtain ⟨hraised, hbuilt⟩ := h.records_other hk
      refine (hr.tells k z hz).congr hraised hbuilt fun hactive => ?_
      rw [h.census_of_active hx hr.lock hk hz hactive]
  · rw [hsize]
    obtain heq | ⟨o, id, hcontrol, _, heq⟩ := h.built
    · rw [(Prod.mk.inj heq).1]
      exact hr.authors
    · rw [(Prod.mk.inj heq).1, List.forall_mem_append, List.forall_mem_singleton, hcontrol]
      obtain ⟨hc, _⟩ := Array.getElem?_eq_some_iff.mp hx
      exact ⟨hr.authors, hc⟩
  · obtain heq | ⟨o, id, _, _, heq⟩ := h.built
    · rw [(Prod.mk.inj heq).1, (Prod.mk.inj heq).2, hr.params]
    · rw [(Prod.mk.inj heq).1, (Prod.mk.inj heq).2, List.map_append, List.map_append, hr.params]
      rfl

theorem idle (h : Idle r t) (hascent : r.Ascent floor) (hr : r.Attributed scene) : t.Attributed scene := by
  refine ⟨h.lock hr.lock, ?_, ?_, ?_⟩
  · intro k z hz
    have hraised := Census.raisedBy_of_history (c := k) h.history
    have hbuilt := Census.builtBy_of_history (c := k) h.history
    obtain hz | ⟨rfl, hqueued, _⟩ := h.new hz
    · exact (hr.tells k z hz).congr hraised hbuilt fun _ => h.level
    · -- Nothing has been written for a call that was not made before.
      unfold Census.Tells
      rw [hqueued]
      refine ⟨?_, ?_, rfl⟩
      · rw [hraised]
        refine List.filter_eq_nil_iff.mpr fun w hw => ?_
        obtain ⟨x, _, hx, _⟩ := hascent.author w (List.mem_filter.mp hw).1
        obtain ⟨hc, _⟩ := Array.getElem?_eq_some_iff.mp hx
        simpa using Nat.ne_of_lt hc
      · rw [hbuilt]
        refine List.map_eq_nil_iff.mpr (List.filter_eq_nil_iff.mpr fun p hp => ?_)
        have hmem : p.1 ∈ r.census.origins := List.mem_of_getElem? (List.mem_zipIdx_iff_getElem?.mp hp)
        simpa using Nat.ne_of_lt (hr.authors p.1 hmem)
  · rw [h.origins]
    intro o ho
    exact Nat.lt_of_lt_of_le (hr.authors o ho) h.size_controls
  · rw [h.cards, h.origins]
    exact hr.params

theorem advance (h : Advance scene a r t) (hascent : r.Ascent floor) (hr : r.Attributed scene) :
    t.Attributed scene := by
  obtain ⟨c, x, y, hx, hturn⟩ | hidle := h.effect.calls
  · exact hr.turn hx hturn hascent
  · exact hr.idle hidle hascent

end Attributed

theorem Becomes.attributed {ceiling : Int} {capacity drawn : Nat}
    (h : Becomes scene (fun _ => True) (fresh floor ceiling capacity drawn) r) : r.Attributed scene := by
  have hkept : r.Ascent floor ∧ r.Attributed scene :=
    h.keeps (fun s => s.Ascent floor ∧ s.Attributed scene) (fun _ => trivial)
      (fun _ _ _ _ hs hadvance => ⟨hs.1.advance hadvance, hs.2.advance hadvance hs.1⟩)
      (fresh_prompt floor ceiling capacity drawn)
      ⟨fresh_ascent floor ceiling capacity drawn, fresh_attributed scene floor ceiling capacity drawn⟩
  exact hkept.2

end Run

end ExchangeLoad
