import ExchangeLoad.Proofs.Batch
import ExchangeLoad.Proofs.Run.Funding
import ExchangeLoad.Proofs.Run.Pricing
import Mathlib.Algebra.BigOperators.Ring.Finset

/-!
Who is in the registry in the end. Where all calls ended well, all that they handed out was executed, and
nobody threw anything away, the registry holds a whole batch for each start and for each level, half of
it buyers and half of it sellers, the sellers of an uneven batch being one more.
-/

namespace ExchangeLoad

section Lists

variable {α : Type} {l : List α}

/-- The members of a list, counted by a key below a bound. -/
theorem length_eq_sum_filter {key : α → Nat} {n : Nat} (h : ∀ x ∈ l, key x < n) :
    l.length = ∑ c ∈ Finset.range n, (l.filter (key · = c)).length := by
  induction l with
  | nil => simp
  | cons x rest ih =>
    obtain ⟨hx, hrest⟩ := List.forall_mem_cons.mp h
    have hcons (c : Nat) : ((x :: rest).filter (key · = c)).length =
        (rest.filter (key · = c)).length + if c = key x then 1 else 0 := by
      by_cases hc : key x = c
      · simp [hc]
      · simp [hc, Ne.symm hc]
    rw [Finset.sum_congr rfl fun c _ => hcons c, Finset.sum_add_distrib, ← ih hrest, Finset.sum_ite_eq',
      if_pos (Finset.mem_range.mpr hx), List.length_cons]

/-- The members with a property, counted by their places. -/
theorem countP_eq_sum {p : α → Bool} :
    l.countP p = ∑ i ∈ Finset.range l.length, if (l[i]?).any p then 1 else 0 := by
  induction l with
  | nil => simp
  | cons x rest ih =>
    rw [List.length_cons, Finset.sum_range_succ', List.countP_cons, ih]
    simp

/-- Members that bring nothing may be left out. -/
theorem flatMap_filter_eq {β : Type} {p : α → Bool} {f : α → List β}
    (h : ∀ x ∈ l, p x = false → f x = []) : (l.filter p).flatMap f = l.flatMap f := by
  induction l with
  | nil => rfl
  | cons x rest ih =>
    obtain ⟨hx, hrest⟩ := List.forall_mem_cons.mp h
    cases hp : p x with
    | true => simp [hp, ih hrest]
    | false => simp [hp, ih hrest, hx hp]

/-- Looking up every place of a list goes through the list. -/
theorem filterMap_range_getElem? {β : Type} {f : α → Option β} :
    (List.range l.length).filterMap (fun i => (l[i]?).bind f) = l.filterMap f := by
  have hplaces : (List.range l.length).map (l[·]?) = l.map some := by
    refine List.ext_getElem (by simp) fun i hi hi' => ?_
    simp only [List.getElem_map, List.getElem_range]
    exact List.getElem?_eq_getElem _
  calc (List.range l.length).filterMap (fun i => (l[i]?).bind f)
      = ((List.range l.length).map (l[·]?)).filterMap (·.bind f) := by
        rw [List.filterMap_map]
        rfl
    _ = l.filterMap f := by
        rw [hplaces, List.filterMap_map]
        rfl

/-- The members with a narrower property, found among those with a wider one. -/
theorem filter_eq_filter_filter {p q : α → Bool} (h : ∀ x ∈ l, p x = true → q x = true) :
    l.filter p = (l.filter q).filter p := by
  rw [List.filter_filter]
  refine List.filter_congr fun x hx => ?_
  cases hp : p x with
  | false => rfl
  | true => rw [h x hx hp, Bool.and_self]

end Lists

namespace Origin

/-- Whether an investor was built for the founding batch of the call with a number. -/
def ofStart (c : Nat) : Origin → Bool
  | founding control _ => control = c
  | rising .. => false

/-- Whether an investor was built for the batch that a level brought. -/
def ofLevel (l : Nat) : Origin → Bool
  | founding .. => false
  | rising _ level _ _ => level = l

theorem control_of_ofStart {o : Origin} {c : Nat} (h : o.ofStart c = true) : o.control = c := by
  cases o with
  | founding => exact of_decide_eq_true h
  | rising => cases h

end Origin

section Records

variable {b : Census} {c slots workers : Nat} {tasks : List Task} {w : Weighing} {o : Origin}

theorem Census.builtBy_fst : (b.builtBy c).map Prod.fst = b.origins.filter (·.control = c) := by
  have hfirst : b.origins.zipIdx.map Prod.fst = b.origins := List.zipIdx_map_fst ..
  conv_rhs => rw [← hfirst, List.filter_map]
  rfl

theorem Weighing.mem_batch (h : o ∈ w.batch slots) :
    ∃ price slot, w.rose = some price ∧ o = .rising w.control (w.level + 1) price slot := by
  unfold batch at h
  split at h
  · cases h
  · next price hprice =>
    obtain ⟨slot, _, rfl⟩ := List.mem_map.mp h
    exact ⟨price, slot, hprice, rfl⟩

/-- The founding batch of a start, among all investors. -/
theorem Founding.origins (h : Founding b c slots tasks) :
    b.origins.filter (Origin.ofStart c) = (List.range slots).map (.founding c) := by
  have hwide : b.origins.filter (·.control = c) = (List.range slots).map (.founding c) := by
    rw [← Census.builtBy_fst, h.built]
  have hmine : ∀ o ∈ b.origins, o.ofStart c = true → decide (o.control = c) = true :=
    fun o _ ho => decide_eq_true (Origin.control_of_ofStart ho)
  rw [filter_eq_filter_filter hmine, hwide, List.filter_eq_self]
  intro o ho
  obtain ⟨slot, _, rfl⟩ := List.mem_map.mp ho
  exact decide_eq_true rfl

/-- The batch of one level among all those of a tick. -/
theorem filter_ofLevel_batches {rises : List Weighing} (hnodup : (rises.map Weighing.level).Nodup)
    (hw : w ∈ rises) :
    (rises.flatMap (·.batch slots)).filter (Origin.ofLevel (w.level + 1)) = w.batch slots := by
  have hbatch (v : Weighing) : (v.batch slots).filter (Origin.ofLevel (w.level + 1)) =
      if v.level = w.level then v.batch slots else [] := by
    split
    · next hlevel =>
      refine List.filter_eq_self.mpr fun o ho => ?_
      obtain ⟨price, slot, _, rfl⟩ := Weighing.mem_batch ho
      exact decide_eq_true (by rw [hlevel])
    · next hlevel =>
      refine List.filter_eq_nil_iff.mpr fun o ho hsame => hlevel ?_
      obtain ⟨price, slot, _, rfl⟩ := Weighing.mem_batch ho
      exact Nat.succ.inj (of_decide_eq_true hsame)
  calc (rises.flatMap (·.batch slots)).filter (Origin.ofLevel (w.level + 1))
      = rises.flatMap fun v => if v.level = w.level then v.batch slots else [] := by
        rw [List.filter_flatMap]
        exact congrArg (rises.flatMap ·) (funext hbatch)
    _ = (rises.filter (·.level = w.level)).flatMap
          fun v => if v.level = w.level then v.batch slots else [] :=
        (flatMap_filter_eq fun v _ hv => if_neg (of_decide_eq_false hv)).symm
    _ = w.batch slots := by
        rw [Run.filter_key_eq hnodup hw, List.flatMap_singleton, if_pos rfl]

end Records

namespace Run

/-- Nobody throws a task away, or takes investors out of the registry. -/
def Step.KeepsWork (a : Step) : Prop := (∀ place, a ≠ .discard place) ∧ ∀ id, a ≠ .remove id

/-- How many starts were made. -/
def startCount (r : Run) : Nat := r.controls.toList.countP (·.command = .start)

/-- What those in the registry were built from, of the investors that were built for a reason. -/
def batch (r : Run) (reason : Origin → Bool) : List Params :=
  r.registry.entries.filterMap fun i =>
    if (r.origins[i]?).any reason then (r.investors[i]?).map Investor.params else none

variable {scene : Scene} {kind : Step → Prop} {c : Nat} {r s t : Run} {a : Step} {x y : Control}
  {floor : Int} {w : Weighing}

section Ended

variable (hr : r.Attributed scene) (hascent : r.Ascent floor)
  (hended : ∀ x ∈ r.controls, ∃ tasks, x.stand = .ended (.ok tasks))

include hr hended

theorem Attributed.ended (hx : r.controls[c]? = some x) :
    ∃ tasks, x.command = .start ∧ Founding r.census c scene.settings.workers tasks ∨
      x.command = .tick ∧ Complete scene.settings.workers r.census c tasks := by
  obtain ⟨tasks, htasks⟩ := hended x (Array.mem_of_getElem? hx)
  exact ⟨tasks, hr.of_ended hx htasks⟩

/-- How many investors were built for a call. -/
theorem Attributed.length_built (hx : r.controls[c]? = some x) :
    (r.census.origins.filter (·.control = c)).length = scene.settings.workers *
      ((if x.command = .start then 1 else 0) + (r.census.rises.filter (·.control = c)).length) := by
  obtain ⟨tasks, ⟨hstart, hfounding⟩ | ⟨htick, hcomplete⟩⟩ := hr.ended hended hx
  · have hnone : r.census.rises.filter (·.control = c) = [] := hfounding.raised
    rw [← Census.builtBy_fst, hfounding.built, hnone, hstart]
    simp
  · have hlength := hcomplete.length_enrolments
    rw [hcomplete.tasks, List.length_map, Census.raisedBy] at hlength
    rw [← Census.builtBy_fst, List.length_map, hlength, htick]
    simp

/-- Whoever was built was built for a slot of a founding batch, or of the batch of a rise. -/
theorem Attributed.origin_cases {o : Origin} (ho : o ∈ r.census.origins) :
    (∃ c slot x, o = .founding c slot ∧ r.controls[c]? = some x ∧ x.command = .start) ∨
      ∃ v ∈ r.census.rises, ∃ price slot, o = .rising v.control (v.level + 1) price slot := by
  obtain ⟨z, hz⟩ : ∃ z, r.controls[o.control]? = some z :=
    ⟨_, Array.getElem?_eq_getElem (hr.authors o ho)⟩
  have hmem : o ∈ r.census.origins.filter (·.control = o.control) := by simp [ho]
  obtain ⟨tasks, ⟨hstart, hfounding⟩ | ⟨_, hcomplete⟩⟩ := hr.ended hended hz
  · rw [← Census.builtBy_fst, hfounding.built] at hmem
    obtain ⟨slot, _, hfirst⟩ := List.mem_map.mp hmem
    exact .inl ⟨o.control, slot, z, hfirst.symm, hz, hstart⟩
  · rw [← Census.builtBy_fst, hcomplete.built] at hmem
    obtain ⟨v, hv, hbatch⟩ := List.mem_flatMap.mp hmem
    obtain ⟨price, slot, _, hrisen⟩ := Weighing.mem_batch hbatch
    exact .inr ⟨v, (List.mem_filter.mp hv).1, price, slot, hrisen⟩

include hascent

/-- As many investors as there are workers were built for each start and for each level. -/
theorem Attributed.length_origins : r.census.origins.length =
    scene.settings.workers * (r.startCount + r.level) := by
  have hcontrols : r.controls.toList.length = r.controls.size := Array.length_toList
  have hrisers : ∀ w ∈ r.census.rises, w.control < r.controls.size := by
    intro w hw
    obtain ⟨x, _, hx, _⟩ := hascent.author w (List.mem_filter.mp hw).1
    exact (Array.getElem?_eq_some_iff.mp hx).1
  have hlevel : r.level = r.census.rises.length := by
    rw [← List.length_map (f := Weighing.level), hascent.rises, List.length_range]
    rfl
  have hbuilt : ∀ c ∈ Finset.range r.controls.size,
      (r.census.origins.filter (·.control = c)).length = scene.settings.workers *
        ((if (r.controls.toList[c]?).any (·.command = .start) then 1 else 0) +
          (r.census.rises.filter (·.control = c)).length) := by
    intro c hc
    have hx : r.controls[c]? = some _ := Array.getElem?_eq_getElem (Finset.mem_range.mp hc)
    rw [hr.length_built hended hx, Array.getElem?_toList, hx]
    simp
  -- Each investor and each rise belongs to one call.
  rw [length_eq_sum_filter hr.authors, Finset.sum_congr rfl hbuilt, ← Finset.mul_sum,
    Finset.sum_add_distrib, ← length_eq_sum_filter hrisers, ← hcontrols, ← countP_eq_sum, ← hlevel]
  rfl

/-- Those who were built for a level are the batch of the tick that raised the level. -/
theorem Attributed.origins_of_level (hw : w ∈ r.census.rises) :
    r.census.origins.filter (Origin.ofLevel (w.level + 1)) = w.batch scene.settings.workers := by
  obtain ⟨x, _, hx, htick, _⟩ := hascent.author w (List.mem_filter.mp hw).1
  obtain ⟨tasks, ⟨hstart, _⟩ | ⟨_, hcomplete⟩⟩ := hr.ended hended hx
  · cases hstart.symm.trans htick
  -- Another call that brought somebody of the level would have raised the same level.
  have hmine : ∀ o ∈ r.census.origins, o.ofLevel (w.level + 1) = true →
      decide (o.control = w.control) = true := by
    intro o ho hlevel
    obtain ⟨c, slot, x, rfl, _⟩ | ⟨v, hv, price, slot, rfl⟩ := hr.origin_cases hended ho
    · cases hlevel
    · have hsame : v.level = w.level := Nat.succ.inj (of_decide_eq_true hlevel)
      rw [hascent.rise_unique hv hw hsame]
      exact decide_eq_true rfl
  have hlevels : ((r.census.raisedBy w.control).map Weighing.level).Nodup :=
    hascent.nodup_levels.sublist (List.Sublist.map _ List.filter_sublist)
  have hraised : w ∈ r.census.raisedBy w.control := List.mem_filter.mpr ⟨hw, by simp⟩
  rw [filter_eq_filter_filter hmine, ← Census.builtBy_fst, hcomplete.built,
    filter_ofLevel_batches hlevels hraised]

/-- Whoever was built was built for a start or for a level. -/
theorem Attributed.reason {o : Origin} (ho : o ∈ r.census.origins) :
    (∃ c x, r.controls[c]? = some x ∧ x.command = .start ∧ o.ofStart c = true) ∨
      ∃ level, 0 < level ∧ level ≤ r.level ∧ o.ofLevel level = true := by
  obtain ⟨c, slot, x, rfl, hx, hstart⟩ | ⟨v, hv, price, slot, rfl⟩ := hr.origin_cases hended ho
  · exact .inl ⟨c, x, hx, hstart, decide_eq_true rfl⟩
  · have hlevel : v.level ∈ List.range r.census.level := by
      rw [← hascent.rises]
      exact List.mem_map_of_mem hv
    exact .inr ⟨v.level + 1, Nat.succ_pos _, List.mem_range.mp hlevel, decide_eq_true rfl⟩

end Ended

theorem lost_of_not_over {stand : Stand} (h : stand.over = false) : stand.lost = false := by
  cases stand <;> simp_all [Stand.over, Stand.lost]

/-- A call that is lost stays so. -/
theorem Effect.none_lost (h : Effect scene a r t) (hsound : ∀ x ∈ t.controls, x.stand.lost = false) :
    ∀ x ∈ r.controls, x.stand.lost = false := by
  intro x hx
  obtain ⟨k, hk⟩ := Array.getElem?_of_mem hx
  obtain ⟨c, z, y, hz, hturn⟩ | hidle := h.calls
  · by_cases hkc : k = c
    · subst hkc
      obtain rfl := Option.some.inj (hk.symm.trans hz)
      exact lost_of_not_over hturn.before
    · exact hsound x (Array.mem_of_getElem? ((hturn.others k hkc).trans hk))
  · exact hsound x (Array.mem_of_getElem? (hidle.kept hk))

/-- Where no call failed or was given up, and nobody interfered, every investor that was built is in one
    place on its way into the registry. -/
theorem Becomes.whole {ceiling : Int} {capacity drawn : Nat}
    (h : Becomes scene Step.KeepsWork (fresh floor ceiling capacity drawn) r)
    (hsound : ∀ x ∈ r.controls, x.stand.lost = false) :
    r.whereabouts = Multiset.range r.investors.size := by
  refine h.keeps (fun s => (∀ x ∈ s.controls, x.stand.lost = false) →
    s.whereabouts = Multiset.range s.investors.size) (fun _ => ⟨by simp, by simp⟩) ?_
    (fresh_prompt floor ceiling capacity drawn) (fun _ => rfl) hsound
  intro a s t ha hs hadvance hsound
  have hlossless : ¬t.Lossy a := by
    rintro (⟨place, rfl⟩ | ⟨id, rfl⟩ | ⟨x, hx, hlost⟩)
    · exact ha.1 place rfl
    · exact ha.2 id rfl
    · cases (hsound x hx).symm.trans hlost
  exact hadvance.effect.flow.whole hlossless (hs (hadvance.effect.none_lost hsound))

/-- When all calls ended well and all work was executed, everybody who was built is in the registry. -/
theorem entries_perm (hwhole : r.whereabouts = Multiset.range r.investors.size)
    (hended : ∀ x ∈ r.controls, ∃ tasks, x.stand = .ended (.ok tasks)) (hheld : r.held = [])
    (hfinished : ∀ e ∈ r.executions, e.finished = true) :
    r.registry.entries.Perm (List.range r.investors.size) := by
  have hexecuted : ∀ e ∈ r.executions, e.awaiting = [] ∧ e.depositing = [] := by
    intro e he
    have hdone := hfinished e he
    unfold Execution.finished at hdone
    unfold Execution.awaiting Execution.depositing
    cases hphase : e.phase <;> simp_all
  have hcalled : ∀ x ∈ r.controls, x.stand.awaiting = [] ∧ x.stand.depositing = [] := by
    intro x hx
    obtain ⟨tasks, htasks⟩ := hended x hx
    rw [htasks]
    exact ⟨rfl, rfl⟩
  have hawaiting : r.awaiting = 0 := by
    rw [awaiting, hheld, List.flatMap_eq_nil_iff.mpr fun x hx => (hcalled x (Array.mem_toList_iff.mp hx)).1,
      List.flatMap_eq_nil_iff.mpr fun e he => (hexecuted e (Array.mem_toList_iff.mp he)).1]
    rfl
  have hdepositing : r.depositing = 0 := by
    rw [depositing, List.flatMap_eq_nil_iff.mpr fun x hx => (hcalled x (Array.mem_toList_iff.mp hx)).2,
      List.flatMap_eq_nil_iff.mpr fun e he => (hexecuted e (Array.mem_toList_iff.mp he)).2]
    rfl
  rw [whereabouts, hawaiting, hdepositing, Multiset.map_zero, Multiset.map_zero, zero_add, zero_add] at hwhole
  exact Multiset.coe_eq_coe.mp hwhole

/-- The members of a batch who are in the registry, when everybody is. -/
theorem Attributed.batch_perm (hr : r.Attributed scene)
    (hentries : r.registry.entries.Perm (List.range r.investors.size)) (reason : Origin → Bool) :
    (r.batch reason).Perm ((r.census.origins.filter reason).map Origin.params) := by
  have hparams (i : Nat) : (r.investors[i]?).map Investor.params = (r.census.origins[i]?).map Origin.params := by
    have hlist : r.investors.toList.map Investor.params = r.census.origins.map Origin.params := by
      rw [← hr.params]
      simp [census, Investor.card]
    simpa using congrArg (·[i]?) hlist
  have hlookup (i : Nat) :
      (if (r.origins[i]?).any reason then (r.investors[i]?).map Investor.params else none) =
        (r.census.origins[i]?).bind fun o => if reason o then some o.params else none := by
    rw [hparams, show r.census.origins[i]? = r.origins[i]? by simp [census]]
    cases r.origins[i]? with
    | none => rfl
    | some o => rfl
  have hbatch := hentries.filterMap fun i =>
    if (r.origins[i]?).any reason then (r.investors[i]?).map Investor.params else none
  simp only [hlookup, hr.size_investors, filterMap_range_getElem?] at hbatch
  unfold batch
  simp only [hlookup]
  refine hbatch.trans (List.Perm.of_eq ?_)
  rw [← List.filterMap_eq_map, List.filterMap_filter]
  rfl

/-- Nobody shares an identity with somebody else in the registry. -/
theorem Custody.nodup_identities (hr : r.Custody) (hnodup : r.pipeline.taken.Nodup) :
    (r.registry.entries.map r.identity).Nodup := by
  refine List.Nodup.map_on ?_ hr.nodup_entries
  intro i hi j hj hsame
  obtain ⟨card, _, _, hcard, _⟩ := hr.entered i hi
  obtain ⟨other, _, _, hother, _⟩ := hr.entered j hj
  rw [identity_eq hcard, identity_eq hother] at hsame
  exact eq_of_card (hnodup.sublist hr.taken) hcard hother hsame

/-- Starts and ticks in any number and any order, however they and the tasks take turns. Where all calls
    ended well and everything that they handed out was executed to its end, there are as many investors in
    the registry as there are workers for each start and for each level, no two with one identity, and
    each belongs to a start or to a level. The batch of a start, and that of a level, has one half of
    sellers and one of buyers. Those of a level go by the level, and by one price, which was the price of
    the day when the level was reached; what is computed from it is exact as long as it stays in the range
    of counters. -/
theorem registry_follows_level {ceiling : Int} {capacity drawn : Nat}
    (hsource : Function.Injective scene.identity)
    (h : Becomes scene Step.KeepsWork (fresh floor ceiling capacity drawn) r)
    (hended : ∀ x ∈ r.controls, ∃ tasks, x.stand = .ended (.ok tasks)) (hheld : r.held = [])
    (hfinished : ∀ e ∈ r.executions, e.finished = true) :
    r.registry.count = scene.settings.workers * (r.startCount + r.level) ∧
    (r.registry.entries.map r.identity).Nodup ∧
    (∀ i ∈ r.registry.entries, ∃ o, r.origins[i]? = some o ∧
      ((∃ c x, r.controls[c]? = some x ∧ x.command = .start ∧ o.ofStart c = true) ∨
        ∃ level, 0 < level ∧ level ≤ r.level ∧ o.ofLevel level = true)) ∧
    (∀ (c : Nat) x, r.controls[c]? = some x → x.command = .start →
      Batch.Balanced scene.settings.workers (r.batch (Origin.ofStart c))) ∧
    ∀ level, 0 < level → level ≤ r.level →
      Batch.Balanced scene.settings.workers (r.batch (Origin.ofLevel level)) ∧
      ∃ price, (∀ other, RoseAt scene Step.KeepsWork (fresh floor ceiling capacity drawn) r level other ↔
        other = price) ∧ ∀ params ∈ r.batch (Origin.ofLevel level),
          (∃ slot, params = Batch.rising level price slot) ∧
          (Word.Fits (price + 5) → (params.kind = .creditHeavy → Word.Fits (1000 * price)) →
            Batch.Risen level price params) := by
  have hwide := h.wide
  have hascent := hwide.ascent
  have hr := hwide.attributed
  have hsound : ∀ x ∈ r.controls, x.stand.lost = false := by
    intro x hx
    obtain ⟨tasks, htasks⟩ := hended x hx
    rw [htasks]
    rfl
  have hentries := entries_perm (h.whole hsound) hended hheld hfinished
  refine ⟨?_, ?_, ?_, ?_, ?_⟩
  · rw [Registry.count, hentries.length_eq, List.length_range, hr.size_investors,
      hr.length_origins hascent hended]
  · exact (hwide.custody hsource fun _ => trivial).nodup_identities (hwide.taken_distinct hsource).1
  · intro i hi
    have hbound : i < r.census.origins.length := by
      rw [← hr.size_investors]
      exact List.mem_range.mp (hentries.mem_iff.mp hi)
    refine ⟨r.census.origins[i], ?_, hr.reason hascent hended (List.getElem_mem hbound)⟩
    simp [census]
  · intro c x hx hstart
    obtain ⟨tasks, ⟨_, hfounding⟩ | ⟨htick, _⟩⟩ := hr.ended hended hx
    · have hperm := hr.batch_perm hentries (Origin.ofStart c)
      rw [hfounding.origins, List.map_map] at hperm
      exact Batch.founding_alternates.balanced.perm hperm
    · cases hstart.symm.trans htick
  · intro level hpos hle
    have hmem : level - 1 ∈ r.census.rises.map Weighing.level := by
      rw [hascent.rises]
      exact List.mem_range.mpr (show level - 1 < r.level by omega)
    obtain ⟨w, hw, hlevel⟩ := List.mem_map.mp hmem
    obtain rfl : level = w.level + 1 := by omega
    obtain ⟨hlooked, hrose⟩ := List.mem_filter.mp hw
    obtain ⟨price, hprice⟩ := Option.isSome_iff_exists.mp hrose
    have hperm := hr.batch_perm hentries (Origin.ofLevel (w.level + 1))
    rw [hr.origins_of_level hascent hended hw, Weighing.batch, hprice, List.map_map] at hperm
    refine ⟨(Batch.rising_alternates (w.level + 1) price).balanced.perm hperm, price, fun other => ?_,
      fun params hparams => ?_⟩
    · constructor
      · exact fun hrose => hrose.price_eq hascent hw hprice
      · rintro rfl
        exact h.roseAt w hlooked other hprice
    · obtain ⟨slot, _, rfl⟩ := List.mem_map.mp (hperm.mem_iff.mp hparams)
      exact ⟨⟨slot, rfl⟩, Batch.rising_risen⟩

/-- The founding investor sees a trade at 7 before the level rises, so that the investor of the next batch
    sells near 12; the last job fails, which changes nothing. -/
theorem registry_follows_level_of_seen_trade :
    let scene := Scene.plain 1 0
    let steps : List Step := [.produce, .enter .start, .proceed 0 none, .booted 0 .done, .decide true,
      .provide 0 none, .funded 0 true, .execute 0, .look 0, .hear 0 .done, .hear 0 .done, .enter .tick,
      .proceed 1 none, .execute 0, .look 1, .hear 1 (.market ⟨0, none, none, [7]⟩), .hear 1 (.placed 3),
      .score 100, .enter .tick, .proceed 2 none, .decide true, .provide 2 none, .execute 1, .look 2,
      .enrol 2 true, .execute 0, .look 3, .hear 3 (.failed (.plain "refused"))]
    ∃ r, (fresh 5 10 1 0).play scene steps = some r ∧ r.startCount = 1 ∧ r.level = 1 ∧
      r.registry.count = 1 * (1 + 1) ∧ r.batch (Origin.ofLevel 1) = [⟨.coinHeavy, 1, 500, 5, 12⟩] ∧
      RoseAt scene Step.KeepsWork (fresh 5 10 1 0) r 1 7 ∧ Batch.Risen 1 7 ⟨.coinHeavy, 1, 500, 5, 12⟩ := by
  intro scene steps
  have hplayed : ((fresh 5 10 1 0).play scene steps).map (fun r =>
      (r.startCount, r.level, r.batch (Origin.ofLevel 1), r.held.isEmpty && r.executions.all Execution.finished,
        r.controls.all (·.stand.handedOut?.isSome),
        r.weighings.toList.any fun w => w.level == 0 && w.rose == some 7)) =
      some (1, 1, [⟨.coinHeavy, 1, 500, 5, 12⟩], true, true, true) := by decide +kernel
  obtain ⟨r, hr, hvalues⟩ := Option.map_eq_some_iff.mp hplayed
  simp only [Prod.mk.injEq, Bool.and_eq_true, Array.all_eq_true_iff_forall_mem, List.isEmpty_iff,
    List.any_eq_true, beq_iff_eq] at hvalues
  obtain ⟨hstarts, hlevel, hbatch, ⟨hheld, hfinished⟩, hstands, w, hw, hzero, hseven⟩ := hvalues
  have hended : ∀ x ∈ r.controls, ∃ tasks, x.stand = .ended (.ok tasks) := by
    intro x hx
    obtain ⟨tasks, htasks⟩ := Option.isSome_iff_exists.mp (hstands x hx)
    exact ⟨tasks, Stand.handedOut?_eq_some.mp htasks⟩
  have hbecomes : Becomes scene Step.KeepsWork (fresh 5 10 1 0) r :=
    becomes_of_play (by simp [steps, Step.KeepsWork]) hr
  have hrose : RoseAt scene Step.KeepsWork (fresh 5 10 1 0) r 1 7 := by
    simpa [hzero] using hbecomes.roseAt w hw 7 hseven
  obtain ⟨hcount, _, _, _, hlevels⟩ :=
    registry_follows_level (plain_injective 1 0) hbecomes hended hheld hfinished
  obtain ⟨_, price, hprice, hrisen⟩ := hlevels 1 (Nat.le_refl 1) (Nat.le_of_eq hlevel.symm)
  obtain rfl := (hprice 7).mp hrose
  have hseller := (hrisen ⟨.coinHeavy, 1, 500, 5, 12⟩ (by simp [hbatch])).2 (by decide) (by decide)
  rw [hstarts, hlevel] at hcount
  exact ⟨r, hr, hstarts, hlevel, hcount, hbatch, hrose, hseller⟩

end Run

end ExchangeLoad
