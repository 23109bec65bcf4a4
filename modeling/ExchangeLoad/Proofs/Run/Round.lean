import ExchangeLoad.Proofs.Run.Muster
import Mathlib.Data.List.Nodup
import Mathlib.Logic.Function.Basic

/-!
What the first stretch of a tick gathers. It starts the earliest registered investor that has not been
started, which is not signed in before or after; everybody else stands as before when it is asked for
work, and is asked once.
-/

namespace ExchangeLoad

theorem Investor.start_not_signedIn (v : Investor) (number : Nat) : (v.start number).1.life ≠ .signedIn := by
  unfold start life
  cases v.manner with
  | trader =>
    by_cases hretired : v.client.retired <;> simp [hretired]
  | scripted => simp

namespace Run

/-- The start of the earliest registered investor that has not been started, with its number. -/
def starter (r : Run) : List (Nat × Task) :=
  ((r.registry.firstNotStarted? r.life).bind fun i => (r.investors[i]?).map fun v => (i, (v.start i).2)).toList

/-- The work that an investor has, with its number. -/
def offered (r : Run) (draws : Nat → Draw) (i : Nat) : Option (Nat × Task) :=
  (r.investors[i]?).bind fun v => (v.next i (draws i)).map fun p => (i, p.2)

/-- The work of those that are signed in, in the order of the registry. -/
def offers (r : Run) (draws : Nat → Draw) : List (Nat × Task) :=
  (r.registry.signedIn r.life).filterMap (r.offered draws)

variable {scene : Scene} {r s t : Run} {i j : Nat}

theorem offered_congr {draws draws' : Nat → Draw} (hinvestors : s.investors[i]? = r.investors[i]?)
    (hdraws : draws' i = draws i) : s.offered draws' i = r.offered draws i := by
  simp only [offered, hinvestors, hdraws]

theorem collectFrom_investors (scene : Scene) (tasks : List Task) (hne : j ≠ i) :
    (collectFrom scene (s, tasks) j).1.investors[i]? = s.investors[i]? := by
  unfold collectFrom
  split
  · rfl
  · split
    · rfl
    · simp [withInvestor, hne]

theorem collectFrom_tasks (scene : Scene) (tasks : List Task) (draws : Nat → Draw)
    (hdraw : draws i = scene.draw s.drawn) :
    (collectFrom scene (s, tasks) i).2 = tasks ++ (s.offered draws i).toList.map Prod.snd := by
  unfold collectFrom offered
  cases hv : s.investors[i]? with
  | none => simp
  | some v =>
    simp only [Option.bind_some, hdraw]
    cases v.next i (scene.draw s.drawn) with
    | none => simp
    | some p => simp

/-- Each of several members is asked as it stood before, with a draw of its own. -/
theorem foldl_collectFrom_tasks (scene : Scene) (members : List Nat) (hnodup : members.Nodup)
    (hsame : ∀ i ∈ members, s.investors[i]? = r.investors[i]?) (tasks : List Task) :
    ∃ draws : Nat → Draw, (∀ i, ∃ n, draws i = scene.draw n) ∧
      (members.foldl (collectFrom scene) (s, tasks)).2 =
        tasks ++ (members.filterMap (r.offered draws)).map Prod.snd := by
  induction members generalizing s tasks with
  | nil => exact ⟨fun _ => scene.draw 0, fun _ => ⟨0, rfl⟩, by simp⟩
  | cons i rest ih =>
    obtain ⟨hi, hrest⟩ := List.nodup_cons.mp hnodup
    rw [List.foldl_cons]
    have hsame' : ∀ k ∈ rest, (collectFrom scene (s, tasks) i).1.investors[k]? = r.investors[k]? := by
      intro k hk
      have hne : i ≠ k := fun heq => hi (heq ▸ hk)
      rw [collectFrom_investors scene tasks hne, hsame k (List.mem_cons_of_mem _ hk)]
    obtain ⟨draws, hdraws, htasks⟩ := ih hrest hsame' (collectFrom scene (s, tasks) i).2
    refine ⟨Function.update draws i (scene.draw s.drawn), ?_, ?_⟩
    · intro k
      by_cases hk : k = i
      · subst hk
        exact ⟨s.drawn, Function.update_self ..⟩
      · rw [Function.update_of_ne hk]
        exact hdraws k
    · have hfirst : s.offered (Function.update draws i (scene.draw s.drawn)) i =
          r.offered (Function.update draws i (scene.draw s.drawn)) i :=
        offered_congr (hsame i List.mem_cons_self) rfl
      have hothers : rest.filterMap (r.offered draws) =
          rest.filterMap (r.offered (Function.update draws i (scene.draw s.drawn))) := by
        refine List.filterMap_congr fun k hk => ?_
        have hne : k ≠ i := fun heq => hi (heq ▸ hk)
        exact offered_congr rfl (Function.update_of_ne hne _ _).symm
      refine htasks.trans ?_
      rw [collectFrom_tasks scene tasks (Function.update draws i (scene.draw s.drawn)) (Function.update_self ..),
        hfirst, hothers, List.filterMap_cons]
      cases r.offered (Function.update draws i (scene.draw s.drawn)) i <;> simp

theorem getElem?_of_life {stage : Lifecycle} (h : r.life i = stage) (hstage : stage ≠ .retired) :
    ∃ v, r.investors[i]? = some v ∧ v.life = stage := by
  unfold life at h
  cases hv : r.investors[i]? with
  | none => rw [hv] at h; exact absurd h.symm hstage
  | some v => rw [hv] at h; exact ⟨v, rfl, h⟩

theorem life_of_firstNotStarted? (h : r.registry.firstNotStarted? r.life = some i) : r.life i = .notStarted := by
  simpa using List.find?_some h

/-- Starting one investor leaves the others as they are, and it is not signed in. -/
theorem startFirst_eq (r : Run) :
    r.startFirst.2 = r.starter.map Prod.snd ∧
      (∀ k, r.life k ≠ .notStarted → r.startFirst.1.investors[k]? = r.investors[k]?) ∧
      r.startFirst.1.registry.signedIn r.startFirst.1.life = r.registry.signedIn r.life := by
  unfold startFirst starter
  cases hfirst : r.registry.firstNotStarted? r.life with
  | none => exact ⟨rfl, fun _ _ => rfl, rfl⟩
  | some i =>
    have hlife := life_of_firstNotStarted? hfirst
    obtain ⟨v, hv, -⟩ := getElem?_of_life hlife (by decide)
    have hothers : ∀ k, k ≠ i → (r.startInvestor i).1.investors[k]? = r.investors[k]? := by
      intro k hk
      simp [startInvestor, hv, withInvestor, Ne.symm hk]
    refine ⟨by simp [startInvestor, hv], ?_, ?_⟩
    · intro k hk
      rw [Option.elim_some]
      refine hothers k ?_
      rintro rfl
      exact hk hlife
    · rw [Option.elim_some, Registry.signedIn, startInvestor_registry]
      refine List.filter_congr fun k _ => ?_
      by_cases hk : k = i
      · subst hk
        have hbefore : r.life k ≠ .signedIn := by simp [hlife]
        have hafter : (r.startInvestor k).1.life k ≠ .signedIn := by
          obtain ⟨hsize, rfl⟩ := Array.getElem?_eq_some_iff.mp hv
          simpa [life, startInvestor, withInvestor, hsize] using (r.investors[k]).start_not_signedIn k
        simp [hbefore, hafter]
      · simp only [life, hothers k hk]

/-- What the first stretch of a tick gathers, in order. -/
theorem gathered_eq (scene : Scene) (hnodup : r.registry.entries.Nodup) :
    ∃ draws : Nat → Draw, (∀ i, ∃ n, draws i = scene.draw n) ∧
      r.startFirst.2 ++ (r.startFirst.1.collectAll scene).2 = (r.starter ++ r.offers draws).map Prod.snd := by
  obtain ⟨hstarter, hsame, hmembers⟩ := r.startFirst_eq
  have hkept : ∀ i ∈ r.registry.signedIn r.life, r.startFirst.1.investors[i]? = r.investors[i]? := by
    intro i hi
    have hlife : r.life i = .signedIn := by simpa using (List.mem_filter.mp hi).2
    exact hsame i (by simp [hlife])
  obtain ⟨draws, hdraws, htasks⟩ := foldl_collectFrom_tasks scene (r.registry.signedIn r.life)
    (hnodup.filter _) hkept []
  refine ⟨draws, hdraws, ?_⟩
  rw [hstarter, collectAll, hmembers, htasks, List.nil_append, List.map_append, offers]

theorem mem_starter {p : Nat × Task} (h : p ∈ r.starter) : r.life p.1 = .notStarted := by
  obtain ⟨i, hfirst, hp⟩ := Option.bind_eq_some_iff.mp (Option.mem_toList.mp h)
  obtain ⟨v, -, rfl⟩ := Option.map_eq_some_iff.mp hp
  exact life_of_firstNotStarted? hfirst

theorem fst_of_offered {draws : Nat → Draw} {p : Nat × Task} (h : r.offered draws i = some p) : p.1 = i := by
  obtain ⟨v, -, hp⟩ := Option.bind_eq_some_iff.mp h
  obtain ⟨q, -, rfl⟩ := Option.map_eq_some_iff.mp hp
  rfl

theorem offers_sublist (r : Run) (draws : Nat → Draw) :
    ((r.offers draws).map Prod.fst).Sublist (r.registry.signedIn r.life) := by
  unfold offers
  induction r.registry.signedIn r.life with
  | nil => exact List.Sublist.refl _
  | cons i rest ih =>
    rw [List.filterMap_cons]
    cases hp : r.offered draws i with
    | none => exact ih.cons i
    | some p =>
      rw [List.map_cons, fst_of_offered hp]
      exact ih.cons_cons i

/-- Nobody is asked twice, and only those who are there. -/
theorem gathered_nodup (hnodup : r.registry.entries.Nodup) (draws : Nat → Draw) :
    ((r.starter ++ r.offers draws).map Prod.fst).Nodup ∧
      ∀ i ∈ (r.starter ++ r.offers draws).map Prod.fst, i < r.investors.size := by
  have hstarter : ∀ i ∈ r.starter.map Prod.fst, r.life i = .notStarted := by
    intro i hi
    obtain ⟨p, hp, rfl⟩ := List.mem_map.mp hi
    exact mem_starter hp
  have hoffers : ∀ i ∈ (r.offers draws).map Prod.fst, r.life i = .signedIn := by
    intro i hi
    simpa using (List.mem_filter.mp ((r.offers_sublist draws).subset hi)).2
  have hthere {i : Nat} {stage : Lifecycle} (hlife : r.life i = stage) (hstage : stage ≠ .retired) :
      i < r.investors.size := by
    obtain ⟨v, hv, -⟩ := getElem?_of_life hlife hstage
    exact (Array.getElem?_eq_some_iff.mp hv).1
  rw [List.map_append]
  refine ⟨List.nodup_append.mpr ⟨?_, ?_, ?_⟩, ?_⟩
  · unfold starter
    cases (r.registry.firstNotStarted? r.life).bind _ <;> simp
  · exact (hnodup.filter _).sublist (r.offers_sublist draws)
  · rintro i hi j hj rfl
    have hlife := (hstarter i hi).symm.trans (hoffers i hj)
    cases hlife
  · intro i hi
    obtain hi | hi := List.mem_append.mp hi
    · exact hthere (hstarter i hi) (by decide)
    · exact hthere (hoffers i hi) (by decide)

end Run

end ExchangeLoad
