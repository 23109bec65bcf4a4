import ExchangeLoad.Json.Decode

/-!
Records read from objects. A key that is asked for is read where no two members bear it; which members
stand beside it makes no difference.
-/

namespace ExchangeLoad.Json

variable {members : List (String × Json)} {key : String} {v : Json}

/-- The values of the members that bear a key. -/
def valuesOf (members : List (String × Json)) (key : String) : List Json :=
  (members.filter (·.1 == key)).map (·.2)

/-- No two members bear the key. -/
def AtMostOnce (members : List (String × Json)) (key : String) : Prop := (valuesOf members key).length ≤ 1

instance (members : List (String × Json)) (key : String) : Decidable (AtMostOnce members key) :=
  inferInstanceAs (Decidable (_ ≤ _))

theorem mem_valuesOf : v ∈ valuesOf members key ↔ (key, v) ∈ members := by
  simp [valuesOf, List.mem_map, List.mem_filter]

/-- Members that nobody asks for make no difference. -/
theorem valuesOf_filter {keep : String → Bool} (h : keep key = true) :
    valuesOf (members.filter fun m => keep m.1) key = valuesOf members key := by
  unfold valuesOf
  rw [List.filter_filter]
  congr 1
  refine List.filter_congr fun m _ => ?_
  cases hkey : m.1 == key with
  | false => rfl
  | true => rw [beq_iff_eq.mp hkey, h]; rfl

theorem valuesOf_map (change : String → Json → Json) :
    valuesOf (members.map fun m => (m.1, change m.1 m.2)) key = (valuesOf members key).map (change key) := by
  unfold valuesOf
  rw [List.filter_map, List.map_map, List.map_map]
  refine List.map_congr_left fun m hm => ?_
  exact congrArg (change · m.2) (beq_iff_eq.mp (List.mem_filter.mp hm).2)

theorem once?_eq : once? members key =
    match valuesOf members key with
    | [] => some none
    | [v] => some (some v)
    | _ => none := by
  unfold once? valuesOf
  generalize members.filter (·.1 == key) = borne
  rcases borne with _ | ⟨_, _ | ⟨_, _⟩⟩ <;> rfl

theorem once?_filter {keep : String → Bool} (h : keep key = true) :
    once? (members.filter fun m => keep m.1) key = once? members key := by
  rw [once?_eq, once?_eq, valuesOf_filter h]

theorem once?_map (change : String → Json → Json) :
    once? (members.map fun m => (m.1, change m.1 m.2)) key =
      (once? members key).map (Option.map (change key)) := by
  rw [once?_eq, once?_eq, valuesOf_map]
  rcases valuesOf members key with _ | ⟨_, _ | ⟨_, _⟩⟩ <;> rfl

/-- A key has been read if no two members bear it; what was found is the value of the member that does. -/
theorem once?_eq_some_iff {found : Option Json} : once? members key = some found ↔
    AtMostOnce members key ∧ ∀ v, found = some v ↔ (key, v) ∈ members := by
  simp only [once?_eq, AtMostOnce, ← mem_valuesOf]
  rcases valuesOf members key with _ | ⟨w, _ | ⟨x, rest⟩⟩
  · cases found <;> simp
  · cases found with
    | none => simp
    | some x =>
      simp only [Option.some.injEq, List.length_singleton, Nat.le_refl, true_and, List.mem_singleton]
      exact ⟨fun h v => by rw [h, eq_comm], fun h => ((h x).mp rfl).symm⟩
  · simp

theorem AtMostOnce.exists_once? (h : AtMostOnce members key) : ∃ found, once? members key = some found := by
  unfold AtMostOnce at h
  rw [once?_eq]
  match valuesOf members key, h with
  | [], _ => exact ⟨_, rfl⟩
  | [_], _ => exact ⟨_, rfl⟩

theorem AtMostOnce.eq {w : Json} (h : AtMostOnce members key) (hv : (key, v) ∈ members)
    (hw : (key, w) ∈ members) : v = w := by
  obtain ⟨found, hfound⟩ := h.exists_once?
  obtain ⟨-, hmem⟩ := once?_eq_some_iff.mp hfound
  exact Option.some.inj (((hmem v).mpr hv).symm.trans ((hmem w).mpr hw))

/-- A field that may be missing or null. -/
def optional? {α : Type} (read : Json → Option α) : Option Json → Option (Option α)
  | none => some none
  | some .null => some none
  | some v => (read v).map some

section Optional

variable {α : Type} {read : Json → Option α}

theorem optional?_of_ne_null (h : v ≠ .null) : optional? read (some v) = (read v).map some := by
  cases v with
  | null => exact absurd rfl h
  | _ => rfl

/-- A change that makes no difference to a reader, nor to whether a value is null, makes none to a field. -/
theorem optional?_map {change : Json → Json} (hnull : ∀ v, change v = .null ↔ v = .null)
    (hread : ∀ v, read (change v) = read v) (found : Option Json) :
    optional? read (found.map change) = optional? read found := by
  cases found with
  | none => rfl
  | some v =>
    by_cases hv : v = .null
    · rw [Option.map_some, (hnull v).mpr hv, hv]
    · rw [Option.map_some, optional?_of_ne_null (mt (hnull v).mp hv), optional?_of_ne_null hv, hread]

theorem optional?_eq_some_iff {found : Option Json} {said : Option α} (hnull : read .null = none) :
    optional? read found = some said ↔
      (∀ v, found = some v → v = .null ∨ ∃ a, read v = some a) ∧
      ∀ a, said = some a ↔ ∃ v, found = some v ∧ read v = some a := by
  cases found with
  | none => cases said <;> simp [optional?]
  | some v =>
    by_cases hv : v = .null
    · cases said <;> simp [optional?, hv, hnull]
    · rw [optional?_of_ne_null hv, Option.map_eq_some_iff]
      constructor
      · rintro ⟨a, ha, rfl⟩
        simp [ha]
      · rintro ⟨hread, hsaid⟩
        obtain ⟨a, ha⟩ := (hread v rfl).resolve_left hv
        exact ⟨a, ha, ((hsaid a).mpr ⟨v, rfl, ha⟩).symm⟩

/-- A field that may be missing or null is read where its key occurs at most once and its value, if it is not
    null, can be read; what was read is what that value says. -/
theorem once?_bind_optional?_eq_some_iff {said : Option α} (hnull : read .null = none) :
    (once? members key).bind (optional? read) = some said ↔ AtMostOnce members key ∧
      (∀ v, (key, v) ∈ members → v = .null ∨ ∃ a, read v = some a) ∧
      ∀ a, said = some a ↔ ∃ v, (key, v) ∈ members ∧ read v = some a := by
  constructor
  · intro h
    obtain ⟨found, hfound, h⟩ := Option.bind_eq_some_iff.mp h
    obtain ⟨honce, hmem⟩ := once?_eq_some_iff.mp hfound
    have hsaid := (optional?_eq_some_iff hnull).mp h
    simp only [hmem] at hsaid
    exact ⟨honce, hsaid⟩
  · rintro ⟨honce, hsaid⟩
    obtain ⟨found, hfound⟩ := honce.exists_once?
    obtain ⟨-, hmem⟩ := once?_eq_some_iff.mp hfound
    simp only [← hmem] at hsaid
    exact Option.bind_eq_some_iff.mpr ⟨found, hfound, (optional?_eq_some_iff hnull).mpr hsaid⟩

/-- Where the values of a key that occurs at most once can be read, the field can. -/
theorem exists_once?_bind_optional? (honce : AtMostOnce members key)
    (hvalues : ∀ v, (key, v) ∈ members → v = .null ∨ ∃ a, read v = some a) :
    ∃ said, (once? members key).bind (optional? read) = some said := by
  obtain ⟨found, hfound⟩ := honce.exists_once?
  obtain ⟨-, hmem⟩ := once?_eq_some_iff.mp hfound
  rw [hfound, Option.bind_some]
  match found with
  | none => exact ⟨_, rfl⟩
  | some v =>
    by_cases hv : v = .null
    · exact ⟨none, by rw [hv]; rfl⟩
    · obtain ⟨a, ha⟩ := (hvalues v ((hmem v).mp rfl)).resolve_left hv
      exact ⟨some a, by rw [optional?_of_ne_null hv, ha]; rfl⟩

variable {a default : α}

/-- A field with a default is read where its key occurs at most once and its value, if there is one, can be
    read. -/
theorem once?_bind_elim_eq_some_iff :
    ((once? members key).bind fun found => found.elim (some default) read) = some a ↔
      AtMostOnce members key ∧
      ((∃ v, (key, v) ∈ members ∧ read v = some a) ∨ (∀ v, (key, v) ∉ members) ∧ a = default) := by
  constructor
  · intro h
    obtain ⟨found, hfound, h⟩ := Option.bind_eq_some_iff.mp h
    obtain ⟨honce, hmem⟩ := once?_eq_some_iff.mp hfound
    refine ⟨honce, ?_⟩
    cases found with
    | none =>
      refine .inr ⟨fun v hv => ?_, (Option.some.inj h).symm⟩
      cases (hmem v).mpr hv
    | some v => exact .inl ⟨v, (hmem v).mp rfl, h⟩
  · rintro ⟨honce, hsaid⟩
    obtain ⟨found, hfound⟩ := honce.exists_once?
    obtain ⟨-, hmem⟩ := once?_eq_some_iff.mp hfound
    refine Option.bind_eq_some_iff.mpr ⟨found, hfound, ?_⟩
    obtain ⟨v, hv, ha⟩ | ⟨habsent, rfl⟩ := hsaid
    · obtain rfl := (hmem v).mpr hv
      exact ha
    · cases found with
      | none => rfl
      | some v => exact absurd ((hmem v).mp rfl) (habsent v)

theorem exists_once?_bind_elim (read : Json → Option α) (default : α) (honce : AtMostOnce members key)
    (hvalues : ∀ v, (key, v) ∈ members → ∃ a, read v = some a) :
    ∃ a, ((once? members key).bind fun found => found.elim (some default) read) = some a := by
  obtain ⟨found, hfound⟩ := honce.exists_once?
  obtain ⟨-, hmem⟩ := once?_eq_some_iff.mp hfound
  rw [hfound, Option.bind_some]
  cases found with
  | none => exact ⟨_, rfl⟩
  | some v => exact hvalues v ((hmem v).mp rfl)

end Optional

theorem word?_eq_some_iff {n : Int} : v.word? = some n ↔ v = .int n ∧ Word.Fits n := by
  cases v with
  | int m =>
    rw [int.injEq]
    by_cases hfits : Word.Fits m
    · rw [word?, if_pos hfits, Option.some.injEq]
      exact ⟨fun h => ⟨h, h ▸ hfits⟩, fun h => h.1⟩
    · rw [word?, if_neg hfits]
      exact ⟨(nomatch ·), fun h => absurd (h.1 ▸ h.2) hfits⟩
  | _ => simp [word?]

/-- What is neither an object nor an array holds no record. -/
theorem exists_obj_of_record? {keys : List String} {fields : List (Option Json)}
    (hplain : ∀ items, v ≠ .arr items) (h : v.record? keys = some fields) : ∃ members, v = .obj members := by
  cases v with
  | obj members => exact ⟨members, rfl⟩
  | arr items => exact absurd rfl (hplain items)
  | _ => cases h

theorem record?_singleton : (obj members).record? [key] = (once? members key).map ([·]) := by
  rw [record?, List.mapM_cons, List.mapM_nil]
  cases once? members key <;> rfl

end ExchangeLoad.Json
