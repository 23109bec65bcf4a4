import ExchangeLoad.Toml.Parser
import Mathlib.Data.Option.Basic

/-!
What texts hold are proper documents: no table has a key twice, at any depth, and every whole number is in
the range of a counter. Keys are only added where they are not yet there, and numbers are checked as they
are read.
-/

namespace ExchangeLoad.Toml

/-- No table has a key twice, at any depth, and whole numbers are in the range of a counter. -/
inductive Proper : Toml → Prop
  | str (s : String) : Proper (.str s)
  | int {n : Int} : Word.Fits n → Proper (.int n)
  | float (written : String) : Proper (.float written)
  | bool (b : Bool) : Proper (.bool b)
  | moment (written : String) : Proper (.moment written)
  | arr {items : List Toml} : (∀ v ∈ items, Proper v) → Proper (.arr items)
  | tables {items : List Members} : (∀ members ∈ items, (members.map Prod.fst).Nodup) →
      (∀ members ∈ items, ∀ m ∈ members, Proper m.2) → Proper (.tables items)
  | table {origin : Origin} {members : Members} : (members.map Prod.fst).Nodup →
      (∀ m ∈ members, Proper m.2) → Proper (.table origin members)

/-- A proper table, and so a proper document. -/
structure ProperTable (members : Members) : Prop where
  keys : (members.map Prod.fst).Nodup
  values : ∀ m ∈ members, m.2.Proper

variable {members result : Members} {key : String} {v : Toml}

theorem proper_table {origin : Origin} : (table origin members).Proper ↔ ProperTable members :=
  ⟨fun | .table hkeys hvalues => ⟨hkeys, hvalues⟩, fun h => .table h.keys h.values⟩

theorem proper_tables {items : List Members} : (tables items).Proper ↔ ∀ members ∈ items, ProperTable members :=
  ⟨fun | .tables hkeys hvalues => fun members h => ⟨hkeys members h, hvalues members h⟩,
    fun h => .tables (fun members hm => (h members hm).keys) fun members hm => (h members hm).values⟩

theorem proper_int {n : Int} : (int n).Proper ↔ Word.Fits n := ⟨fun | .int h => h, .int⟩

theorem mem_of_lookup (h : members.lookup key = some v) : (key, v) ∈ members := by
  obtain ⟨before, after, rfl, -⟩ := List.lookup_eq_some_iff.mp h
  simp

theorem not_mem_of_lookup (h : members.lookup key = none) : key ∉ members.map Prod.fst := by
  intro hkey
  obtain ⟨m, hm, rfl⟩ := List.mem_map.mp hkey
  simpa using List.lookup_eq_none_iff.mp h m hm

namespace ProperTable

theorem nil : ProperTable [] := ⟨List.nodup_nil, List.forall_mem_nil _⟩

theorem lookup (h : ProperTable members) (hv : members.lookup key = some v) : v.Proper :=
  h.values _ (mem_of_lookup hv)

/-- A key has the value that stands beside it, wherever that is. -/
theorem lookup_eq_some_iff (h : ProperTable members) : members.lookup key = some v ↔ (key, v) ∈ members := by
  refine ⟨mem_of_lookup, fun hmem => ?_⟩
  obtain ⟨before, after, rfl⟩ := List.append_of_mem hmem
  have hkeys := h.keys
  rw [List.map_append, List.nodup_append] at hkeys
  refine List.lookup_eq_some_iff.mpr ⟨before, after, rfl, fun m hm => ?_⟩
  exact bne_iff_ne.mpr (hkeys.2.2 m.1 (List.mem_map_of_mem hm) key List.mem_cons_self).symm

theorem concat (h : ProperTable members) (hnew : members.lookup key = none) (hv : v.Proper) :
    ProperTable (members ++ [(key, v)]) := by
  refine ⟨?_, List.forall_mem_append.mpr ⟨h.values, List.forall_mem_singleton.mpr hv⟩⟩
  rw [List.map_append, List.nodup_append]
  refine ⟨h.keys, by simp, ?_⟩
  rintro a ha b hb rfl
  cases List.mem_singleton.mp hb
  exact not_mem_of_lookup hnew ha

theorem replace (h : ProperTable members) (hv : v.Proper) : ProperTable (replace members key v) := by
  have hsame : (Toml.replace members key v).map Prod.fst = members.map Prod.fst := by
    rw [Toml.replace, List.map_map]
    refine List.map_congr_left fun m _ => ?_
    by_cases hkey : m.1 = key <;> simp [hkey]
  refine ⟨hsame ▸ h.keys, fun m hm => ?_⟩
  obtain ⟨old, hold, rfl⟩ := List.mem_map.mp hm
  split
  · exact hv
  · exact h.values old hold

end ProperTable

theorem proper_dropLast_concat {items : List Members} (h : (tables items).Proper) (hlast : ProperTable members) :
    (tables (items.dropLast ++ [members])).Proper := by
  rw [proper_tables] at h ⊢
  refine List.forall_mem_append.mpr ⟨fun ms hms => h ms (List.dropLast_subset _ hms), ?_⟩
  exact List.forall_mem_singleton.mpr hlast

theorem put_proper {path : List String} (hv : v.Proper) (h : ProperTable members)
    (hput : put path key v members = some result) : ProperTable result := by
  induction path generalizing members result with
  | nil =>
    unfold put at hput
    split at hput
    · cases hput
    · next hnew =>
      cases hput
      exact h.concat (Option.not_isSome_iff_eq_none.mp hnew) hv
  | cons step path ih =>
    unfold put at hput
    split at hput
    · next hnew =>
      obtain ⟨inner, hinner, ⟨⟩⟩ := Option.bind_eq_some_iff.mp hput
      exact h.concat hnew (proper_table.mpr (ih .nil hinner))
    · next inner hfound =>
      obtain ⟨changed, hchanged, ⟨⟩⟩ := Option.bind_eq_some_iff.mp hput
      exact h.replace (proper_table.mpr (ih (proper_table.mp (h.lookup hfound)) hchanged))
    · next inner hfound =>
      split at hput
      · cases hput
      · obtain ⟨changed, hchanged, ⟨⟩⟩ := Option.bind_eq_some_iff.mp hput
        exact h.replace (proper_table.mpr (ih (proper_table.mp (h.lookup hfound)) hchanged))
    · next items hfound =>
      split at hput
      · next last hlast =>
        obtain ⟨changed, hchanged, ⟨⟩⟩ := Option.bind_eq_some_iff.mp hput
        have hitems := h.lookup hfound
        have hproper := proper_tables.mp hitems last (List.mem_of_getLast? hlast)
        exact h.replace (proper_dropLast_concat hitems (ih hproper hchanged))
      · cases hput
    · cases hput

theorem within_proper {path : List String} {work : Members → Option Members}
    (hwork : ∀ members result, ProperTable members → work members = some result → ProperTable result)
    (h : ProperTable members) (hwithin : within path work members = some result) : ProperTable result := by
  induction path generalizing members result with
  | nil => exact hwork members result h hwithin
  | cons step path ih =>
    unfold within at hwithin
    split at hwithin
    · next hnew =>
      obtain ⟨inner, hinner, ⟨⟩⟩ := Option.bind_eq_some_iff.mp hwithin
      exact h.concat hnew (proper_table.mpr (ih .nil hinner))
    · cases hwithin
    · next origin inner _ hfound =>
      obtain ⟨changed, hchanged, ⟨⟩⟩ := Option.bind_eq_some_iff.mp hwithin
      exact h.replace (proper_table.mpr (ih (proper_table.mp (h.lookup hfound)) hchanged))
    · next items hfound =>
      split at hwithin
      · next last hlast =>
        obtain ⟨changed, hchanged, ⟨⟩⟩ := Option.bind_eq_some_iff.mp hwithin
        have hitems := h.lookup hfound
        have hproper := proper_tables.mp hitems last (List.mem_of_getLast? hlast)
        exact h.replace (proper_dropLast_concat hitems (ih hproper hchanged))
      · cases hwithin
    · cases hwithin

/-- Several steps, each of which may fail, keep what every one of them keeps. -/
theorem foldlM_keeps {α β : Type} {P : β → Prop} {step : β → α → Option β} {steps : List α} {b last : β}
    (hstep : ∀ b a next, a ∈ steps → P b → step b a = some next → P next) (h : P b)
    (hlast : steps.foldlM step b = some last) : P last := by
  induction steps generalizing b with
  | nil => cases hlast; exact h
  | cons a rest ih =>
    rw [List.foldlM_cons] at hlast
    obtain ⟨next, hnext, hlast⟩ := Option.bind_eq_some_iff.mp hlast
    exact ih (fun b a' next ha' => hstep b a' next (List.mem_cons_of_mem a ha'))
      (hstep b a next List.mem_cons_self h hnext) hlast

/-- The values of pairs are proper. -/
def ProperPairs (pairs : List Pair) : Prop := ∀ p ∈ pairs, p.value.Proper

theorem putAll_proper {pairs : List Pair} (hpairs : ProperPairs pairs) (h : ProperTable members)
    (hput : putAll pairs members = some result) : ProperTable result :=
  foldlM_keeps (fun _ p _ hp h hput => put_proper (hpairs p hp) h hput) h hput

theorem fill_proper {pairs : List Pair} (hpairs : ProperPairs pairs) (h : ProperTable members)
    (hfill : fill key pairs members = some result) : ProperTable result := by
  unfold fill at hfill
  split at hfill
  · next hnew =>
    obtain ⟨inner, hinner, ⟨⟩⟩ := Option.bind_eq_some_iff.mp hfill
    exact h.concat hnew (proper_table.mpr (putAll_proper hpairs .nil hinner))
  · next inner hfound =>
    obtain ⟨filled, hfilled, ⟨⟩⟩ := Option.bind_eq_some_iff.mp hfill
    exact h.replace (proper_table.mpr (putAll_proper hpairs (proper_table.mp (h.lookup hfound)) hfilled))
  · cases hfill

theorem extend_proper {pairs : List Pair} (hpairs : ProperPairs pairs) (h : ProperTable members)
    (hextend : extend key pairs members = some result) : ProperTable result := by
  unfold extend at hextend
  split at hextend
  · next hnew =>
    obtain ⟨inner, hinner, ⟨⟩⟩ := Option.bind_eq_some_iff.mp hextend
    have hinner := putAll_proper hpairs .nil hinner
    exact h.concat hnew (proper_tables.mpr (List.forall_mem_singleton.mpr hinner))
  · next items hfound =>
    obtain ⟨inner, hinner, ⟨⟩⟩ := Option.bind_eq_some_iff.mp hextend
    have hinner := putAll_proper hpairs .nil hinner
    have hitems := proper_tables.mp (h.lookup hfound)
    refine h.replace (proper_tables.mpr (List.forall_mem_append.mpr ⟨hitems, ?_⟩))
    exact List.forall_mem_singleton.mpr hinner
  · cases hextend

theorem Section.place_proper {s : Section} (hpairs : ProperPairs s.pairs) (h : ProperTable members)
    (hplace : s.place members = some result) : ProperTable result := by
  unfold Section.place at hplace
  split at hplace
  · exact within_proper (fun _ _ => fill_proper hpairs) h hplace
  · exact within_proper (fun _ _ => extend_proper hpairs) h hplace
  · exact putAll_proper hpairs h hplace

theorem fits_of_integer? {word : List Char} {n : Int} (h : integer? word = some n) : Word.Fits n := by
  have hguard : ∀ m : Option Int,
      (m.bind fun n => (guard (decide (Word.Fits n)) : Option Unit).bind fun _ => some n) = some n →
        Word.Fits n := by
    intro m hm
    obtain ⟨m, -, hm⟩ := Option.bind_eq_some_iff.mp hm
    obtain ⟨⟨⟩, hfits, ⟨⟩⟩ := Option.bind_eq_some_iff.mp hm
    exact of_decide_eq_true ((Option.guard_eq_some' _).mp hfits)
  unfold integer? at h
  split at h <;> exact hguard _ h

theorem readWord?_proper {cs rest : List Char} (h : readWord? cs = some (v, rest)) : v.Proper := by
  unfold readWord? at h
  simp only at h
  repeat' split at h
  · cases h; exact .moment _
  · cases h; exact .bool _
  · cases h; exact .bool _
  · cases h; exact .moment _
  · cases h; exact .float _
  · obtain ⟨n, hn, ⟨⟩⟩ := Option.map_eq_some_iff.mp h
    exact .int (fits_of_integer? hn)

/-- With so much fuel, whatever is read is proper. -/
structure ReadsProper (fuel : Nat) : Prop where
  value : ∀ {depth cs v rest}, readValue fuel depth cs = some (v, rest) → v.Proper
  items : ∀ {depth cs items rest}, readItems fuel depth cs = some (items, rest) → ∀ v ∈ items, v.Proper
  pairs : ∀ {depth cs pairs rest}, readPairs fuel depth cs = some (pairs, rest) → ProperPairs pairs

variable {fuel depth : Nat} {cs rest : List Char}

theorem ReadsProper.value_succ (h : ReadsProper fuel) (hread : readValue (fuel + 1) depth cs = some (v, rest)) :
    v.Proper := by
  unfold readValue at hread
  split at hread
  · split at hread
    · obtain ⟨⟨items, _⟩, hitems, ⟨⟩⟩ := Option.map_eq_some_iff.mp hread
      exact .arr (h.items hitems)
    · cases hread
  · split at hread
    · split at hread
      · cases hread
        exact proper_table.mpr .nil
      · obtain ⟨⟨pairs, _⟩, hpairs, hread⟩ := Option.bind_eq_some_iff.mp hread
        obtain ⟨members, hmembers, ⟨⟩⟩ := Option.bind_eq_some_iff.mp hread
        exact proper_table.mpr (putAll_proper (h.pairs hpairs) .nil hmembers)
    · cases hread
  · obtain ⟨⟨s, _⟩, -, ⟨⟩⟩ := Option.map_eq_some_iff.mp hread
    exact .str s
  · obtain ⟨⟨s, _⟩, -, ⟨⟩⟩ := Option.map_eq_some_iff.mp hread
    exact .str s
  · exact readWord?_proper hread

theorem ReadsProper.items_succ {items : List Toml} (h : ReadsProper fuel)
    (hread : readItems (fuel + 1) depth cs = some (items, rest)) : ∀ v ∈ items, v.Proper := by
  unfold readItems at hread
  split at hread
  · cases hread
    exact List.forall_mem_nil _
  · obtain ⟨⟨v, after⟩, hv, hread⟩ := Option.bind_eq_some_iff.mp hread
    simp only at hread
    split at hread
    · obtain ⟨⟨later, _⟩, hlater, ⟨⟩⟩ := Option.bind_eq_some_iff.mp hread
      exact List.forall_mem_cons.mpr ⟨h.value hv, h.items hlater⟩
    · cases hread
      exact List.forall_mem_singleton.mpr (h.value hv)
    · cases hread

theorem ReadsProper.pairs_succ {pairs : List Pair} (h : ReadsProper fuel)
    (hread : readPairs (fuel + 1) depth cs = some (pairs, rest)) : ProperPairs pairs := by
  unfold readPairs at hread
  obtain ⟨⟨keys, after⟩, -, hread⟩ := Option.bind_eq_some_iff.mp hread
  obtain ⟨after, -, hread⟩ := Option.bind_eq_some_iff.mp hread
  obtain ⟨⟨v, after⟩, hv, hread⟩ := Option.bind_eq_some_iff.mp hread
  simp only at hread
  split at hread
  · obtain ⟨⟨later, _⟩, hlater, ⟨⟩⟩ := Option.bind_eq_some_iff.mp hread
    exact List.forall_mem_cons.mpr ⟨h.value hv, h.pairs hlater⟩
  · cases hread
    exact List.forall_mem_singleton.mpr (h.value hv)
  · cases hread

theorem readsProper (fuel : Nat) : ReadsProper fuel := by
  induction fuel with
  | zero =>
    refine ⟨fun h => ?_, fun h => ?_, fun h => ?_⟩
    · unfold readValue at h; cases h
    · unfold readItems at h; cases h
    · unfold readPairs at h; cases h
  | succ fuel ih => exact ⟨ih.value_succ, ih.items_succ, ih.pairs_succ⟩

/-- A pair on a line has a proper value; headers have none. -/
def Line.Proper : Line → Prop
  | .pair p => p.value.Proper
  | _ => True

theorem readLine?_proper {line : Line} (h : readLine? cs = some (line, rest)) : line.Proper := by
  unfold readLine? at h
  split at h
  · obtain ⟨_, -, h⟩ := Option.bind_eq_some_iff.mp h
    obtain ⟨_, -, h⟩ := Option.bind_eq_some_iff.mp h
    obtain ⟨_, -, h⟩ := Option.bind_eq_some_iff.mp h
    obtain ⟨_, -, ⟨⟩⟩ := Option.bind_eq_some_iff.mp h
    trivial
  · obtain ⟨_, -, h⟩ := Option.bind_eq_some_iff.mp h
    obtain ⟨_, -, h⟩ := Option.bind_eq_some_iff.mp h
    obtain ⟨_, -, ⟨⟩⟩ := Option.bind_eq_some_iff.mp h
    trivial
  · obtain ⟨_, -, h⟩ := Option.bind_eq_some_iff.mp h
    obtain ⟨_, -, h⟩ := Option.bind_eq_some_iff.mp h
    obtain ⟨_, hv, h⟩ := Option.bind_eq_some_iff.mp h
    obtain ⟨_, -, ⟨⟩⟩ := Option.bind_eq_some_iff.mp h
    exact (readsProper _).value hv

theorem readLines_proper {lines : List Line} (h : readLines fuel cs = some lines) :
    ∀ line ∈ lines, line.Proper := by
  induction fuel generalizing cs lines with
  | zero => cases h
  | succ fuel ih =>
    unfold readLines at h
    split at h
    · cases h
      exact List.forall_mem_nil _
    · obtain ⟨⟨line, _⟩, hline, h⟩ := Option.bind_eq_some_iff.mp h
      obtain ⟨later, hlater, ⟨⟩⟩ := Option.bind_eq_some_iff.mp h
      exact List.forall_mem_cons.mpr ⟨readLine?_proper hline, ih hlater⟩

theorem sections_proper {lines : List Line} (h : ∀ line ∈ lines, line.Proper) :
    ∀ s ∈ sections lines, ProperPairs s.pairs := by
  have hnone : ProperPairs [] := List.forall_mem_nil _
  induction lines with
  | nil => exact List.forall_mem_singleton.mpr hnone
  | cons line lines ih =>
    obtain ⟨hline, hlines⟩ := List.forall_mem_cons.mp h
    have hlater := ih hlines
    -- A pair joins the section it stands in, whose header is still to be read; a header ends that section.
    cases line with
    | pair p =>
      unfold sections
      split
      · next hfound =>
        rw [hfound] at hlater
        obtain ⟨hpairs, hrest⟩ := List.forall_mem_cons.mp hlater
        exact List.forall_mem_cons.mpr ⟨List.forall_mem_cons.mpr ⟨hline, hpairs⟩, hrest⟩
      · exact List.forall_mem_cons.mpr ⟨List.forall_mem_singleton.mpr hline, hlater⟩
    | header keys | doubled keys =>
      unfold sections
      split
      · next hfound =>
        rw [hfound] at hlater
        obtain ⟨hpairs, hrest⟩ := List.forall_mem_cons.mp hlater
        exact List.forall_mem_cons.mpr ⟨hnone, List.forall_mem_cons.mpr ⟨hpairs, hrest⟩⟩
      · exact List.forall_mem_cons.mpr ⟨hnone, List.forall_mem_cons.mpr ⟨hnone, hlater⟩⟩

/-- A text holds a proper document. -/
theorem parse_proper {text : String} {doc : Members} (h : parse text = some doc) : ProperTable doc := by
  obtain ⟨lines, hlines, h⟩ := Option.bind_eq_some_iff.mp h
  have hsections := sections_proper (readLines_proper hlines)
  exact foldlM_keeps (fun _ s _ hs h hplace => s.place_proper (hsections s hs) h hplace) .nil h

end ExchangeLoad.Toml
