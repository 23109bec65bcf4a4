import ExchangeLoad.Proofs.Pipeline.Accounting
import ExchangeLoad.Proofs.Run.Whereabouts

/-!
Deposits. An investor is on its way into the registry in one place at a time, so that no identity has two
deposits, whoever enrols it, and whatever fails or is cut short: one that awaits its turn has none, one
that waits for its deposit has one that is not decided, and one in the registry has one that is.
-/

namespace ExchangeLoad.Run

/-- What is known of the investors on their way into the registry. -/
structure Custody (r : Run) : Prop where
  within : r.whereabouts ≤ Multiset.range r.investors.size
  taken : (r.census.cards.map Prod.fst).Sublist r.pipeline.taken
  single : (r.census.deposits.map Deposit.id).Nodup
  known : ∀ id ∈ r.census.deposits.map Deposit.id, id ∈ r.census.cards.map Prod.fst
  awaiting : ∀ p ∈ r.awaiting, ∃ card, r.census.cards[p.1]? = some card ∧ p.2 = card.2.credit ∧
    card.1 ∉ r.census.deposits.map Deposit.id
  depositing : ∀ p ∈ r.depositing, ∃ card, r.census.cards[p.1]? = some card ∧
    r.census.deposits[p.2]? = some ⟨card.1, card.2.credit, none⟩
  entered : ∀ i ∈ r.census.entries, ∃ card, ∃ (deposit : Nat) (accepted : Bool), r.census.cards[i]? = some card ∧
    r.census.deposits[deposit]? = some ⟨card.1, card.2.credit, some accepted⟩

theorem fresh_custody (floor ceiling : Int) (capacity drawn : Nat) :
    (fresh floor ceiling capacity drawn).Custody where
  within := Multiset.zero_le _
  taken := List.nil_sublist _
  single := List.nodup_nil
  known := by simp [census, fresh]
  awaiting := by simp [Run.awaiting, fresh]
  depositing := by simp [Run.depositing, fresh]
  entered := by simp [census, fresh, Registry.empty]

variable {scene : Scene} {kind : Step → Prop} {r t : Run} {a : Step} {i : Nat}

theorem identity_eq {card : Identity × Params} (h : r.census.cards[i]? = some card) :
    r.identity i = card.1 := by
  obtain ⟨v, hv, rfl⟩ : ∃ v, r.investors[i]? = some v ∧ v.card = card := by
    simpa [census] using h
  simp [identity, hv, Investor.card]

theorem length_deposits (r : Run) : r.census.deposits.length = r.deposits.size := by simp [census]

namespace Custody

/-- Two investors do not share an identity. -/
theorem eq_of_card {j : Nat} {p q : Identity × Params} (h : (r.census.cards.map Prod.fst).Nodup)
    (hp : r.census.cards[i]? = some p) (hq : r.census.cards[j]? = some q) (hid : p.1 = q.1) : i = j := by
  obtain ⟨hi, _⟩ := List.getElem?_eq_some_iff.mp hp
  refine (List.getElem?_inj (by simpa using hi) h).mp ?_
  rw [List.getElem?_map, List.getElem?_map, hp, hq, Option.map_some, Option.map_some, hid]

/-- An investor that awaits its turn does not wait for its deposit. -/
theorem ne_of_within {p : Nat × Int} {q : Nat × Nat} (h : r.whereabouts ≤ Multiset.range r.investors.size)
    (hp : p ∈ r.awaiting) (hq : q ∈ r.depositing) : p.1 ≠ q.1 := by
  have hnodup := Multiset.nodup_of_le h (Multiset.nodup_range _)
  rw [whereabouts, Multiset.nodup_add, Multiset.nodup_add] at hnodup
  obtain ⟨⟨_, _, hdisjoint⟩, _⟩ := hnodup
  intro heq
  exact Multiset.disjoint_left.mp hdisjoint (Multiset.mem_map_of_mem _ hp)
    (heq ▸ Multiset.mem_map_of_mem _ hq)

/-- No investor waits for two deposits. -/
theorem nodup_depositing (h : r.whereabouts ≤ Multiset.range r.investors.size) :
    (r.depositing.map Prod.fst).Nodup := by
  have hnodup := Multiset.nodup_of_le h (Multiset.nodup_range _)
  rw [whereabouts, Multiset.nodup_add, Multiset.nodup_add] at hnodup
  exact hnodup.1.2.1

/-- No investor is in the registry twice. -/
theorem nodup_entries (hr : r.Custody) : r.registry.entries.Nodup := by
  have hnodup := Multiset.nodup_of_le hr.within (Multiset.nodup_range _)
  rw [whereabouts, Multiset.nodup_add] at hnodup
  exact Multiset.coe_nodup.mp hnodup.2.1

end Custody

theorem getElem?_append_of_eq_some {α : Type} {l : List α} {x : α} (h : l[i]? = some x) (more : List α) :
    (l ++ more)[i]? = some x := by
  obtain ⟨hi, _⟩ := List.getElem?_eq_some_iff.mp h
  rw [List.getElem?_append_left hi, h]

/-- A new investor has an identity that no other one has, and there is no deposit for it. -/
theorem Custody.taken_new {id : Identity} (hr : r.Custody) (htaken : r.pipeline.taken ++ [id] <+: t.pipeline.taken)
    (hnodup : t.pipeline.taken.Nodup) :
    (r.census.cards.map Prod.fst ++ [id]).Sublist t.pipeline.taken ∧
      id ∉ r.census.deposits.map Deposit.id := by
  have hsublist := (hr.taken.append (List.Sublist.refl [id])).trans htaken.sublist
  refine ⟨hsublist, fun hid => ?_⟩
  have hdisjoint := List.disjoint_of_nodup_append (hnodup.sublist hsublist)
  exact hdisjoint (hr.known id hid) (List.mem_singleton_self id)

namespace Custody

/-- An investor of a later batch is built. -/
theorem recruit {id : Identity} {params : Params} (hr : r.Custody)
    (hwithin : t.whereabouts ≤ Multiset.range t.investors.size) (hnodup : t.pipeline.taken.Nodup)
    (htaken : r.pipeline.taken ++ [id] <+: t.pipeline.taken)
    (hawaiting : t.awaiting = r.awaiting + {(r.investors.size, params.credit)})
    (hdepositing : t.depositing = r.depositing)
    (hcards : t.census.cards = r.census.cards ++ [(id, params)])
    (hdeposits : t.census.deposits = r.census.deposits) (hentries : t.census.entries = r.census.entries) :
    t.Custody := by
  obtain ⟨hsublist, hnew⟩ := hr.taken_new htaken hnodup
  refine ⟨hwithin, ?_, ?_, ?_, ?_, ?_, ?_⟩
  · rwa [hcards, List.map_append]
  · rw [hdeposits]
    exact hr.single
  · rw [hdeposits, hcards, List.map_append]
    exact fun id hid => List.mem_append_left _ (hr.known id hid)
  · rw [hawaiting, hdeposits, hcards]
    intro p hp
    obtain hp | hp := Multiset.mem_add.mp hp
    · obtain ⟨card, hcard, hcredit, hnone⟩ := hr.awaiting p hp
      exact ⟨card, getElem?_append_of_eq_some hcard _, hcredit, hnone⟩
    · obtain rfl := Multiset.mem_singleton.mp hp
      exact ⟨(id, params), by simp [← length_cards], rfl, hnew⟩
  · rw [hdepositing, hdeposits, hcards]
    intro p hp
    obtain ⟨card, hcard, hdeposit⟩ := hr.depositing p hp
    exact ⟨card, getElem?_append_of_eq_some hcard _, hdeposit⟩
  · rw [hentries, hdeposits, hcards]
    intro i hi
    obtain ⟨card, deposit, accepted, hcard, hdeposit⟩ := hr.entered i hi
    exact ⟨card, deposit, accepted, getElem?_append_of_eq_some hcard _, hdeposit⟩

/-- An investor of a founding batch is built, and makes its deposit. -/
theorem fund {id : Identity} {params : Params} (hr : r.Custody)
    (hwithin : t.whereabouts ≤ Multiset.range t.investors.size) (hnodup : t.pipeline.taken.Nodup)
    (htaken : r.pipeline.taken ++ [id] <+: t.pipeline.taken) (hawaiting : t.awaiting = r.awaiting)
    (hdepositing : t.depositing = r.depositing + {(r.investors.size, r.deposits.size)})
    (hcards : t.census.cards = r.census.cards ++ [(id, params)])
    (hdeposits : t.census.deposits = r.census.deposits ++ [⟨id, params.credit, none⟩])
    (hentries : t.census.entries = r.census.entries) : t.Custody := by
  obtain ⟨hsublist, hnew⟩ := hr.taken_new htaken hnodup
  have hids : t.census.deposits.map Deposit.id = r.census.deposits.map Deposit.id ++ [id] := by
    rw [hdeposits, List.map_append]
    rfl
  refine ⟨hwithin, ?_, ?_, ?_, ?_, ?_, ?_⟩
  · rwa [hcards, List.map_append]
  · rw [hids]
    exact List.nodup_append_comm.mp (List.nodup_cons.mpr ⟨hnew, hr.single⟩)
  · rw [hids, hcards, List.map_append]
    intro other hother
    obtain hother | hother := List.mem_append.mp hother
    · exact List.mem_append_left _ (hr.known other hother)
    · exact List.mem_append_right _ hother
  · rw [hawaiting, hids, hcards]
    intro p hp
    obtain ⟨card, hcard, hcredit, hnone⟩ := hr.awaiting p hp
    refine ⟨card, getElem?_append_of_eq_some hcard _, hcredit, fun hmem => ?_⟩
    obtain hmem | hmem := List.mem_append.mp hmem
    · exact hnone hmem
    · have hdisjoint := List.disjoint_of_nodup_append (hnodup.sublist hsublist)
      exact hdisjoint (List.mem_map_of_mem (List.mem_of_getElem? hcard)) hmem
  · rw [hdepositing, hdeposits, hcards]
    intro p hp
    obtain hp | hp := Multiset.mem_add.mp hp
    · obtain ⟨card, hcard, hdeposit⟩ := hr.depositing p hp
      exact ⟨card, getElem?_append_of_eq_some hcard _, getElem?_append_of_eq_some hdeposit _⟩
    · obtain rfl := Multiset.mem_singleton.mp hp
      exact ⟨(id, params), by simp [← length_cards], by simp [← length_deposits]⟩
  · rw [hentries, hdeposits, hcards]
    intro i hi
    obtain ⟨card, deposit, accepted, hcard, hdeposit⟩ := hr.entered i hi
    exact ⟨card, deposit, accepted, getElem?_append_of_eq_some hcard _, getElem?_append_of_eq_some hdeposit _⟩

/-- An enrolment makes its deposit. -/
theorem deposit {credit : Int} (hr : r.Custody) (hcardsNodup : (r.census.cards.map Prod.fst).Nodup)
    (hwithin : t.whereabouts ≤ Multiset.range t.investors.size)
    (htaken : (r.census.cards.map Prod.fst).Sublist t.pipeline.taken)
    (hawaiting : r.awaiting = t.awaiting + {(i, credit)})
    (hdepositing : t.depositing = r.depositing + {(i, r.deposits.size)})
    (hcards : t.census.cards = r.census.cards)
    (hdeposits : t.census.deposits = r.census.deposits ++ [⟨r.identity i, credit, none⟩])
    (hentries : t.census.entries = r.census.entries) : t.Custody := by
  obtain ⟨card, hcard, hcredit, hnone⟩ := hr.awaiting (i, credit) (by simp [hawaiting])
  obtain rfl : credit = card.2.credit := hcredit
  rw [identity_eq hcard] at hdeposits
  have hids : t.census.deposits.map Deposit.id = r.census.deposits.map Deposit.id ++ [card.1] := by
    rw [hdeposits, List.map_append]
    rfl
  refine ⟨hwithin, by rwa [hcards], ?_, ?_, ?_, ?_, ?_⟩
  · rw [hids]
    exact List.nodup_append_comm.mp (List.nodup_cons.mpr ⟨hnone, hr.single⟩)
  · rw [hids, hcards]
    intro other hother
    obtain hother | hother := List.mem_append.mp hother
    · exact hr.known other hother
    · rw [List.mem_singleton.mp hother]
      exact List.mem_map_of_mem (List.mem_of_getElem? hcard)
  · rw [hids, hcards]
    intro p hp
    have hmem : p ∈ r.awaiting := by
      rw [hawaiting]
      exact Multiset.mem_add.mpr (.inl hp)
    obtain ⟨other, hother, hcredit, hunpaid⟩ := hr.awaiting p hmem
    have hne : p.1 ≠ i := ne_of_within hwithin hp (q := (i, r.deposits.size)) (by simp [hdepositing])
    refine ⟨other, hother, hcredit, fun hmem => ?_⟩
    obtain hmem | hmem := List.mem_append.mp hmem
    · exact hunpaid hmem
    · exact hne (eq_of_card hcardsNodup hother hcard (List.mem_singleton.mp hmem))
  · rw [hdepositing, hdeposits, hcards]
    intro p hp
    obtain hp | hp := Multiset.mem_add.mp hp
    · obtain ⟨other, hother, hdeposit⟩ := hr.depositing p hp
      exact ⟨other, hother, getElem?_append_of_eq_some hdeposit _⟩
    · obtain rfl := Multiset.mem_singleton.mp hp
      exact ⟨card, hcard, by simp [← length_deposits]⟩
  · rw [hentries, hdeposits, hcards]
    intro j hj
    obtain ⟨other, deposit, accepted, hother, hdeposit⟩ := hr.entered j hj
    exact ⟨other, deposit, accepted, hother, getElem?_append_of_eq_some hdeposit _⟩

theorem map_id_modify {deposits : List Deposit} {n : Nat} {outcome : Option Bool} :
    (deposits.modify n fun d => { d with outcome }).map Deposit.id = deposits.map Deposit.id := by
  refine List.ext_getElem? fun k => ?_
  rw [List.getElem?_map, List.getElem?_map, List.getElem?_modify]
  cases deposits[k]? with
  | none => rfl
  | some d =>
    by_cases hk : n = k <;> simp [hk]

/-- A deposit is decided, and its investor is entered. -/
theorem register {deposit : Nat} {accepted : Bool} (hr : r.Custody)
    (hcardsNodup : (r.census.cards.map Prod.fst).Nodup)
    (hwithin : t.whereabouts ≤ Multiset.range t.investors.size)
    (htaken : (r.census.cards.map Prod.fst).Sublist t.pipeline.taken)
    (hawaiting : t.awaiting = r.awaiting)
    (hdepositing : r.depositing = t.depositing + {(i, deposit)})
    (hcards : t.census.cards = r.census.cards)
    (hdeposits : t.census.deposits =
      r.census.deposits.modify deposit fun d => { d with outcome := some accepted })
    (hentries : t.census.entries = r.census.entries ++ [i]) : t.Custody := by
  obtain ⟨card, hcard, hmade⟩ := hr.depositing (i, deposit) (by simp [hdepositing])
  have hids : t.census.deposits.map Deposit.id = r.census.deposits.map Deposit.id := by
    rw [hdeposits, map_id_modify]
  have hkept {k : Nat} {d : Deposit} (hk : k ≠ deposit) (hd : r.census.deposits[k]? = some d) :
      t.census.deposits[k]? = some d := by
    rw [hdeposits, List.getElem?_modify, hd]
    simp [Ne.symm hk]
  refine ⟨hwithin, by rwa [hcards], by rw [hids]; exact hr.single, by rw [hids, hcards]; exact hr.known,
    by rw [hawaiting, hids, hcards]; exact hr.awaiting, ?_, ?_⟩
  · rw [hcards]
    intro p hp
    have hmem : p ∈ r.depositing := by
      rw [hdepositing]
      exact Multiset.mem_add.mpr (.inl hp)
    obtain ⟨other, hother, hdeposit⟩ := hr.depositing p hmem
    refine ⟨other, hother, hkept ?_ hdeposit⟩
    -- With the same deposit it would be the same investor, which would wait in two places.
    intro heq
    rw [heq] at hdeposit
    obtain ⟨hid, _⟩ := Deposit.mk.inj (Option.some.inj (hmade.symm.trans hdeposit))
    have hsame : i = p.1 := eq_of_card hcardsNodup hcard hother hid
    have hwaits : i ∈ t.depositing.map Prod.fst := by
      rw [hsame]
      exact Multiset.mem_map_of_mem _ hp
    have hnodup := nodup_depositing hr.within
    rw [hdepositing, Multiset.map_add, Multiset.map_singleton, Multiset.nodup_add] at hnodup
    exact Multiset.disjoint_left.mp hnodup.2.2 hwaits (Multiset.mem_singleton_self _)
  · rw [hentries, hcards]
    intro j hj
    obtain hj | hj := List.mem_append.mp hj
    · obtain ⟨other, k, earlier, hother, hdeposit⟩ := hr.entered j hj
      refine ⟨other, k, earlier, hother, hkept ?_ hdeposit⟩
      rintro rfl
      cases (Deposit.mk.inj (Option.some.inj (hmade.symm.trans hdeposit))).2.2
    · rw [List.mem_singleton.mp hj]
      refine ⟨card, deposit, accepted, hcard, ?_⟩
      rw [hdeposits, List.getElem?_modify, hmade]
      simp

end Custody

/-- A step keeps what is known of the investors, as long as nothing is taken twice. -/
theorem Flow.custody (h : Flow a r t) (hextends : r.pipeline.taken <+: t.pipeline.taken)
    (hnodup : t.pipeline.taken.Nodup) (hr : r.Custody) : t.Custody := by
  have hwithin := h.within hr.within
  have htaken := hr.taken.trans hextends.sublist
  have hcardsNodup := hnodup.sublist htaken
  cases h with
  | keep hawaiting hdepositing hcards hdeposits hentries =>
    obtain ⟨_, _, hsingle, hknown, hawaits, hdeposited, hentered⟩ := hr
    exact ⟨hwithin, by rwa [hcards], by rwa [hdeposits], by rwa [hcards, hdeposits],
      by rwa [hawaiting, hcards, hdeposits], by rwa [hdepositing, hcards, hdeposits],
      by rwa [hentries, hcards, hdeposits]⟩
  | lose _ hawaiting hdepositing hcards hdeposits hentries =>
    obtain ⟨_, _, hsingle, hknown, hawaits, hdeposited, hentered⟩ := hr
    refine ⟨hwithin, by rwa [hcards], by rwa [hdeposits], by rwa [hcards, hdeposits], ?_, ?_, ?_⟩
    · rw [hcards, hdeposits]
      exact fun p hp => hawaits p (Multiset.mem_of_le hawaiting hp)
    · rw [hcards, hdeposits]
      exact fun p hp => hdeposited p (Multiset.mem_of_le hdepositing hp)
    · rw [hcards, hdeposits]
      exact fun i hi => hentered i (hentries.subset hi)
  | recruit id params htook hawaiting hdepositing hcards hdeposits hentries =>
    exact hr.recruit hwithin hnodup htook hawaiting hdepositing hcards hdeposits hentries
  | fund id params htook hawaiting hdepositing hcards hdeposits hentries =>
    exact hr.fund hwithin hnodup htook hawaiting hdepositing hcards hdeposits hentries
  | deposit i credit hawaiting hdepositing hcards hdeposits hentries =>
    exact hr.deposit hcardsNodup hwithin htaken hawaiting hdepositing hcards hdeposits hentries
  | register i deposit accepted hawaiting hdepositing hcards hdeposits hentries =>
    exact hr.register hcardsNodup hwithin htaken hawaiting hdepositing hcards hdeposits hentries

theorem Becomes.taken_distinct {floor ceiling : Int} {capacity drawn : Nat}
    (hsource : Function.Injective scene.identity)
    (h : Becomes scene kind (fresh floor ceiling capacity drawn) r) :
    r.pipeline.taken.Nodup ∧
      ∀ id ∈ r.pipeline.taken, (id, true) ∈ r.pipeline.decided ∧ (id, false) ∉ r.pipeline.decided := by
  obtain ⟨acts, hacts⟩ := h.pipeline
  exact Pipeline.taken_distinct hsource hacts

theorem Becomes.custody {floor ceiling : Int} {capacity drawn : Nat}
    (hsource : Function.Injective scene.identity)
    (h : Becomes scene kind (fresh floor ceiling capacity drawn) r) (hwait : ∀ ms, kind (.wait ms)) :
    r.Custody := by
  refine h.keeps (fun s => s.pipeline.taken.Nodup → s.Custody) hwait ?_
    (fresh_prompt floor ceiling capacity drawn) (fun _ => fresh_custody floor ceiling capacity drawn)
    (h.taken_distinct hsource).1
  intro a s t _ hs hadvance hnodup
  exact hadvance.effect.flow.custody hadvance.taken hnodup (hs (hnodup.sublist hadvance.taken.sublist))

/-- Where no two members of a list share a key, a key finds one of them. -/
theorem filter_key_eq {α β : Type} [DecidableEq β] {key : α → β} {l : List α} {x : α}
    (hnodup : (l.map key).Nodup) (hx : x ∈ l) : l.filter (key · = key x) = [x] := by
  induction l with
  | nil => cases hx
  | cons y rest ih =>
    rw [List.map_cons, List.nodup_cons] at hnodup
    obtain ⟨hnew, hrest⟩ := hnodup
    obtain rfl | hx := List.mem_cons.mp hx
    · have hnone : rest.filter (key · = key x) = [] := by
        refine List.filter_eq_nil_iff.mpr fun z hz heq => hnew ?_
        rw [← of_decide_eq_true heq]
        exact List.mem_map_of_mem hz
      simp [hnone]
    · have hne : key y ≠ key x := fun heq => hnew (heq ▸ List.mem_map_of_mem hx)
      simp [hne, ih hrest hx]

/-- A step that enters an investor is the one that decides on the deposit of the investor. -/
theorem Flow.entry (h : Flow a r t) (hr : r.Custody) :
    t.registry.entries.Sublist r.registry.entries ∨ ∃ (i deposit : Nat) (v : Investor) (accepted : Bool),
      t.registry.entries = r.registry.entries ++ [i] ∧ r.investors[i]? = some v ∧
      r.deposits[deposit]? = some ⟨v.identity, v.credit, none⟩ ∧
      t.deposits[deposit]? = some ⟨v.identity, v.credit, some accepted⟩ := by
  have hsame (h : t.census.entries = r.census.entries) :
      t.registry.entries.Sublist r.registry.entries := by
    have hentries : t.registry.entries = r.registry.entries := h
    rw [hentries]
  cases h with
  | keep _ _ _ _ hentries => exact .inl (hsame hentries)
  | lose _ _ _ _ _ hentries => exact .inl hentries
  | recruit _ _ _ _ _ _ _ hentries => exact .inl (hsame hentries)
  | fund _ _ _ _ _ _ _ hentries => exact .inl (hsame hentries)
  | deposit _ _ _ _ _ _ hentries => exact .inl (hsame hentries)
  | register i deposit accepted _ hdepositing _ hdeposits hentries =>
    obtain ⟨card, hcard, hmade⟩ := hr.depositing (i, deposit) (by simp [hdepositing])
    obtain ⟨v, hv, rfl⟩ : ∃ v, r.investors[i]? = some v ∧ v.card = card := by
      simpa [census] using hcard
    refine .inr ⟨i, deposit, v, accepted, hentries, hv, ?_, ?_⟩
    · simpa [census, Investor.card, Investor.credit] using hmade
    · have hdecided : t.census.deposits[deposit]? = some ⟨v.identity, v.credit, some accepted⟩ := by
        rw [hdeposits, List.getElem?_modify, hmade]
        simp [Investor.card, Investor.credit]
      simpa [census] using hdecided

/-- Whatever calls and tasks fail or are given up, thrown away or never go on. Every investor in the
    registry has an identity that was registered, and taken for this investor alone. There is just one
    deposit for the identity, of the credit of the investor, and it has been decided: an investor is
    entered by the step that decides on the deposit made for it before. No investor is in the registry
    twice, and no identity has two deposits. -/
theorem entries_funded_once {floor ceiling : Int} {capacity drawn : Nat}
    (hsource : Function.Injective scene.identity)
    (h : Becomes scene (fun _ => True) (fresh floor ceiling capacity drawn) r) :
    (∀ i ∈ r.registry.entries, ∃ v accepted, r.investors[i]? = some v ∧
      (v.identity, true) ∈ r.pipeline.decided ∧ (v.identity, false) ∉ r.pipeline.decided ∧
      r.pipeline.taken.count v.identity = 1 ∧
      (∀ (k : Nat) w, r.investors[k]? = some w → w.identity = v.identity → k = i) ∧
      r.deposits.toList.filter (·.id = v.identity) = [⟨v.identity, v.credit, some accepted⟩]) ∧
    r.registry.entries.Nodup ∧ (r.deposits.toList.map Deposit.id).Nodup ∧
    ∀ a t, r.step scene a = some t → t.registry.entries.Sublist r.registry.entries ∨
      ∃ (i deposit : Nat) (v : Investor) (accepted : Bool),
        t.registry.entries = r.registry.entries ++ [i] ∧ r.investors[i]? = some v ∧
        r.deposits[deposit]? = some ⟨v.identity, v.credit, none⟩ ∧
        t.deposits[deposit]? = some ⟨v.identity, v.credit, some accepted⟩ := by
  have hcustody := h.custody hsource fun _ => trivial
  obtain ⟨hnodup, hregistered⟩ := h.taken_distinct hsource
  refine ⟨?_, hcustody.nodup_entries, hcustody.single, ?_⟩
  · intro i hi
    obtain ⟨card, deposit, accepted, hcard, hdeposit⟩ := hcustody.entered i hi
    obtain ⟨v, hv, rfl⟩ : ∃ v, r.investors[i]? = some v ∧ v.card = card := by
      simpa [census] using hcard
    have hid : v.identity ∈ r.pipeline.taken :=
      hcustody.taken.subset (List.mem_map_of_mem (List.mem_of_getElem? hcard))
    obtain ⟨haccepted, hrefused⟩ := hregistered _ hid
    refine ⟨v, accepted, hv, haccepted, hrefused, List.count_eq_one_of_mem hnodup hid, ?_, ?_⟩
    · intro k w hw hsame
      exact Custody.eq_of_card (hnodup.sublist hcustody.taken) (getElem?_cards hw) hcard hsame
    · exact filter_key_eq hcustody.single (List.mem_of_getElem? hdeposit)
  · intro a t hstep
    have hprompt := h.prompt (fresh_prompt floor ceiling capacity drawn)
    exact (step_effect hprompt hstep).flow.entry hcustody

theorem plain_injective (workers duration : Nat) :
    Function.Injective (Scene.plain workers duration).identity := by
  intro m n h
  have htokens : String.ofList (List.replicate m 'i') = String.ofList (List.replicate n 'i') :=
    congrArg Identity.token h
  simpa using congrArg (fun token => token.toList.length) htokens

/-- The investor of the founding batch is entered although its deposit failed, that of the next batch by
    a task after its own deposit. -/
theorem entries_funded_once_of_failed_deposit :
    let scene := Scene.plain 1 0
    let steps : List Step := [.produce, .enter .start, .proceed 0 none, .booted 0 .done, .decide true,
      .provide 0 none, .funded 0 false, .score 100, .enter .tick, .proceed 1 none, .decide true,
      .provide 1 none, .execute 1, .look 0, .enrol 0 true]
    ∃ r v accepted, (fresh 5 10 1 0).play scene steps = some r ∧ r.registry.entries = [0, 1] ∧
      r.deposits.toList.map Deposit.outcome = [some false, some true] ∧ r.investors[0]? = some v ∧
      r.pipeline.taken.count v.identity = 1 ∧
      r.deposits.toList.filter (·.id = v.identity) = [⟨v.identity, v.credit, some accepted⟩] := by
  intro scene steps
  have hplayed : ((fresh 5 10 1 0).play scene steps).map (fun r =>
      (r.registry.entries, r.deposits.toList.map Deposit.outcome)) =
      some ([0, 1], [some false, some true]) := by decide +kernel
  obtain ⟨r, hr, hvalues⟩ := Option.map_eq_some_iff.mp hplayed
  obtain ⟨hentries, houtcomes⟩ := Prod.mk.inj hvalues
  have hbecomes := becomes_of_play (fun _ _ => trivial) hr
  obtain ⟨hfunded, _⟩ := entries_funded_once (plain_injective 1 0) hbecomes
  obtain ⟨v, accepted, hv, _, _, htaken, _, hdeposit⟩ := hfunded 0 (by simp [hentries])
  exact ⟨r, v, accepted, hr, hentries, houtcomes, hv, htaken, hdeposit⟩

end ExchangeLoad.Run
