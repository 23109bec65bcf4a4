import ExchangeLoad.Proofs.Run.Muster

/-!
Where those come from who are to be enrolled by a task. A tick gathers an enrolment only for an investor
that it has just built for a level; from then on the enrolment changes hands, is thrown away, or is carried
out, and names the same investor. An investor of a founding batch is never enrolled by a task.
-/

namespace ExchangeLoad

/-- Whether an investor was built for a founding batch. -/
def Origin.founds : Origin → Bool
  | founding .. => true
  | rising .. => false

namespace Run

/-- The enrolments that calls have gathered, that are held, or that are or were in execution. -/
def enrolling (r : Run) : Multiset (Nat × Int) := r.tally (·.enrolment?.toList) (·.task.enrolment?.toList)

/-- Every investor has an origin, and none that a task enrols was built for a founding batch. -/
structure Chartered (r : Run) : Prop where
  origins : r.census.origins.length = r.investors.size
  enrolling : ∀ p ∈ r.enrolling, ∃ o, r.census.origins[p.1]? = some o ∧ o.founds = false

variable {scene : Scene} {c : Nat} {r t : Run} {x y : Control} {a : Step}

/-- Work that is told by its task alone grows with calls only. -/
theorem Effect.tally_le {β : Type} (f : Task → List β) (h : Effect scene a r t) :
    (∃ c x y, r.controls[c]? = some x ∧ Turn scene c r x t y) ∨
    t.tally f (fun e => f e.task) ≤ r.tally f (fun e => f e.task) := by
  cases h with
  | turn c x y hx h => exact .inl ⟨c, x, y, hx, h⟩
  | aside h =>
    obtain ⟨hcontrols, _, hheld, hexecutions, _⟩ := by simpa [affairs] using h
    right
    rw [tally, tally, hcontrols, hheld, hexecutions]
  | stint e x y hx h =>
    have hcontrols : t.controls = r.controls := congrArg Backdrop.controls h.backdrop
    have hheld : t.held = r.held := congrArg Backdrop.held h.backdrop
    have hsum := tally_of_execution (f := f) (g := fun e => f e.task) hcontrols hheld h.executions hx
    rw [h.task] at hsum
    exact .inr (add_right_cancel hsum).le
  | enter command driven h =>
    obtain ⟨hcontrols, _, hheld, hexecutions, _⟩ := by simpa [affairs] using h
    right
    rw [tally, tally, hcontrols, hheld, hexecutions]
    simp [Stand.tasks]
  | launch place task submitted htask h =>
    obtain ⟨hcontrols, _, hheld, hexecutions, _⟩ := by simpa [affairs] using h
    exact .inr (tally_launch (fun _ _ _ => rfl) htask hcontrols hheld hexecutions).le
  | discard place _ h =>
    obtain ⟨hcontrols, _, hheld, hexecutions, _⟩ := by simpa [affairs] using h
    exact .inr (tally_discard _ hcontrols hheld hexecutions)
  | remove _ _ h =>
    obtain ⟨hcontrols, _, hheld, hexecutions, _⟩ := by simpa [affairs] using h
    right
    rw [tally, tally, hcontrols, hheld, hexecutions]

/-- A call gathers an enrolment only for an investor that it has just built for a level. -/
theorem Turn.recruits (h : Turn scene c r x t y) :
    (enrolments y.stand.outlay).Sublist (enrolments x.stand.outlay) ∨
    ∃ credit level price slot, enrolments y.stand.outlay =
      enrolments x.stand.outlay ++ [(r.investors.size, credit)] ∧
      t.census.origins = r.census.origins ++ [.rising c level price slot] := by
  have hsame (houtlay : enrolments y.stand.outlay = enrolments x.stand.outlay) :
      (enrolments y.stand.outlay).Sublist (enrolments x.stand.outlay) :=
    houtlay ▸ List.Sublist.refl _
  cases h.deed with
  | fail e hstand => exact .inl (by rw [hstand]; exact List.nil_sublist _)
  | drop hstand => exact .inl (by rw [hstand]; exact List.nil_sublist _)
  | boot guest hbefore _ _ hstand => exact .inl (hsame (by rw [hbefore, hstand]; rfl))
  | found guest hbefore hslot => exact .inl (hsame (by rw [hslot.outlay.1, hbefore]; rfl))
  | fund slot ticket tasks id hbefore hstand => exact .inl (hsame (by rw [hbefore, hstand]; rfl))
  | register slot i deposit tasks started accepted hbefore hjobs hslot =>
    refine .inl (hsame ?_)
    rw [hslot.outlay.1, hbefore, enrolments_append, hjobs, List.append_nil]
    rfl
  | tick tasks hbefore _ _ hjobs _ hweighed =>
    exact .inl (hsame (by rw [hweighed.outlay.1, hjobs, hbefore]; rfl))
  | recruit climb slot ticket next id hbefore _ hstand _ _ hcensus =>
    refine .inr ⟨(Batch.rising r.level climb.price slot).credit, r.level, climb.price, slot, ?_,
      by rw [hcensus]; rfl⟩
    rw [hbefore, hstand]
    exact enrolments_append ..
  | complete climb slot ticket id hbefore _ _ _ hweighed =>
    refine .inr ⟨(Batch.rising r.level climb.price slot).credit, r.level, climb.price, slot, ?_,
      congrArg Prod.fst hweighed.built⟩
    rw [hweighed.outlay.1, hbefore]
    exact enrolments_append ..
  | weigh climb hbefore _ hweighed => exact .inl (hsame (by rw [hweighed.outlay.1, hbefore]; rfl))

/-- A step brings one enrolment, of an investor just built for a level, or none. -/
theorem Effect.recruits (h : Effect scene a r t) : t.enrolling ≤ r.enrolling ∨
    ∃ credit c level price slot, t.enrolling = r.enrolling + {(r.investors.size, credit)} ∧
      t.census.origins = r.census.origins ++ [.rising c level price slot] := by
  obtain ⟨c, x, y, hx, hturn⟩ | hle := h.tally_le (·.enrolment?.toList)
  · have henrolments (tasks : List Task) : tasks.flatMap (·.enrolment?.toList) = enrolments tasks :=
      (List.filterMap_eq_flatMap_toList ..).symm
    obtain hsublist | ⟨credit, level, price, slot, hgain, horigins⟩ := hturn.recruits
    · have hsum := hturn.tally (f := (·.enrolment?.toList)) (g := (·.task.enrolment?.toList))
        (fun _ _ _ => rfl) hx
      rw [henrolments, henrolments] at hsum
      refine .inl (le_of_add_le_add_right (hsum.le.trans ?_))
      exact add_le_add_right hsublist.subperm _
    · refine .inr ⟨credit, c, level, price, slot, ?_, horigins⟩
      exact hturn.tally_of_gain (fun _ _ _ => rfl) [(r.investors.size, credit)] hx
        (by rw [henrolments, henrolments, hgain])
  · exact .inl hle

/-- A step builds one investor or none, and notes down why. -/
theorem Effect.built (h : Effect scene a r t) :
    (t.census.origins, t.census.cards) = (r.census.origins, r.census.cards) ∨ ∃ o card,
      (t.census.origins, t.census.cards) = (r.census.origins ++ [o], r.census.cards ++ [card]) := by
  obtain ⟨c, x, y, _, hturn⟩ | hidle := h.calls
  · obtain hsame | ⟨o, id, _, _, hbuilt⟩ := hturn.built
    · exact .inl hsame
    · exact .inr ⟨o, (id, o.params), hbuilt⟩
  · exact .inl (by rw [hidle.origins, hidle.cards])

theorem Effect.origin_kept {i : Nat} {o : Origin} (h : Effect scene a r t)
    (ho : r.census.origins[i]? = some o) : t.census.origins[i]? = some o := by
  obtain hsame | ⟨o', card, hbuilt⟩ := h.built
  · rw [(Prod.mk.inj hsame).1, ho]
  · obtain ⟨hi, -⟩ := List.getElem?_eq_some_iff.mp ho
    rw [(Prod.mk.inj hbuilt).1, List.getElem?_append_left hi, ho]

theorem Effect.chartered (h : Effect scene a r t) (hr : r.Chartered) : t.Chartered := by
  constructor
  · rw [← length_cards]
    have hsize := hr.origins
    rw [← length_cards] at hsize
    obtain hsame | ⟨o, card, hbuilt⟩ := h.built
    · obtain ⟨horigins, hcards⟩ := Prod.mk.inj hsame
      rw [horigins, hcards, hsize]
    · obtain ⟨horigins, hcards⟩ := Prod.mk.inj hbuilt
      rw [horigins, hcards, List.length_append, List.length_append, hsize]
      rfl
  · intro p hp
    have hkept (hp : p ∈ r.enrolling) : ∃ o, t.census.origins[p.1]? = some o ∧ o.founds = false := by
      obtain ⟨o, ho, hfounds⟩ := hr.enrolling p hp
      exact ⟨o, h.origin_kept ho, hfounds⟩
    obtain hle | ⟨credit, c, level, price, slot, hgain, horigins⟩ := h.recruits
    · exact hkept (Multiset.mem_of_le hle hp)
    · rw [hgain, Multiset.mem_add, Multiset.mem_singleton] at hp
      obtain hp | rfl := hp
      · exact hkept hp
      · refine ⟨.rising c level price slot, ?_, rfl⟩
        rw [horigins, ← hr.origins]
        exact List.getElem?_concat_length ..

end Run

end ExchangeLoad
