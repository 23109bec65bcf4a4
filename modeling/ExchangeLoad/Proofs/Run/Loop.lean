import ExchangeLoad.Proofs.Run.Moves

/-!
The steps of the timed loop, each by what it needs and what it comes to.
-/

namespace ExchangeLoad.Run

variable {scene : Scene} {r t : Run} {cause : Cause}

theorem drive_eq_some (h : r.drive scene = some t) :
    r.loop = .unstarted ∧ t = { r.enter .start true with
      loop := .starting r.controls.size
      deadline := r.now + 1000 * scene.schedule.duration } := by
  unfold drive at h
  split at h
  · next hloop => exact ⟨hloop, (Option.some.inj h).symm⟩
  · cases h

theorem tick_eq_some (h : r.tick scene = some t) :
    ∃ due, r.loop = .resting due ∧ due ≤ r.now ∧
      t = { r.enter .tick true with loop := .ticking r.controls.size (nextDue scene due r.now) } := by
  unfold tick at h
  split at h
  · next due hloop =>
    split at h
    · next hdue => exact ⟨due, hloop, hdue, (Option.some.inj h).symm⟩
    · cases h
  · cases h

/-- A call that failed ends the loop, with what the failure implies. After one that did not fail, the
    loop rests: after the start until now, after a tick until the next one is due. -/
theorem collect_eq_some (h : r.collect = some t) :
    ∃ c result, r.drivenCall = some c ∧ r.resultOf c = some result ∧
      ((∃ e, result = .error e ∧ t = { r with loop := .ended (.ofError e) r.now }) ∨
        ∃ due tasks, result = .ok tasks ∧ (due = r.now ∧ r.loop = .starting c ∨ r.loop = .ticking c due) ∧
          t = { r with loop := .resting due }) := by
  unfold collect at h
  obtain ⟨c, hc, hcollect⟩ := Option.bind_eq_some_iff.mp h
  obtain ⟨result, hresult, hrest⟩ := Option.bind_eq_some_iff.mp hcollect
  refine ⟨c, result, hc, hresult, ?_⟩
  unfold drivenCall at hc
  split at hrest
  · next e => exact .inl ⟨e, rfl, (Option.some.inj hrest).symm⟩
  · next tasks =>
    split at hc
    · next hloop =>
      obtain rfl := Option.some.inj hc
      simp only [hloop] at hrest
      exact .inr ⟨r.now, tasks, rfl, .inl ⟨rfl, hloop⟩, (Option.some.inj hrest).symm⟩
    · next due hloop =>
      obtain rfl := Option.some.inj hc
      simp only [hloop] at hrest
      exact .inr ⟨due, tasks, rfl, .inr hloop, (Option.some.inj hrest).symm⟩
    · cases hc

/-- The loop leaves for a cause that holds, with its call under way given up, if there is one. -/
theorem leave_eq_some (scene : Scene) (h : r.leave cause = some t) :
    r.driving = true ∧ r.holds cause = true ∧ ∃ s, t = { s with loop := .ended cause.outcome r.now } ∧
      (s = r ∨ ∃ c x, r.drivenCall = some c ∧ r.controls[c]? = some x ∧ CallMove scene c r x (.giveUp c) s) := by
  unfold leave at h
  split at h
  · next hready =>
    obtain ⟨hdriving, hholds⟩ := Bool.and_eq_true_iff.mp hready
    obtain rfl := Option.some.inj h
    refine ⟨hdriving, hholds, _, rfl, ?_⟩
    cases hstopped : r.drivenCall.bind r.giveUp with
    | none => exact .inl rfl
    | some s =>
      obtain ⟨c, hc, hgiveUp⟩ := Option.bind_eq_some_iff.mp hstopped
      obtain ⟨x, hx, hmove⟩ := giveUp_callMove hgiveUp
      exact .inr ⟨c, x, hc, hx, hmove⟩
  · cases h

end ExchangeLoad.Run
