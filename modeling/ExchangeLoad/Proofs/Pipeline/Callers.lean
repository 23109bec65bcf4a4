import ExchangeLoad.Proofs.Pipeline.History
import Mathlib.Data.List.Nodup

/-!
The callers of a pipeline. Tickets are told apart by the moment they were given out: every ticket
stands in line, or was answered once, or left for good.
-/

namespace ExchangeLoad.Pipeline

variable {source : Nat → Identity} {p q : Pipeline}

/-- The line and every answer are the same. -/
structure CallersKept (p q : Pipeline) : Prop where
  line : q.line = p.line
  tickets : q.tickets = p.tickets
  granted : q.granted = p.granted
  refused : q.refused = p.refused

theorem proceed_callersKept (p : Pipeline) (source : Nat → Identity) : CallersKept p (p.proceed source) := by
  unfold proceed
  split <;> exact ⟨rfl, rfl, rfl, rfl⟩

theorem offer_callersKept (p : Pipeline) (source : Nat → Identity) (id : Identity) :
    CallersKept p (p.offer source id) := by
  unfold offer
  split
  · exact ⟨rfl, rfl, rfl, rfl⟩
  split
  · obtain ⟨hline, htickets, hgranted, hrefused⟩ :=
      proceed_callersKept { p with buffer := p.buffer ++ [id] } source
    exact ⟨hline, htickets, hgranted, hrefused⟩
  · exact ⟨rfl, rfl, rfl, rfl⟩

theorem CallersKept.taken_extends (h : CallersKept p q) : p.taken <+: q.taken := by
  have hsame : q.taken = p.taken := by rw [taken, taken, h.granted]
  exact hsame ▸ List.prefix_refl _

theorem act_taken {a : Act} (h : p.act source a = some q) : p.taken <+: q.taken := by
  cases act_move h with
  | begin => exact (proceed_callersKept p source).taken_extends
  | @accept id _ _ =>
    exact (offer_callersKept { p with decided := p.decided.push (id, true) } source id).taken_extends
  | resume => exact (proceed_callersKept p source).taken_extends
  | retry => exact (offer_callersKept p source _).taken_extends
  | @grant ticket others first rest => exact ⟨[first], by simp [taken]⟩
  | _ => exact List.prefix_refl _

/-- What was taken stays taken, and in its place. -/
theorem play_taken {acts : List Act} (h : p.play source acts = some q) : p.taken <+: q.taken :=
  play_preserves (fun _ _ _ _ hs hact => List.IsPrefix.trans hs (act_taken hact)) (List.prefix_refl _) h

theorem take_taken {ticket : Nat} {id : Identity} (h : p.take ticket = some (q, some id)) :
    q.taken = p.taken ++ [id] := by
  unfold take at h
  split at h
  · split at h
    · obtain ⟨rfl, hid⟩ := Prod.mk.inj (Option.some.inj h)
      obtain rfl := Option.some.inj hid
      simp [taken]
    · split at h <;> simp at h
  · cases h

/-- The tickets that were answered, with an identity or with a refusal, and those in line. -/
def present (p : Pipeline) : List Nat := p.granted.toList.map (·.1) ++ p.refused.toList ++ p.line

/-- No ticket is answered twice, or answered and in line; and every one was given out. -/
def Orderly (p : Pipeline) : Prop := p.present.Nodup ∧ ∀ ticket ∈ p.present, ticket < p.tickets

theorem CallersKept.orderly (h : CallersKept p q) (hp : p.Orderly) : q.Orderly := by
  have hpresent : q.present = p.present := by rw [present, present, h.line, h.granted, h.refused]
  unfold Orderly
  rw [hpresent, h.tickets]
  exact hp

theorem Orderly.of_perm (hp : p.Orderly) (hperm : q.present.Perm p.present)
    (htickets : q.tickets = p.tickets) : q.Orderly := by
  refine ⟨hperm.nodup_iff.mpr hp.1, fun ticket hticket => ?_⟩
  rw [htickets]
  exact hp.2 ticket (hperm.mem_iff.mp hticket)

theorem join_orderly (hp : p.Orderly) : p.join.1.Orderly := by
  obtain ⟨hnodup, hissued⟩ := hp
  have hjoin : p.join.1.present = p.present ++ [p.tickets] := by simp [present, join]
  have hfresh : p.tickets ∉ p.present := fun hmem => Nat.lt_irrefl _ (hissued _ hmem)
  unfold Orderly
  rw [hjoin]
  refine ⟨?_, ?_⟩
  · rw [List.nodup_append]
    refine ⟨hnodup, List.nodup_singleton _, ?_⟩
    intro a ha b hb heq
    rw [List.mem_singleton] at hb
    exact hfresh (hb ▸ heq ▸ ha)
  · intro ticket hticket
    rw [List.mem_append, List.mem_singleton] at hticket
    change ticket < p.tickets + 1
    obtain hold | rfl := hticket
    · exact Nat.lt_succ_of_lt (hissued ticket hold)
    · exact Nat.lt_succ_self _

theorem leave_orderly (hp : p.Orderly) (ticket : Nat) : (p.leave ticket).Orderly := by
  have hsub : (p.leave ticket).present.Sublist p.present :=
    List.Sublist.append_left List.erase_sublist _
  exact ⟨hp.1.sublist hsub, fun t ht => hp.2 t (hsub.subset ht)⟩

theorem act_orderly {a : Act} (hp : p.Orderly) (h : p.act source a = some q) : q.Orderly := by
  cases act_move h with
  | idle => exact hp
  | begin => exact (proceed_callersKept p source).orderly hp
  | accept _ _ => exact (offer_callersKept _ source _).orderly hp
  | refuse => exact hp
  | resume => exact (proceed_callersKept p source).orderly hp
  | retry => exact (offer_callersKept p source _).orderly hp
  | cancel => exact hp
  | abandon => exact hp
  | join => exact join_orderly hp
  | leave ticket => exact leave_orderly hp ticket
  | @grant ticket others first rest hline _ =>
    refine hp.of_perm ?_ rfl
    simp only [present, hline, Array.toList_push, List.map_append, List.map_cons, List.map_nil,
      List.append_assoc]
    apply List.Perm.append_left
    simpa using (@List.perm_middle _ ticket p.refused.toList others).symm
  | dismiss hline _ _ =>
    refine hp.of_perm ?_ rfl
    simp [present, hline]

theorem fresh_orderly (capacity drawn : Nat) : (fresh capacity drawn).Orderly := by
  simp [Orderly, present, fresh]

/-- A caller left without an answer. -/
def Gone (p : Pipeline) (ticket : Nat) : Prop :=
  ticket < p.tickets ∧ ticket ∉ p.line ∧ ∀ id, (ticket, id) ∉ p.granted

theorem CallersKept.gone {ticket : Nat} (h : CallersKept p q) (hp : p.Gone ticket) : q.Gone ticket := by
  unfold Gone
  rw [h.line, h.tickets, h.granted]
  exact hp

theorem Orderly.leave_gone {ticket : Nat} (hp : p.Orderly) (hticket : ticket ∈ p.line) :
    (p.leave ticket).Gone ticket := by
  obtain ⟨hnodup, hissued⟩ := hp
  have hline : p.line.Nodup := (List.nodup_append.mp hnodup).2.1
  refine ⟨hissued ticket (List.mem_append_right _ hticket), ?_, ?_⟩
  · exact fun hmem => (List.Nodup.mem_erase_iff hline).mp hmem |>.1 rfl
  · intro id hgranted
    have hanswered : ticket ∈ p.granted.toList.map (·.1) ++ p.refused.toList :=
      List.mem_append_left _ (List.mem_map.mpr ⟨(ticket, id), Array.mem_toList_iff.mpr hgranted, rfl⟩)
    exact (List.nodup_append.mp hnodup).2.2 ticket hanswered ticket hticket rfl

/-- Nothing is ever handed to a caller who has left. -/
theorem act_gone {a : Act} {ticket : Nat} (hp : p.Gone ticket) (h : p.act source a = some q) :
    q.Gone ticket := by
  obtain ⟨hissued, hline, hgranted⟩ := hp
  cases act_move h with
  | idle => exact ⟨hissued, hline, hgranted⟩
  | begin => exact (proceed_callersKept p source).gone ⟨hissued, hline, hgranted⟩
  | accept _ _ => exact (offer_callersKept _ source _).gone ⟨hissued, hline, hgranted⟩
  | refuse => exact ⟨hissued, hline, hgranted⟩
  | resume => exact (proceed_callersKept p source).gone ⟨hissued, hline, hgranted⟩
  | retry => exact (offer_callersKept p source _).gone ⟨hissued, hline, hgranted⟩
  | cancel => exact ⟨hissued, hline, hgranted⟩
  | abandon => exact ⟨hissued, hline, hgranted⟩
  | join =>
    have hne : ticket ≠ p.tickets := Nat.ne_of_lt hissued
    exact ⟨Nat.lt_succ_of_lt hissued, by simpa [Pipeline.join, hne] using hline, hgranted⟩
  | leave other => exact ⟨hissued, fun hmem => hline (List.mem_of_mem_erase hmem), hgranted⟩
  | grant hhead _ =>
    rw [hhead, List.mem_cons, not_or] at hline
    refine ⟨hissued, hline.2, fun id hmem => ?_⟩
    obtain hold | heq := Array.mem_push.mp hmem
    · exact hgranted id hold
    · exact hline.1 (Prod.mk.inj heq).1
  | dismiss hhead _ _ =>
    rw [hhead, List.mem_cons, not_or] at hline
    exact ⟨hissued, hline.2, hgranted⟩

end ExchangeLoad.Pipeline
