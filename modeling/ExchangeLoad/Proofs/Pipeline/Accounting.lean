import ExchangeLoad.Proofs.Pipeline.Callers
import Mathlib.Data.List.Range

/-!
Where registered identities go. At every moment they are, in the order of registration, those that
were taken, those in the buffer, and at most one more: it waits for room, or the producer stopped
with it.
-/

namespace ExchangeLoad.Pipeline

variable {source : Nat → Identity} {p q : Pipeline}

/-- The registered identities beyond the buffer: one that waits for room, at most one that the
    producer stopped with, and none in any other case. -/
def Spare (p : Pipeline) (rest : List Identity) : Prop :=
  match p.producer with
  | .offering id => rest = [id]
  | .stopped => rest.length ≤ 1
  | _ => rest = []

/-- Every registered identity was taken, is in the buffer, or is spare, in this order. -/
def Accounted (p : Pipeline) : Prop :=
  ∃ rest, p.Spare rest ∧ p.taken ++ p.buffer ++ rest = p.registered

theorem Spare.length_le {rest : List Identity} (h : p.Spare rest) : rest.length ≤ 1 := by
  unfold Spare at h
  split at h
  · simp [h]
  · exact h
  · simp [h]

theorem Spare.producer_of_mem {rest : List Identity} (h : p.Spare rest) {id : Identity} (hid : id ∈ rest) :
    p.producer = .offering id ∨ p.producer = .stopped := by
  unfold Spare at h
  split at h
  · next actual hproducer =>
    obtain rfl : id = actual := by simpa [h] using hid
    exact .inl hproducer
  · next hproducer => exact .inr hproducer
  · simp [h] at hid

theorem proceed_accounted (h : p.taken ++ p.buffer = p.registered) : (p.proceed source).Accounted := by
  unfold proceed
  split <;> exact ⟨[], by simp [Spare], by simpa [taken, registered] using h⟩

theorem offer_accounted {id : Identity} (h : p.taken ++ p.buffer ++ [id] = p.registered) :
    (p.offer source id).Accounted := by
  unfold offer
  split
  · exact ⟨[id], by simp [Spare], by simpa [taken, registered] using h⟩
  split
  · apply proceed_accounted
    simpa [taken, registered] using h
  · exact ⟨[id], by simp [Spare], by simpa [taken, registered] using h⟩

theorem act_accounted {a : Act} (hp : p.Accounted) (h : p.act source a = some q) : q.Accounted := by
  obtain ⟨rest, hspare, heq⟩ := hp
  -- A producer that is neither offering nor stopped has nothing to spare.
  have hall (hnone : rest = []) : p.taken ++ p.buffer = p.registered := by simpa [hnone] using heq
  cases act_move h with
  | idle => exact ⟨rest, hspare, heq⟩
  | begin hproducer => exact proceed_accounted (hall (by simpa [Spare, hproducer] using hspare))
  | @accept id _ hproducer =>
    have hnone : rest = [] := by simpa [Spare, hproducer] using hspare
    apply offer_accounted
    simpa [taken, registered] using congrArg (· ++ [id]) (hall hnone)
  | refuse _ next hproducer hnext =>
    have hnone : rest = [] := by simpa [Spare, hproducer] using hspare
    refine ⟨[], ?_, by simpa [taken, registered] using hall hnone⟩
    obtain ⟨_, rfl⟩ | ⟨_, rfl⟩ := hnext <;> simp [Spare]
  | resume _ hproducer _ => exact proceed_accounted (hall (by simpa [Spare, hproducer] using hspare))
  | retry _ hproducer _ =>
    obtain rfl : rest = [_] := by simpa [Spare, hproducer] using hspare
    exact offer_accounted heq
  | cancel => exact ⟨rest, hspare, heq⟩
  | abandon => exact ⟨rest, hspare.length_le, heq⟩
  | join => exact ⟨rest, hspare, heq⟩
  | leave => exact ⟨rest, hspare, heq⟩
  | grant _ hbuffer => exact ⟨rest, hspare, by simpa [taken, registered, hbuffer] using heq⟩
  | dismiss => exact ⟨rest, hspare, heq⟩

theorem fresh_accounted (capacity drawn : Nat) : (fresh capacity drawn).Accounted :=
  ⟨[], by simp [Spare, fresh], by simp [fresh, taken, registered]⟩

/-- The identities on which the bank decided, oldest first. -/
def judged (p : Pipeline) : List Identity := p.decided.toList.map (·.1)

/-- Identities go to the bank in the order in which they are drawn, each draw once; the last one may
    be under way, and one that is not decided when the producer is ended never is. -/
def InDrawingOrder (source : Nat → Identity) (p : Pipeline) : Prop :=
  match p.producer with
  | .registering id => (p.judged ++ [id]).Sublist ((List.range p.drawn).map source)
  | _ => p.judged.Sublist ((List.range p.drawn).map source)

theorem InDrawingOrder.judged (h : p.InDrawingOrder source) :
    p.judged.Sublist ((List.range p.drawn).map source) := by
  unfold InDrawingOrder at h
  split at h
  · exact (List.sublist_append_left _ _).trans h
  · exact h

theorem InDrawingOrder.registering {id : Identity} (h : p.InDrawingOrder source)
    (hproducer : p.producer = .registering id) :
    (p.judged ++ [id]).Sublist ((List.range p.drawn).map source) := by
  simpa [InDrawingOrder, hproducer] using h

theorem proceed_inDrawingOrder (h : p.judged.Sublist ((List.range p.drawn).map source)) :
    (p.proceed source).InDrawingOrder source := by
  unfold proceed
  split
  · exact h
  · change (p.judged ++ [source p.drawn]).Sublist ((List.range (p.drawn + 1)).map source)
    rw [List.range_succ, List.map_append]
    exact List.Sublist.append h (List.Sublist.refl _)

theorem offer_inDrawingOrder {id : Identity} (h : p.judged.Sublist ((List.range p.drawn).map source)) :
    (p.offer source id).InDrawingOrder source := by
  unfold offer
  split
  · exact h
  split
  · exact proceed_inDrawingOrder h
  · exact h

theorem act_inDrawingOrder {a : Act} (hp : p.InDrawingOrder source) (h : p.act source a = some q) :
    q.InDrawingOrder source := by
  have hpush {id : Identity} (accepted : Bool) (hproducer : p.producer = .registering id) :
      ({ p with decided := p.decided.push (id, accepted) } : Pipeline).judged.Sublist
        ((List.range p.drawn).map source) := by
    simpa [Pipeline.judged] using hp.registering hproducer
  cases act_move h with
  | idle => exact hp
  | begin => exact proceed_inDrawingOrder hp.judged
  | accept _ hproducer => exact offer_inDrawingOrder (hpush true hproducer)
  | refuse _ next hproducer hnext =>
    obtain ⟨_, rfl⟩ | ⟨_, rfl⟩ := hnext <;> exact hpush false hproducer
  | resume => exact proceed_inDrawingOrder hp.judged
  | retry => exact offer_inDrawingOrder hp.judged
  | cancel => exact hp
  | abandon => exact hp.judged
  | join => exact hp
  | leave => exact hp
  | grant => exact hp
  | dismiss => exact hp

theorem fresh_inDrawingOrder (capacity drawn : Nat) : (fresh capacity drawn).InDrawingOrder source :=
  List.nil_sublist _

/-- With a source that never repeats itself, the bank decides on no identity twice. -/
theorem InDrawingOrder.nodup (h : p.InDrawingOrder source) (hsource : Function.Injective source) :
    p.judged.Nodup :=
  (List.nodup_range.map hsource).sublist h.judged

theorem registered_sublist (p : Pipeline) : p.registered.Sublist p.judged :=
  List.Sublist.map _ List.filter_sublist

theorem mem_registered {id : Identity} : id ∈ p.registered ↔ (id, true) ∈ p.decided := by
  simp [registered]

/-- The producer was stopped only if somebody cancelled it. -/
def StoppedByCancel (p : Pipeline) : Prop := p.producer = .stopped → p.cancelled = true

theorem proceed_stoppedByCancel : (p.proceed source).StoppedByCancel := by
  unfold proceed StoppedByCancel
  split <;> simp_all

theorem offer_stoppedByCancel {id : Identity} : (p.offer source id).StoppedByCancel := by
  unfold offer
  split
  · next hcancelled => exact fun _ => hcancelled
  split
  · exact proceed_stoppedByCancel
  · simp [StoppedByCancel]

theorem act_stoppedByCancel {a : Act} (ha : a ≠ .abandon) (hp : p.StoppedByCancel)
    (h : p.act source a = some q) : q.StoppedByCancel := by
  cases act_move h with
  | idle => exact hp
  | begin => exact proceed_stoppedByCancel
  | accept => exact offer_stoppedByCancel
  | refuse _ next _ hnext =>
    obtain ⟨hcancelled, rfl⟩ | ⟨_, rfl⟩ := hnext
    · exact fun _ => hcancelled
    · simp [StoppedByCancel]
  | resume => exact proceed_stoppedByCancel
  | retry => exact offer_stoppedByCancel
  | cancel => exact fun _ => rfl
  | abandon => exact absurd rfl ha
  | join => exact hp
  | leave => exact hp
  | grant => exact hp
  | dismiss => exact hp

/-- With a source that never repeats itself, nothing is taken twice, and whatever is taken was registered
    and never refused. -/
theorem taken_distinct {capacity drawn : Nat} {acts : List Act} (hsource : Function.Injective source)
    (h : (fresh capacity drawn).play source acts = some p) :
    p.taken.Nodup ∧ ∀ id ∈ p.taken, (id, true) ∈ p.decided ∧ (id, false) ∉ p.decided := by
  obtain ⟨rest, -, heq⟩ : p.Accounted :=
    play_preserves (fun _ _ _ _ hs => act_accounted hs) (fresh_accounted capacity drawn) h
  have hdrawing : p.InDrawingOrder source :=
    play_preserves (fun _ _ _ _ hs => act_inDrawingOrder hs) (fresh_inDrawingOrder capacity drawn) h
  have hjudged := hdrawing.nodup hsource
  have htaken : p.taken.Sublist p.registered := by
    rw [← heq, List.append_assoc]
    exact List.sublist_append_left _ _
  refine ⟨hjudged.sublist (htaken.trans p.registered_sublist), fun id hid => ?_⟩
  have haccepted := mem_registered.mp (htaken.subset hid)
  refine ⟨haccepted, fun hrefused => ?_⟩
  have hpair : ((id, true) : Identity × Bool) = (id, false) :=
    List.inj_on_of_nodup_map hjudged (Array.mem_toList_iff.mpr haccepted)
      (Array.mem_toList_iff.mpr hrefused) rfl
  cases hpair

/-- In every history, the identities taken, then those in the buffer, then at most one more are the
    registered ones in the order of registration. The one more waits for room, or the producer was
    cancelled or ended with it. No ticket is answered twice, and nothing is ever handed to a caller
    who left the line. With a source that never repeats itself, no identity is taken twice and none
    whose registration failed is taken at all. -/
theorem taken_buffer_rest_eq_registered {capacity drawn : Nat} {acts : List Act}
    (h : (fresh capacity drawn).play source acts = some p) :
    (∃ rest, p.taken ++ p.buffer ++ rest = p.registered ∧ rest.length ≤ 1 ∧
      ∀ id ∈ rest, p.producer = .offering id ∨
        p.producer = .stopped ∧ (p.cancelled = true ∨ .abandon ∈ acts)) ∧
    (p.granted.toList.map (·.1) ++ p.refused.toList ++ p.line).Nodup ∧
    (∀ ticket ∈ p.line, ∀ more q, (p.leave ticket).play source more = some q →
      ∀ id, (ticket, id) ∉ q.granted) ∧
    (Function.Injective source → p.taken.Nodup ∧ ∀ id ∈ p.taken, (id, false) ∉ p.decided) := by
  have haccounted : p.Accounted :=
    play_preserves (fun _ _ _ _ hs => act_accounted hs) (fresh_accounted capacity drawn) h
  have horderly : p.Orderly :=
    play_preserves (fun _ _ _ _ hs => act_orderly hs) (fresh_orderly capacity drawn) h
  have hdrawing : p.InDrawingOrder source :=
    play_preserves (fun _ _ _ _ hs => act_inDrawingOrder hs) (fresh_inDrawingOrder capacity drawn) h
  obtain ⟨rest, hspare, heq⟩ := haccounted
  refine ⟨⟨rest, heq, hspare.length_le, ?_⟩, horderly.1, ?_, ?_⟩
  · intro id hid
    obtain hoffering | hstopped := hspare.producer_of_mem hid
    · exact .inl hoffering
    refine .inr ⟨hstopped, ?_⟩
    by_cases habandon : Act.abandon ∈ acts
    · exact .inr habandon
    · have hcancel : p.StoppedByCancel :=
        play_preserves (fun s a t ha hs => act_stoppedByCancel (ne_of_mem_of_not_mem ha habandon) hs)
          (by simp [StoppedByCancel, fresh]) h
      exact .inl (hcancel hstopped)
  · intro ticket hticket more q hq
    have hgone : q.Gone ticket :=
      play_preserves (fun _ _ _ _ hs => act_gone hs) (horderly.leave_gone hticket) hq
    exact hgone.2.2
  · intro hsource
    have hjudged := hdrawing.nodup hsource
    have htaken : p.taken.Sublist p.registered := by
      rw [← heq, List.append_assoc]
      exact List.sublist_append_left _ _
    refine ⟨hjudged.sublist (htaken.trans p.registered_sublist), ?_⟩
    intro id hid hfailed
    have haccepted := mem_registered.mp (htaken.subset hid)
    have hpair : ((id, true) : Identity × Bool) = (id, false) :=
      List.inj_on_of_nodup_map hjudged (Array.mem_toList_iff.mpr haccepted)
        (Array.mem_toList_iff.mpr hfailed) rfl
    cases hpair

/-- The first registration fails, a caller leaves before another one is served, and the producer is
    cancelled while an identity waits for room: it is the one that is neither taken nor buffered. -/
theorem taken_buffer_rest_of_cancelled_offer :
    let source : Nat → Identity := fun n => ⟨String.ofList (List.replicate n 'i')⟩
    let acts : List Act := [.run, .decide false 5, .wake 5, .decide true 0, .join, .join, .decide true 0,
      .leave 0, .cancel, .wake 6, .take 1]
    ∃ p, (fresh 1 0).play source acts = some p ∧ p.producer = .stopped ∧ p.granted = #[(1, source 1)] ∧
      p.registered = [source 1, source 2] ∧
      ∃ rest, p.taken ++ p.buffer ++ rest = p.registered ∧ rest.length ≤ 1 := by
  intro source acts
  refine ⟨_, rfl, rfl, rfl, rfl, ?_⟩
  obtain ⟨⟨rest, heq, hlength, _⟩, _⟩ := @taken_buffer_rest_eq_registered source _ 1 0 acts rfl
  exact ⟨rest, heq, hlength⟩

end ExchangeLoad.Pipeline
