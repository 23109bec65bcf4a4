import ExchangeLoad.Proofs.Pipeline.Accounting

/-!
How far the producer runs ahead of the callers. An identity is registered before there is room for it,
so the producer is ahead by the buffer and one more, and no further; at a bank that accepts everything
it gets that far again after every caller it serves, before any time passes.
-/

namespace ExchangeLoad.Pipeline

variable {source : Nat → Identity} {p q : Pipeline}

/-- How many registrations are under way. -/
def underWay (p : Pipeline) : Nat :=
  match p.producer with
  | .registering _ => 1
  | _ => 0

/-- How many registered identities wait for room. -/
def held (p : Pipeline) : Nat :=
  match p.producer with
  | .offering _ => 1
  | _ => 0

/-- Somebody ran the producer, and it has not stopped. -/
def Running (p : Pipeline) : Prop := p.producer ≠ .unstarted ∧ p.producer ≠ .stopped

/-- The capacity is as it was, and the buffer keeps to it. -/
def Within (capacity : Nat) (p : Pipeline) : Prop :=
  p.capacity = capacity ∧ p.buffer.length ≤ max capacity 1

theorem Within.room {capacity : Nat} (h : p.Within capacity) : p.room = max capacity 1 := by
  rw [Pipeline.room, h.1]

theorem hasRoom_iff : p.hasRoom = true ↔ p.buffer.length < p.room := by simp [hasRoom]

theorem proceed_within {capacity : Nat} (hp : p.Within capacity) : (p.proceed source).Within capacity := by
  unfold proceed
  split <;> exact hp

theorem offer_within {capacity : Nat} {id : Identity} (hp : p.Within capacity) :
    (p.offer source id).Within capacity := by
  unfold offer
  split
  · exact hp
  split
  · next hroom =>
    have hlt : p.buffer.length < max capacity 1 := hp.room ▸ hasRoom_iff.mp hroom
    apply proceed_within
    refine ⟨hp.1, ?_⟩
    rw [List.length_append, List.length_singleton]
    omega
  · exact hp

theorem act_within {capacity : Nat} {a : Act} (hp : p.Within capacity) (h : p.act source a = some q) :
    q.Within capacity := by
  cases act_move h with
  | begin => exact proceed_within hp
  | accept => exact offer_within hp
  | resume => exact proceed_within hp
  | retry => exact offer_within hp
  | grant _ hbuffer =>
    obtain ⟨hcapacity, hlength⟩ := hp
    rw [hbuffer, List.length_cons] at hlength
    exact ⟨hcapacity, Nat.le_of_succ_le hlength⟩
  | _ => exact hp

theorem fresh_within (capacity drawn : Nat) : (fresh capacity drawn).Within capacity :=
  ⟨rfl, Nat.zero_le _⟩

/-- An identity beyond the buffer excludes a registration under way. -/
theorem Spare.length_add_underWay {rest : List Identity} (h : p.Spare rest) : rest.length + p.underWay ≤ 1 := by
  have hlength := h.length_le
  cases hproducer : p.producer with
  | registering id =>
    have hnone : rest = [] := by simpa [Spare, hproducer] using h
    simp [underWay, hproducer, hnone]
  | _ => simpa [underWay, hproducer] using hlength

theorem Accounted.ahead_le {capacity : Nat} (h : p.Accounted) (hp : p.Within capacity) :
    p.registered.length + p.underWay ≤ p.taken.length + (max capacity 1 + 1) := by
  obtain ⟨rest, hspare, heq⟩ := h
  have hrest := hspare.length_add_underWay
  have hbuffer := hp.2
  have hlength := congrArg List.length heq
  rw [List.length_append, List.length_append] at hlength
  omega

/-- What goes on at once, at a bank that accepts everything. -/
def Timely (now : Nat) : Act → Prop
  | .decide accepted _ => accepted = true
  | .wake t => t = now
  | .take _ => True
  | _ => False

/-- Nothing goes on before time passes. -/
def Still (source : Nat → Identity) (now : Nat) (p : Pipeline) : Prop :=
  ∀ a, Timely now a → p.act source a = none

theorem Still.full {now : Nat} (h : p.Still source now) (hrunning : p.Running)
    (hpausing : ∀ wake, p.producer ≠ .pausing wake) :
    (∃ id, p.producer = .offering id) ∧ p.cancelled = false ∧ p.room ≤ p.buffer.length := by
  cases hproducer : p.producer with
  | unstarted => exact absurd hproducer hrunning.1
  | registering id => simpa [act, decide, hproducer] using h (.decide true 0) rfl
  | pausing wake => exact absurd hproducer (hpausing wake)
  | offering id =>
    have hblocked : p.canWake now = false := by
      have hnone : p.wake source now = none := h (.wake now) rfl
      by_contra hwake
      rw [Bool.not_eq_false] at hwake
      simp [wake, hproducer, hwake] at hnone
    simp only [canWake, hproducer, Bool.or_eq_false_iff] at hblocked
    obtain ⟨hcancelled, hroom⟩ := hblocked
    refine ⟨⟨id, rfl⟩, hcancelled, ?_⟩
    simpa [hasRoom] using hroom
  | stopped => exact absurd hproducer hrunning.2

/-- With a full buffer and nobody in line, nothing goes on at once. -/
theorem still_of_full {now : Nat} {id : Identity} (hproducer : p.producer = .offering id)
    (huncancelled : p.cancelled = false) (hfull : p.hasRoom = false) (hline : p.line = []) :
    p.Still source now := by
  intro a ha
  cases a with
  | decide => simp [act, decide, hproducer]
  | wake => simp [act, wake, canWake, hproducer, huncancelled, hfull]
  | take => simp [act, take, hline]
  | _ => exact ha.elim

theorem Accounted.ahead_eq {capacity now : Nat} (h : p.Accounted) (hp : p.Within capacity)
    (hstill : p.Still source now) (hrunning : p.Running) (hpausing : ∀ wake, p.producer ≠ .pausing wake) :
    p.registered.length + p.underWay = p.taken.length + (max capacity 1 + 1) := by
  obtain ⟨⟨id, hproducer⟩, -, hfull⟩ := hstill.full hrunning hpausing
  obtain ⟨rest, hspare, heq⟩ := h
  have hrest : rest = [id] := by simpa [Spare, hproducer] using hspare
  have hunderWay : p.underWay = 0 := by simp [underWay, hproducer]
  have hbuffer := hp.2
  rw [hp.room] at hfull
  have hlength := congrArg List.length heq
  rw [List.length_append, List.length_append, hrest, List.length_singleton] at hlength
  omega

theorem proceed_not_pausing (wake : Nat) : (p.proceed source).producer ≠ .pausing wake := by
  unfold proceed
  split <;> simp

theorem offer_not_pausing {id : Identity} (wake : Nat) : (p.offer source id).producer ≠ .pausing wake := by
  unfold offer
  split
  · simp
  split
  · exact proceed_not_pausing wake
  · simp

/-- Only a registration that failed makes the producer pause. -/
theorem act_not_pausing {a : Act} (ha : ∀ pause, a ≠ .decide false pause)
    (hp : ∀ wake, p.producer ≠ .pausing wake) (h : p.act source a = some q) (wake : Nat) :
    q.producer ≠ .pausing wake := by
  cases act_move h with
  | begin => exact proceed_not_pausing wake
  | accept => exact offer_not_pausing wake
  | refuse pause => exact absurd rfl (ha pause)
  | resume => exact proceed_not_pausing wake
  | retry => exact offer_not_pausing wake
  | abandon => simp
  | _ => exact hp wake

/-- How much can go on before time passes: a registration fills a place of the buffer and may have to
    wait for room, and every caller in line clears a place. -/
def slack (p : Pipeline) : Nat :=
  2 * (p.room + 1 - (p.buffer.length + p.held)) + 3 * p.line.length +
    match p.producer with
    | .offering _ | .pausing _ => 1
    | _ => 0

/-- A producer at work that nobody cancelled. -/
structure AtWork (capacity : Nat) (p : Pipeline) : Prop where
  running : p.Running
  uncancelled : p.cancelled = false
  within : p.Within capacity

theorem proceed_of_uncancelled (h : p.cancelled = false) :
    p.proceed source = { p with producer := .registering (source p.drawn), drawn := p.drawn + 1 } := by
  simp [proceed, h]

theorem offer_of_hasRoom {id : Identity} (h : p.cancelled = false) (hroom : p.hasRoom = true) :
    p.offer source id = { p with
      buffer := p.buffer ++ [id], producer := .registering (source p.drawn), drawn := p.drawn + 1 } := by
  simp [offer, proceed, h, hroom]

theorem offer_of_full {id : Identity} (h : p.cancelled = false) (hroom : p.hasRoom = false) :
    p.offer source id = { p with producer := .offering id } := by
  simp [offer, h, hroom]

theorem AtWork.proceed {capacity : Nat} (h : p.AtWork capacity) (source : Nat → Identity) :
    (p.proceed source).AtWork capacity ∧
      (p.proceed source).slack = 2 * (p.room + 1 - p.buffer.length) + 3 * p.line.length := by
  have hkept : (p.proceed source).Within capacity := proceed_within h.within
  rw [proceed_of_uncancelled h.uncancelled] at hkept ⊢
  exact ⟨⟨by simp [Running], h.uncancelled, hkept⟩, by simp [slack, held, room]⟩

theorem AtWork.offer {capacity : Nat} (h : p.AtWork capacity) (source : Nat → Identity) (id : Identity) :
    (p.offer source id).AtWork capacity ∧
      (p.offer source id).slack + (if p.hasRoom then 1 else 0) ≤
        2 * (p.room - p.buffer.length) + 3 * p.line.length + 1 := by
  have hkept : (p.offer source id).Within capacity := offer_within h.within
  cases hroom : p.hasRoom with
  | true =>
    rw [offer_of_hasRoom h.uncancelled hroom] at hkept ⊢
    refine ⟨⟨by simp [Running], h.uncancelled, hkept⟩, ?_⟩
    simp [slack, held, room]
  | false =>
    rw [offer_of_full h.uncancelled hroom] at hkept ⊢
    refine ⟨⟨by simp [Running], h.uncancelled, hkept⟩, ?_⟩
    simp [slack, held, room]

/-- Whatever goes on at once uses up some of the slack. -/
theorem AtWork.act {capacity now : Nat} {a : Act} (hp : p.AtWork capacity) (ha : Timely now a)
    (h : p.act source a = some q) : q.AtWork capacity ∧ q.slack < p.slack := by
  have hbuffer : p.buffer.length ≤ p.room := hp.within.room ▸ hp.within.2
  cases act_move h with
  | idle a hidle => obtain ⟨rfl, -⟩ | ⟨rfl, -⟩ := hidle <;> exact ha.elim
  | @accept id _ hproducer =>
    have hdecided : ({ p with decided := p.decided.push (id, true) } : Pipeline).AtWork capacity :=
      ⟨hp.running, hp.uncancelled, hp.within⟩
    obtain ⟨hwork, hslack⟩ := hdecided.offer source id
    refine ⟨hwork, Nat.lt_of_le_of_lt (Nat.le_of_add_right_le hslack) ?_⟩
    simp only [slack, held, hproducer, room] at hbuffer ⊢
    omega
  | resume _ hproducer _ =>
    obtain ⟨hwork, hslack⟩ := hp.proceed source
    refine ⟨hwork, ?_⟩
    rw [hslack]
    simp only [slack, held, hproducer]
    omega
  | @retry id _ hproducer hwake =>
    have hroom : p.hasRoom = true := hwake.resolve_left (by simp [hp.uncancelled])
    obtain ⟨hwork, hslack⟩ := hp.offer source id
    refine ⟨hwork, ?_⟩
    rw [if_pos hroom] at hslack
    simp only [slack, held, hproducer] at hslack ⊢
    omega
  | @grant ticket others first rest hline hfirst =>
    refine ⟨⟨hp.running, hp.uncancelled, act_within hp.within h⟩, ?_⟩
    simp only [slack, held, room, hline, hfirst, List.length_cons]
    omega
  | dismiss _ _ hstopped => exact absurd hstopped hp.running.2
  | refuse => cases ha
  | _ => exact ha.elim

/-- Only so much can go on before time passes. -/
theorem AtWork.play_length_le {capacity now : Nat} {acts : List Act} (hp : p.AtWork capacity)
    (hacts : ∀ a ∈ acts, Timely now a) (h : p.play source acts = some q) : acts.length ≤ p.slack := by
  induction acts generalizing p with
  | nil => exact Nat.zero_le _
  | cons a rest ih =>
    obtain ⟨s, ha, hs⟩ := play_cons.mp h
    obtain ⟨hwork, hless⟩ := hp.act (hacts a (List.mem_cons_self ..)) ha
    have hrest := ih hwork (fun b hb => hacts b (List.mem_cons_of_mem _ hb)) hs
    rw [List.length_cons]
    omega

/-- The producer goes on until it is ahead as far as it gets. -/
theorem AtWork.exists_still {capacity : Nat} (hp : p.AtWork capacity) (source : Nat → Identity) (now : Nat) :
    ∃ acts q, (∀ a ∈ acts, Timely now a) ∧ p.play source acts = some q ∧ q.AtWork capacity ∧
      q.Still source now := by
  induction hslack : p.slack using Nat.strong_induction_on generalizing p with
  | h n ih =>
    by_cases hstill : p.Still source now
    · exact ⟨[], p, by simp, rfl, hp, hstill⟩
    · unfold Still at hstill
      push Not at hstill
      obtain ⟨a, ha, hsome⟩ := hstill
      obtain ⟨s, hs⟩ := Option.ne_none_iff_exists'.mp hsome
      obtain ⟨hwork, hless⟩ := hp.act ha hs
      obtain ⟨acts, q, hacts, hplay, hq, hqstill⟩ := ih s.slack (hslack ▸ hless) hwork rfl
      refine ⟨a :: acts, q, ?_, play_cons.mpr ⟨s, hs, hplay⟩, hq, hqstill⟩
      exact List.forall_mem_cons.mpr ⟨ha, hacts⟩

/-- In every history the registrations that succeeded or are under way are ahead of the identities
    that were taken by at most the room in the buffer and one more. At a bank that has accepted
    everything, a running producer is ahead by exactly that many whenever nothing goes on before time
    passes; and unless it is cancelled, whatever goes on at once comes to that, in boundedly many
    stretches, however many callers took identities before. -/
theorem registered_ahead_of_taken {capacity drawn : Nat} {acts : List Act}
    (h : (fresh capacity drawn).play source acts = some p) :
    p.registered.length + p.underWay ≤ p.taken.length + (max capacity 1 + 1) ∧
    (p.Running → (∀ pause, .decide false pause ∉ acts) → ∀ now,
      (p.Still source now →
        p.registered.length + p.underWay = p.taken.length + (max capacity 1 + 1)) ∧
      (p.cancelled = false →
        (∃ bound, ∀ more q, (∀ a ∈ more, Timely now a) → p.play source more = some q →
          more.length ≤ bound ∧ q.Running) ∧
        ∃ more q, (∀ a ∈ more, Timely now a) ∧ p.play source more = some q ∧ q.Running ∧
          q.Still source now ∧
          q.registered.length + q.underWay = q.taken.length + (max capacity 1 + 1))) := by
  have haccounted : p.Accounted :=
    play_preserves (fun _ _ _ _ hs => act_accounted hs) (fresh_accounted capacity drawn) h
  have hwithin : p.Within capacity :=
    play_preserves (fun _ _ _ _ hs => act_within hs) (fresh_within capacity drawn) h
  refine ⟨haccounted.ahead_le hwithin, fun hrunning haccepts now => ?_⟩
  have hpausing : ∀ wake, p.producer ≠ .pausing wake :=
    play_preserves (fun _ _ _ ha hs => act_not_pausing (fun pause => ne_of_mem_of_not_mem ha (haccepts pause)) hs)
      (by simp [fresh]) h
  refine ⟨fun hstill => haccounted.ahead_eq hwithin hstill hrunning hpausing, fun huncancelled => ?_⟩
  have hwork : p.AtWork capacity := ⟨hrunning, huncancelled, hwithin⟩
  refine ⟨⟨p.slack, fun more q hmore hplay => ⟨hwork.play_length_le hmore hplay, ?_⟩⟩, ?_⟩
  · have hkept : q.AtWork capacity :=
      play_preserves (fun _ _ _ ha hs hact => (hs.act (hmore _ ha) hact).1) hwork hplay
    exact hkept.running
  · obtain ⟨more, q, hmore, hplay, hq, hstill⟩ := hwork.exists_still source now
    have haccounted : q.Accounted := play_preserves (fun _ _ _ _ hs => act_accounted hs) haccounted hplay
    have hpausing : ∀ wake, q.producer ≠ .pausing wake := by
      refine play_preserves (fun _ _ _ ha hs => act_not_pausing ?_ hs) hpausing hplay
      rintro pause rfl
      cases hmore _ ha
    exact ⟨more, q, hmore, hplay, hq.running, hstill, haccounted.ahead_eq hq.within hstill hq.running hpausing⟩

/-- Two places, of which a caller cleared one: four identities are registered, and one was taken. -/
theorem registered_ahead_of_taken_of_two :
    let source : Nat → Identity := fun n => ⟨String.ofList (List.replicate n 'i')⟩
    let acts : List Act := [.run, .decide true 0, .decide true 0, .decide true 0, .join, .take 0, .wake 0,
      .decide true 0]
    ∃ p, (fresh 2 0).play source acts = some p ∧ p.Running ∧ p.Still source 0 ∧ p.taken = [source 0] ∧
      p.registered.length = 4 ∧ p.registered.length + p.underWay = p.taken.length + 3 := by
  intro source acts
  let p : Pipeline := ⟨2, .offering (source 3), [source 1, source 2], false, [], 1, 4,
    #[(source 0, true), (source 1, true), (source 2, true), (source 3, true)], #[(0, source 0)], #[]⟩
  have hp : (fresh 2 0).play source acts = some p := by
    simp [p, acts, play, act, run, decide, wake, canWake, take, join, offer, proceed, hasRoom, room, fresh]
  have hrunning : p.Running := by simp [p, Running]
  have hstill : p.Still source 0 := still_of_full rfl rfl rfl rfl
  have hahead := (registered_ahead_of_taken hp).2 hrunning (by simp [acts]) 0
  exact ⟨p, hp, hrunning, hstill, rfl, rfl, hahead.1 hstill⟩

end ExchangeLoad.Pipeline
