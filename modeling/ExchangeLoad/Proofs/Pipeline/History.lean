import ExchangeLoad.Pipeline

/-!
Histories of a pipeline: the producer, any number of callers and whoever stops them go on in any
order, each by one stretch at a time, and a pause may end whenever it is over.
-/

namespace ExchangeLoad.Pipeline

/-- One stretch of the producer or of a caller, from one wait to the next, or an interruption. -/
inductive Act where
  | run
  | decide (accepted : Bool) (pause : Nat)
  | wake (now : Nat)
  | cancel
  | abandon
  | join
  | leave (ticket : Nat)
  | take (ticket : Nat)
deriving DecidableEq, Repr, Inhabited

/-- The pipeline after one stretch; none where it cannot be taken. -/
def act (p : Pipeline) (source : Nat → Identity) : Act → Option Pipeline
  | .run => some (p.run source)
  | .decide accepted pause => p.decide source accepted pause
  | .wake now => p.wake source now
  | .cancel => some p.cancel
  | .abandon => some p.abandon
  | .join => some p.join.1
  | .leave ticket => some (p.leave ticket)
  | .take ticket => (p.take ticket).map (·.1)

/-- The pipeline after a history, oldest stretch first; none where one of them cannot be taken. -/
def play (p : Pipeline) (source : Nat → Identity) : List Act → Option Pipeline
  | [] => some p
  | a :: rest => (p.act source a).bind (·.play source rest)

/-- What one stretch does, by what it found. -/
inductive Move (source : Nat → Identity) (p : Pipeline) : Act → Pipeline → Prop where
  /-- The producer was run before, or is ended before anybody ran it. -/
  | idle (a : Act) : a = .run ∧ p.producer ≠ .unstarted ∨ a = .abandon ∧ p.producer = .unstarted →
      Move source p a p
  | begin : p.producer = .unstarted → Move source p .run (p.proceed source)
  | accept {id : Identity} (pause : Nat) : p.producer = .registering id →
      Move source p (.decide true pause) ({ p with decided := p.decided.push (id, true) }.offer source id)
  | refuse {id : Identity} (pause : Nat) (next : Producer) : p.producer = .registering id →
      (p.cancelled = true ∧ next = .stopped ∨ p.cancelled = false ∧ next = .pausing pause) →
      Move source p (.decide false pause)
        { p with decided := p.decided.push (id, false), producer := next }
  | resume {wake : Nat} (now : Nat) : p.producer = .pausing wake → p.cancelled = true ∨ wake ≤ now →
      Move source p (.wake now) (p.proceed source)
  | retry {id : Identity} (now : Nat) : p.producer = .offering id → p.cancelled = true ∨ p.hasRoom = true →
      Move source p (.wake now) (p.offer source id)
  | cancel : Move source p .cancel p.cancel
  | abandon : p.producer ≠ .unstarted → Move source p .abandon { p with producer := .stopped }
  | join : Move source p .join p.join.1
  | leave (ticket : Nat) : Move source p (.leave ticket) (p.leave ticket)
  /-- The first in line takes the oldest identity. -/
  | grant {ticket : Nat} {others : List Nat} {first : Identity} {rest : List Identity} :
      p.line = ticket :: others → p.buffer = first :: rest →
      Move source p (.take ticket)
        { p with buffer := rest, line := others, granted := p.granted.push (ticket, first) }
  /-- The first in line learns that the pipeline is closed. -/
  | dismiss {ticket : Nat} {others : List Nat} :
      p.line = ticket :: others → p.buffer = [] → p.producer = .stopped →
      Move source p (.take ticket) { p with line := others, refused := p.refused.push ticket }

variable {source : Nat → Identity} {p q : Pipeline}

private theorem decide_move {accepted : Bool} {pause : Nat}
    (h : p.decide source accepted pause = some q) : Move source p (.decide accepted pause) q := by
  unfold decide at h
  split at h
  · next id hproducer =>
    cases accepted with
    | true =>
      obtain rfl := Option.some.inj h
      exact .accept pause hproducer
    | false =>
      simp only [Bool.false_eq_true, if_false] at h
      split at h
      · next hcancelled =>
        obtain rfl := Option.some.inj h
        exact .refuse pause .stopped hproducer (.inl ⟨hcancelled, rfl⟩)
      · next hcancelled =>
        obtain rfl := Option.some.inj h
        exact .refuse pause (.pausing pause) hproducer (.inr ⟨by simpa using hcancelled, rfl⟩)
  · cases h

private theorem wake_move {now : Nat} (h : p.wake source now = some q) : Move source p (.wake now) q := by
  unfold wake at h
  split at h
  · next hwake =>
    split at h
    · next hproducer =>
      obtain rfl := Option.some.inj h
      exact .resume now hproducer (by simpa [canWake, hproducer] using hwake)
    · next hproducer =>
      obtain rfl := Option.some.inj h
      exact .retry now hproducer (by simpa [canWake, hproducer] using hwake)
    · cases h
  · cases h

private theorem take_move {ticket : Nat} {id : Option Identity} (h : p.take ticket = some (q, id)) :
    Move source p (.take ticket) q := by
  unfold take at h
  split at h
  · next hhead =>
    obtain ⟨others, hline⟩ := List.head?_eq_some_iff.mp hhead
    have htail : p.line.tail = others := by simp [hline]
    rw [htail] at h
    split at h
    · next first rest hbuffer =>
      obtain ⟨rfl, -⟩ := Prod.mk.inj (Option.some.inj h)
      exact .grant hline hbuffer
    · next hbuffer =>
      split at h
      · next hstopped =>
        obtain ⟨rfl, -⟩ := Prod.mk.inj (Option.some.inj h)
        exact .dismiss hline hbuffer hstopped
      · cases h
  · cases h

theorem act_move {a : Act} (h : p.act source a = some q) : Move source p a q := by
  cases a with
  | run =>
    obtain rfl := Option.some.inj h
    unfold run
    split
    · next hproducer => exact .begin hproducer
    · next hproducer => exact .idle _ (.inl ⟨rfl, hproducer⟩)
  | decide accepted pause => exact decide_move h
  | wake now => exact wake_move h
  | cancel =>
    obtain rfl := Option.some.inj h
    exact .cancel
  | abandon =>
    obtain rfl := Option.some.inj h
    unfold abandon
    split
    · next hproducer => exact .idle _ (.inr ⟨rfl, hproducer⟩)
    · next hproducer => exact .abandon hproducer
  | join =>
    obtain rfl := Option.some.inj h
    exact .join
  | leave ticket =>
    obtain rfl := Option.some.inj h
    exact .leave ticket
  | take ticket =>
    obtain ⟨⟨s, id⟩, htake, rfl⟩ := Option.map_eq_some_iff.mp h
    exact take_move htake

theorem play_cons {a : Act} {rest : List Act} :
    p.play source (a :: rest) = some q ↔ ∃ s, p.act source a = some s ∧ s.play source rest = some q := by
  simp only [play, Option.bind_eq_some_iff]

theorem play_append {first rest : List Act} :
    p.play source (first ++ rest) = some q ↔
      ∃ s, p.play source first = some s ∧ s.play source rest = some q := by
  induction first generalizing p with
  | nil => simp [play]
  | cons a first ih =>
    simp only [List.cons_append, play_cons, ih]
    constructor
    · rintro ⟨s, ha, t, hs, ht⟩
      exact ⟨t, ⟨s, ha, hs⟩, ht⟩
    · rintro ⟨t, ⟨s, ha, hs⟩, ht⟩
      exact ⟨s, ha, t, hs, ht⟩

/-- What every stretch of a history keeps, the whole history keeps. -/
theorem play_preserves {Holds : Pipeline → Prop} {acts : List Act}
    (hact : ∀ s a t, a ∈ acts → Holds s → s.act source a = some t → Holds t)
    (hp : Holds p) (h : p.play source acts = some q) : Holds q := by
  induction acts generalizing p with
  | nil =>
    obtain rfl : p = q := by simpa [play] using h
    exact hp
  | cons a rest ih =>
    obtain ⟨s, ha, hs⟩ := play_cons.mp h
    have hkept := hact p a s (List.mem_cons_self ..) hp ha
    exact ih (fun s b t hb => hact s b t (List.mem_cons_of_mem _ hb)) hkept hs

end ExchangeLoad.Pipeline
