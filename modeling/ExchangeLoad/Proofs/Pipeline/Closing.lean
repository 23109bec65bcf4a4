import ExchangeLoad.Proofs.Pipeline.Accounting

/-!
The closing of a pipeline. The producer is started once and for all; a cancelled one sends nothing more
to the bank, and what the bank has is still decided. Once it has stopped, the callers share what is in
the buffer, and then every one of them is told that the pipeline is closed.
-/

namespace ExchangeLoad.Pipeline

variable {source : Nat → Identity} {p q : Pipeline}

theorem proceed_started : (p.proceed source).producer ≠ .unstarted := by
  unfold proceed
  split <;> simp

theorem offer_started {id : Identity} : (p.offer source id).producer ≠ .unstarted := by
  unfold offer
  split
  · simp
  split
  · exact proceed_started
  · simp

theorem act_started {a : Act} (hp : p.producer ≠ .unstarted ∨ a = .run) (h : p.act source a = some q) :
    q.producer ≠ .unstarted := by
  cases act_move h with
  | idle _ hidle =>
    obtain ⟨-, hproducer⟩ | ⟨rfl, -⟩ := hidle
    · exact hproducer
    · exact hp.resolve_right (by simp)
  | begin => exact proceed_started
  | accept => exact offer_started
  | refuse _ _ _ hnext => obtain ⟨-, rfl⟩ | ⟨-, rfl⟩ := hnext <;> simp
  | resume => exact proceed_started
  | retry => exact offer_started
  | abandon => simp
  | _ => exact hp.resolve_right (by simp)

/-- Whoever runs the producer after the first time finds it started. -/
theorem play_started {acts : List Act} (hrun : .run ∈ acts) (h : p.play source acts = some q) :
    q.producer ≠ .unstarted := by
  obtain ⟨before, after, rfl⟩ := List.append_of_mem hrun
  obtain ⟨s, -, hs⟩ := play_append.mp h
  obtain ⟨t, hrun, ht⟩ := play_cons.mp hs
  exact play_preserves (fun _ _ _ _ hu => act_started (.inl hu)) (act_started (.inr rfl) hrun) ht

theorem run_of_started (h : p.producer ≠ .unstarted) : p.act source .run = some p := by
  simp only [act, run]

/-- Nobody has run the producer, and no more has been drawn than so much. -/
def Idle (drawn : Nat) (p : Pipeline) : Prop := p.producer = .unstarted ∧ p.drawn = drawn

theorem act_idle {drawn : Nat} {a : Act} (ha : a ≠ .run) (hp : p.Idle drawn) (h : p.act source a = some q) :
    q.Idle drawn := by
  obtain ⟨hunstarted, hdrawn⟩ := hp
  cases act_move h with
  | begin => exact absurd rfl ha
  | accept _ hproducer => simp [hunstarted] at hproducer
  | refuse _ _ hproducer => simp [hunstarted] at hproducer
  | resume _ hproducer => simp [hunstarted] at hproducer
  | retry _ hproducer => simp [hunstarted] at hproducer
  | abandon hproducer => exact absurd hunstarted hproducer
  | _ => exact ⟨hunstarted, hdrawn⟩

theorem proceed_of_cancelled (h : p.cancelled = true) : p.proceed source = { p with producer := .stopped } := by
  rw [proceed, if_pos h]

theorem offer_of_cancelled {id : Identity} (h : p.cancelled = true) :
    p.offer source id = { p with producer := .stopped } := by
  rw [offer, if_pos h]

/-- All that is left for a cancelled producer is to stop. -/
structure Winding (p q : Pipeline) : Prop where
  cancelled : q.cancelled = true
  drawn : q.drawn = p.drawn
  producer : q.producer = p.producer ∨ q.producer = .stopped

theorem act_winding {a : Act} (hp : p.cancelled = true) (h : p.act source a = some q) : Winding p q := by
  cases act_move h with
  | begin =>
    rw [proceed_of_cancelled hp]
    exact ⟨hp, rfl, .inr rfl⟩
  | accept =>
    rw [offer_of_cancelled (by exact hp)]
    exact ⟨hp, rfl, .inr rfl⟩
  | refuse _ _ _ hnext =>
    obtain ⟨-, rfl⟩ | ⟨huncancelled, -⟩ := hnext
    · exact ⟨hp, rfl, .inr rfl⟩
    · simp [hp] at huncancelled
  | resume =>
    rw [proceed_of_cancelled hp]
    exact ⟨hp, rfl, .inr rfl⟩
  | retry =>
    rw [offer_of_cancelled hp]
    exact ⟨hp, rfl, .inr rfl⟩
  | cancel => exact ⟨rfl, rfl, .inl rfl⟩
  | abandon => exact ⟨hp, rfl, .inr rfl⟩
  | _ => exact ⟨hp, rfl, .inl rfl⟩

theorem play_winding {acts : List Act} (hp : p.cancelled = true) (h : p.play source acts = some q) :
    Winding p q := by
  refine play_preserves (fun s a t _ hs hact => ?_) ⟨hp, rfl, .inl rfl⟩ h
  obtain ⟨hcancelled, hdrawn, hproducer⟩ := act_winding hs.cancelled hact
  refine ⟨hcancelled, hdrawn.trans hs.drawn, ?_⟩
  obtain hsame | hstopped := hproducer
  · rw [hsame]
    exact hs.producer
  · exact .inr hstopped

/-- A cancelled producer that pauses or waits for room need not wait any longer. -/
theorem wake_of_cancelled (hp : p.cancelled = true)
    (hwaits : (∃ wake, p.producer = .pausing wake) ∨ ∃ id, p.producer = .offering id) (now : Nat) :
    p.act source (.wake now) = some { p with producer := .stopped } := by
  obtain ⟨wake, hproducer⟩ | ⟨id, hproducer⟩ := hwaits
  · simp [act, Pipeline.wake, canWake, proceed, hproducer, hp]
  · simp [act, Pipeline.wake, canWake, offer, hproducer, hp]

theorem proceed_decided : (p.proceed source).decided = p.decided := by
  unfold proceed
  split <;> rfl

theorem offer_decided {id : Identity} : (p.offer source id).decided = p.decided := by
  unfold offer
  split
  · rfl
  split
  · exact proceed_decided
  · rfl

theorem act_decided {a : Act} (h : p.act source a = some q) : p.decided.toList <+: q.decided.toList := by
  cases act_move h with
  | begin => exact proceed_decided ▸ List.prefix_refl _
  | @accept id _ _ =>
    rw [offer_decided]
    exact ⟨[(id, true)], by simp⟩
  | @refuse id _ _ _ _ => exact ⟨[(id, false)], by simp⟩
  | resume => exact proceed_decided ▸ List.prefix_refl _
  | retry => exact offer_decided ▸ List.prefix_refl _
  | _ => exact List.prefix_refl _

/-- The bank can decide on the registration under way at any time; a cancelled producer stops then. -/
theorem decide_of_registering {id : Identity} (hproducer : p.producer = .registering id) (accepted : Bool)
    (pause : Nat) : ∃ q, p.act source (.decide accepted pause) = some q ∧
      q.decided = p.decided.push (id, accepted) ∧ (p.cancelled = true → q.producer = .stopped) := by
  cases accepted with
  | true =>
    refine ⟨_, by simp only [act, decide, hproducer, if_true]; rfl, offer_decided, fun hcancelled => ?_⟩
    rw [offer_of_cancelled (by exact hcancelled)]
  | false => cases hcancelled : p.cancelled <;> simp [act, decide, hproducer, hcancelled]

/-- The registration under way is still under way, or the bank decided on it. -/
def Seen (p : Pipeline) (id : Identity) (q : Pipeline) : Prop :=
  q.producer = .registering id ∧ q.decided = p.decided ∨
    ∃ accepted, p.decided.toList ++ [(id, accepted)] <+: q.decided.toList

theorem act_seen {s : Pipeline} {id : Identity} {a : Act} (ha : a ≠ .abandon) (hs : p.Seen id s)
    (h : s.act source a = some q) : p.Seen id q := by
  obtain ⟨hproducer, hdecided⟩ | ⟨accepted, hdone⟩ := hs
  · cases act_move h with
    | begin hunstarted => simp [hproducer] at hunstarted
    | accept _ hregistering =>
      obtain rfl : _ = id := by simpa [hproducer] using hregistering.symm
      exact .inr ⟨true, by rw [offer_decided]; simp [hdecided]⟩
    | refuse _ _ hregistering =>
      obtain rfl : _ = id := by simpa [hproducer] using hregistering.symm
      exact .inr ⟨false, by simp [hdecided]⟩
    | resume _ hpausing => simp [hproducer] at hpausing
    | retry _ hoffering => simp [hproducer] at hoffering
    | abandon => exact absurd rfl ha
    | _ => exact .inl ⟨hproducer, hdecided⟩
  · exact .inr ⟨accepted, hdone.trans (act_decided h)⟩

/-- Nobody is refused before the producer has stopped. -/
theorem act_refused {a : Act} (hp : p.refused ≠ #[] → p.producer = .stopped) (h : p.act source a = some q) :
    q.refused ≠ #[] → q.producer = .stopped := by
  intro hrefused
  cases act_move h with
  | begin hproducer =>
    rw [(proceed_callersKept p source).refused] at hrefused
    simp [hp hrefused] at hproducer
  | accept _ hproducer =>
    rw [(offer_callersKept _ source _).refused] at hrefused
    simp [hp hrefused] at hproducer
  | refuse _ _ hproducer => simp [hp hrefused] at hproducer
  | resume _ hproducer =>
    rw [(proceed_callersKept p source).refused] at hrefused
    simp [hp hrefused] at hproducer
  | retry _ hproducer =>
    rw [(offer_callersKept p source _).refused] at hrefused
    simp [hp hrefused] at hproducer
  | abandon => rfl
  | dismiss _ _ hstopped => exact hstopped
  | _ => exact hp hrefused

/-- What is left of a pipeline whose producer has stopped: the callers take the buffer from its oldest
    end, and nobody is refused before it is empty. -/
structure Drained (p q : Pipeline) : Prop where
  stopped : q.producer = .stopped
  decided : q.decided = p.decided
  drawn : q.drawn = p.drawn
  served : ∃ served, q.taken = p.taken ++ served ∧ served ++ q.buffer = p.buffer
  refused : q.refused = p.refused ∨ q.buffer = []

theorem act_drained {s : Pipeline} {a : Act} (hs : Drained p s) (h : s.act source a = some q) :
    Drained p q := by
  obtain ⟨hstopped, hdecided, hdrawn, ⟨served, htaken, hbuffer⟩, hrefused⟩ := hs
  cases act_move h with
  | begin hproducer => simp [hstopped] at hproducer
  | accept _ hproducer => simp [hstopped] at hproducer
  | refuse _ _ hproducer => simp [hstopped] at hproducer
  | resume _ hproducer => simp [hstopped] at hproducer
  | retry _ hproducer => simp [hstopped] at hproducer
  | abandon => exact ⟨rfl, hdecided, hdrawn, ⟨served, htaken, hbuffer⟩, hrefused⟩
  | @grant ticket others first rest _ hfirst =>
    refine ⟨hstopped, hdecided, hdrawn, ⟨served ++ [first], ?_, ?_⟩, .inl ?_⟩
    · rw [← List.append_assoc, ← htaken]
      simp [taken]
    · simpa [hfirst] using hbuffer
    · exact hrefused.resolve_right (by simp [hfirst])
  | dismiss _ hempty _ => exact ⟨hstopped, hdecided, hdrawn, ⟨served, htaken, hbuffer⟩, .inr hempty⟩
  | _ => exact ⟨hstopped, hdecided, hdrawn, ⟨served, htaken, hbuffer⟩, hrefused⟩

theorem drained_self (hp : p.producer = .stopped) : Drained p p :=
  ⟨hp, rfl, rfl, ⟨[], by simp, by simp⟩, .inl rfl⟩

theorem play_drained {acts : List Act} (hp : p.producer = .stopped) (h : p.play source acts = some q) :
    Drained p q :=
  play_preserves (fun _ _ _ _ hs => act_drained hs) (drained_self hp) h

/-- Whether a ticket was answered, with an identity or with a refusal. -/
def Answered (p : Pipeline) (ticket : Nat) : Prop :=
  (∃ id, (ticket, id) ∈ p.granted) ∨ ticket ∈ p.refused

/-- When the producer has stopped, the first in line need not wait. -/
theorem take_of_stopped {ticket : Nat} {others : List Nat} (hp : p.producer = .stopped)
    (hline : p.line = ticket :: others) :
    p.canTake ticket = true ∧
      ∃ q, p.take ticket = some (q, p.buffer.head?) ∧ q.line = others ∧ q.Answered ticket := by
  cases hbuffer : p.buffer with
  | nil => simp [canTake, closed, take, hline, hp, hbuffer, Answered]
  | cons id rest => simp [canTake, take, hline, hbuffer, Answered]

/-- A caller stands in line behind others. -/
def Behind (p : Pipeline) (ahead : List Nat) (ticket : Nat) : Prop :=
  ∃ behind, p.line = ahead ++ ticket :: behind

theorem exists_behind {ticket : Nat} (h : ticket ∈ p.line) : ∃ ahead, p.Behind ahead ticket := by
  obtain ⟨ahead, behind, hline⟩ := List.append_of_mem h
  exact ⟨ahead, behind, hline⟩

theorem Behind.of_line {ahead : List Nat} {ticket : Nat} (hp : p.Behind ahead ticket) (h : q.line = p.line) :
    q.Behind ahead ticket := by
  unfold Behind
  rw [h]
  exact hp

/-- The first in line is the caller himself, or somebody ahead of him. -/
theorem Behind.of_head {ahead others : List Nat} {first ticket : Nat} (hp : p.Behind ahead ticket)
    (hhead : p.line = first :: others) (hq : q.line = others) :
    ahead = [] ∧ first = ticket ∨ ∃ fewer, ahead = first :: fewer ∧ q.Behind fewer ticket := by
  obtain ⟨behind, hline⟩ := hp
  rw [hhead] at hline
  cases ahead with
  | nil => exact .inl ⟨rfl, (List.cons.inj hline).1⟩
  | cons x fewer =>
    obtain ⟨rfl, hothers⟩ := List.cons.inj hline
    exact .inr ⟨fewer, rfl, behind, hq.trans hothers⟩

theorem Behind.head? {ahead : List Nat} {ticket : Nat} (hp : p.Behind ahead ticket) :
    p.line.head? = (ahead ++ [ticket]).head? := by
  obtain ⟨behind, hline⟩ := hp
  simp [hline, List.head?_append]

theorem Behind.leave {ahead : List Nat} {ticket other : Nat} (hp : p.Behind ahead ticket)
    (hother : other ≠ ticket) : (p.leave other).Behind (ahead.erase other) ticket := by
  obtain ⟨behind, hline⟩ := hp
  by_cases hmem : other ∈ ahead
  · exact ⟨behind, by rw [Pipeline.leave, hline, List.erase_append_left _ hmem]⟩
  · refine ⟨behind.erase other, ?_⟩
    rw [Pipeline.leave, hline, List.erase_append_right _ hmem, List.erase_of_not_mem hmem,
      List.erase_cons_tail (by simpa using hother.symm)]

/-- Nobody gets ahead of a caller in line, until he leaves or is answered. -/
theorem act_behind {ahead : List Nat} {ticket : Nat} {a : Act} (hp : p.Behind ahead ticket)
    (h : p.act source a = some q) :
    a = .leave ticket ∨ q.Answered ticket ∨ ∃ fewer, fewer.Sublist ahead ∧ q.Behind fewer ticket := by
  have hsame (hline : q.line = p.line) : ∃ fewer, fewer.Sublist ahead ∧ q.Behind fewer ticket :=
    ⟨ahead, List.Sublist.refl _, hp.of_line hline⟩
  cases act_move h with
  | begin => exact .inr (.inr (hsame (proceed_callersKept p source).line))
  | accept => exact .inr (.inr (hsame (offer_callersKept _ source _).line))
  | resume => exact .inr (.inr (hsame (proceed_callersKept p source).line))
  | retry => exact .inr (.inr (hsame (offer_callersKept p source _).line))
  | join =>
    obtain ⟨behind, hline⟩ := hp
    exact .inr (.inr ⟨ahead, List.Sublist.refl _, behind ++ [p.tickets], by simp [join, hline]⟩)
  | leave other =>
    by_cases hother : other = ticket
    · exact .inl (by rw [hother])
    · exact .inr (.inr ⟨ahead.erase other, List.erase_sublist, hp.leave hother⟩)
  | @grant first others id _ hhead _ =>
    obtain ⟨-, rfl⟩ | ⟨fewer, rfl, hbehind⟩ := hp.of_head hhead (q := { p with line := others }) rfl
    · exact .inr (.inl (.inl ⟨id, by simp⟩))
    · exact .inr (.inr ⟨fewer, List.sublist_cons_self _ _, hbehind⟩)
  | @dismiss first others hhead _ _ =>
    obtain ⟨-, rfl⟩ | ⟨fewer, rfl, hbehind⟩ := hp.of_head hhead (q := { p with line := others }) rfl
    · exact .inr (.inl (.inr (by simp)))
    · exact .inr (.inr ⟨fewer, List.sublist_cons_self _ _, hbehind⟩)
  | _ => exact .inr (.inr (hsame rfl))

/-- A history without end. A caller whose answer is there is not passed over for ever. -/
structure Endless (source : Nat → Identity) (states : Nat → Pipeline) (acts : Nat → Act) : Prop where
  step : ∀ n, (states n).act source (acts n) = some (states (n + 1))
  fair : ∀ n ticket, ∃ m, n ≤ m ∧ ((states m).canTake ticket = false ∨ acts m = .take ticket)

variable {states : Nat → Pipeline} {acts : Nat → Act}

theorem Endless.play (h : Endless source states acts) (n k : Nat) :
    ∃ more, (states n).play source more = some (states (n + k)) := by
  induction k with
  | zero => exact ⟨[], rfl⟩
  | succ k ih =>
    obtain ⟨more, hmore⟩ := ih
    exact ⟨more ++ [acts (n + k)], play_append.mpr ⟨_, hmore, play_cons.mpr ⟨_, h.step _, rfl⟩⟩⟩

theorem Endless.stopped (h : Endless source states acts) {n m : Nat} (hn : (states n).producer = .stopped)
    (hm : n ≤ m) : (states m).producer = .stopped := by
  obtain ⟨k, rfl⟩ := Nat.exists_eq_add_of_le hm
  obtain ⟨more, hmore⟩ := h.play n k
  exact (play_drained hn hmore).stopped

/-- A caller is done with: he left, or was answered. -/
def Served (states : Nat → Pipeline) (acts : Nat → Act) (n ticket : Nat) : Prop :=
  ∃ m, n ≤ m ∧ (acts m = .leave ticket ∨ (states m).Answered ticket)

theorem Served.of_le {n m ticket : Nat} (h : Served states acts m ticket) (hle : n ≤ m) :
    Served states acts n ticket := by
  obtain ⟨k, hk, hdone⟩ := h
  exact ⟨k, hle.trans hk, hdone⟩

theorem Endless.behind_or (h : Endless source states acts) {ahead : List Nat} {n ticket : Nat}
    (hn : (states n).Behind ahead ticket) (k : Nat) :
    Served states acts n ticket ∨
      ∃ fewer, fewer.Sublist ahead ∧ (states (n + k)).Behind fewer ticket := by
  induction k with
  | zero => exact .inr ⟨ahead, List.Sublist.refl _, hn⟩
  | succ k ih =>
    obtain hserved | ⟨fewer, hfewer, hbehind⟩ := ih
    · exact .inl hserved
    obtain hleft | hanswered | ⟨least, hleast, hlater⟩ := act_behind hbehind (h.step (n + k))
    · exact .inl ⟨n + k, Nat.le_add_right _ _, .inl hleft⟩
    · exact .inl ⟨n + k + 1, Nat.le_add_right n (k + 1), .inr hanswered⟩
    · exact .inr ⟨least, hleast.trans hfewer, hlater⟩

/-- Once the producer has stopped, every caller in line is answered unless he leaves. The induction is
    on those ahead of him. -/
theorem Endless.served (h : Endless source states acts) {n ticket : Nat}
    (hstopped : (states n).producer = .stopped) (hticket : ticket ∈ (states n).line) :
    Served states acts n ticket := by
  obtain ⟨ahead, hbehind⟩ := exists_behind hticket
  induction hlength : ahead.length using Nat.strong_induction_on generalizing n ahead with
  | h length ih =>
    have hless {m : Nat} {fewer : List Nat} (hm : n ≤ m) (hbehind : (states m).Behind fewer ticket)
        (hfewer : fewer.length < length) : Served states acts n ticket := by
      obtain ⟨behind, hline⟩ := hbehind
      exact (ih _ hfewer (h.stopped hstopped hm) (by simp [hline]) fewer ⟨behind, hline⟩ rfl).of_le hm
    obtain ⟨first, hfirst⟩ : ∃ first, (ahead ++ [ticket]).head? = some first := by
      cases ahead <;> simp
    obtain ⟨m, hm, hfair⟩ := h.fair n first
    obtain ⟨k, rfl⟩ := Nat.exists_eq_add_of_le hm
    obtain hserved | ⟨fewer, hfewer, hlater⟩ := h.behind_or hbehind k
    · exact hserved
    obtain hlt | hsame := Nat.lt_or_eq_of_le hfewer.length_le
    · exact hless hm hlater (hlength ▸ hlt)
    -- Nobody ahead of him has moved, so it is the same caller's turn, and this time he takes it.
    obtain rfl := hfewer.eq_of_length hsame
    obtain ⟨others, hhead⟩ := List.head?_eq_some_iff.mp (hlater.head?.trans hfirst)
    obtain ⟨hready, q, htake, hline, hanswered⟩ := take_of_stopped (h.stopped hstopped hm) hhead
    have hstep := h.step (n + k)
    rw [hfair.resolve_left (by simp [hready]), act, htake] at hstep
    obtain rfl := Option.some.inj hstep
    obtain ⟨-, rfl⟩ | ⟨fewer, rfl, hnext⟩ := hlater.of_head hhead hline
    · exact ⟨n + k + 1, Nat.le_add_right n (k + 1), .inr hanswered⟩
    · refine hless (Nat.le_add_right n (k + 1)) hnext ?_
      rw [← hlength, List.length_cons]
      exact Nat.lt_succ_self _

/-- The first in line is the next to go on. -/
def turn (p : Pipeline) : Act :=
  match p.line with
  | [] => .cancel
  | ticket :: _ => .take ticket

theorem turn_of_stopped (source : Nat → Identity) (hp : p.producer = .stopped) :
    ∃ q, p.act source p.turn = some q ∧ q.producer = .stopped ∧ q.line = p.line.tail := by
  cases hline : p.line with
  | nil => exact ⟨p.cancel, by simp [turn, hline, act], hp, hline⟩
  | cons ticket others =>
    obtain ⟨-, q, htake, hothers, -⟩ := take_of_stopped hp hline
    have hact : p.act source p.turn = some q := by simp [turn, hline, act, htake]
    exact ⟨q, hact, (act_drained (drained_self hp) hact).stopped, hothers⟩

/-- There are such histories: everybody in line takes his turn. -/
theorem exists_endless (hp : p.producer = .stopped) :
    ∃ states acts, Endless source states acts ∧ states 0 = p := by
  let next (s : Pipeline) : Pipeline := (s.act source s.turn).getD s
  have hturn {s : Pipeline} (hs : s.producer = .stopped) : s.act source s.turn = some (next s) := by
    obtain ⟨q, hact, -, -⟩ := turn_of_stopped source hs
    simp only [next, hact, Option.getD_some]
  have hnext (n : Nat) : (next^[n] p).producer = .stopped ∧
      (next^[n] p).act source (next^[n] p).turn = some (next^[n + 1] p) ∧
      (next^[n] p).line = p.line.drop n := by
    induction n with
    | zero => exact ⟨hp, hturn hp, rfl⟩
    | succ n ih =>
      obtain ⟨hstopped, hact, hline⟩ := ih
      obtain ⟨q, hq, hqstopped, htail⟩ := turn_of_stopped source hstopped
      obtain rfl := Option.some.inj (hact.symm.trans hq)
      refine ⟨hqstopped, ?_, by rw [htail, hline, List.tail_drop]⟩
      rw [Function.iterate_succ_apply' next (n + 1)]
      exact hturn hqstopped
  refine ⟨fun n => next^[n] p, fun n => (next^[n] p).turn, ⟨fun n => (hnext n).2.1, fun n ticket => ?_⟩, rfl⟩
  have hempty : (next^[n + p.line.length] p).line = [] := by
    rw [(hnext _).2.2]
    exact List.drop_eq_nil_of_le (Nat.le_add_left _ _)
  exact ⟨n + p.line.length, Nat.le_add_right _ _, .inl (by simp [canTake, hempty])⟩

/-- However a history goes on: only the first run of the producer does anything. After a cancellation
    nothing more is drawn for the bank, and the producer does no more than stop; a registration under
    way is decided all the same, unless the producer is ended where it is. Nobody is refused before
    the producer has stopped. Once it has, the callers take what is in the buffer, in order, and are
    refused only when it is empty; and none of them waits for ever. -/
theorem closing_of_play {capacity drawn : Nat} {acts : List Act}
    (h : (fresh capacity drawn).play source acts = some p) :
    (.run ∉ acts → p.producer = .unstarted ∧ p.drawn = drawn) ∧
    (.run ∈ acts → p.act source .run = some p) ∧
    (p.cancelled = true →
      (∀ more q, p.play source more = some q →
        q.drawn = p.drawn ∧ (q.producer = p.producer ∨ q.producer = .stopped)) ∧
      ((∃ wake, p.producer = .pausing wake) ∨ (∃ id, p.producer = .offering id) →
        ∀ now, p.act source (.wake now) = some { p with producer := .stopped })) ∧
    (∀ id, p.producer = .registering id →
      (∀ more q, .abandon ∉ more → p.play source more = some q → p.Seen id q) ∧
      ∀ accepted pause, ∃ q, p.act source (.decide accepted pause) = some q ∧
        q.decided = p.decided.push (id, accepted) ∧ (p.cancelled = true → q.producer = .stopped)) ∧
    (p.refused ≠ #[] → p.producer = .stopped) ∧
    (p.producer = .stopped →
      .run ∈ acts ∧ (p.cancelled = true ∨ .abandon ∈ acts) ∧
      (∀ more q, p.play source more = some q → Drained p q) ∧
      ∀ states acts, Endless source states acts → states 0 = p →
        ∀ n, ∀ ticket ∈ (states n).line, Served states acts n ticket) := by
  have hunstarted (hrun : .run ∉ acts) : p.Idle drawn :=
    play_preserves (fun _ _ _ ha hs => act_idle (ne_of_mem_of_not_mem ha hrun) hs) ⟨rfl, rfl⟩ h
  refine ⟨hunstarted, fun hrun => run_of_started (play_started hrun h), ?_, ?_, ?_, ?_⟩
  · intro hcancelled
    refine ⟨fun more q hplay => ?_, wake_of_cancelled hcancelled⟩
    have hwinding := play_winding hcancelled hplay
    exact ⟨hwinding.drawn, hwinding.producer⟩
  · intro id hproducer
    refine ⟨fun more q habandon hplay => ?_, decide_of_registering hproducer⟩
    exact play_preserves (fun _ _ _ ha hs => act_seen (ne_of_mem_of_not_mem ha habandon) hs)
      (.inl ⟨hproducer, rfl⟩) hplay
  · exact play_preserves (fun _ _ _ _ hs => act_refused hs) (by simp [fresh]) h
  · intro hstopped
    have hrun : .run ∈ acts := by
      by_contra hrun
      simp [(hunstarted hrun).1] at hstopped
    have hended : p.cancelled = true ∨ .abandon ∈ acts := by
      by_contra hnone
      obtain ⟨hcancelled, habandon⟩ := not_or.mp hnone
      have hcancel : p.StoppedByCancel :=
        play_preserves (fun s a t ha hs => act_stoppedByCancel (ne_of_mem_of_not_mem ha habandon) hs)
          (by simp [StoppedByCancel, fresh]) h
      exact hcancelled (hcancel hstopped)
    refine ⟨hrun, hended, fun more q => play_drained hstopped, ?_⟩
    rintro states acts hendless rfl n ticket hticket
    exact hendless.served (hendless.stopped hstopped (Nat.zero_le n)) hticket

/-- A cancellation finds one identity in the buffer, another one at the bank, and two callers in line:
    the bank accepts, the first caller is served, and the second is refused. -/
theorem closing_of_cancelled_registration :
    let source : Nat → Identity := fun n => ⟨String.ofList (List.replicate n 'i')⟩
    let acts : List Act := [.run, .decide true 0, .join, .join, .cancel, .run, .decide true 0, .take 0, .take 1]
    ∃ p, (fresh 2 0).play source acts = some p ∧ p.registered = [source 0, source 1] ∧
      p.granted = #[(0, source 0)] ∧ p.refused = #[1] ∧ p.producer = .stopped ∧ p.act source .run = some p ∧
      ∀ more q, p.play source more = some q → q.drawn = 2 ∧ Drained p q := by
  intro source acts
  let p : Pipeline := ⟨2, .stopped, [], true, [], 2, 2, #[(source 0, true), (source 1, true)],
    #[(0, source 0)], #[1]⟩
  have hp : (fresh 2 0).play source acts = some p := by
    simp [p, acts, play, act, run, decide, take, cancel, join, offer, proceed, hasRoom, room, fresh]
  obtain ⟨-, hrun, hcancelled, -, hrefused, hstopped⟩ := closing_of_play hp
  refine ⟨p, hp, rfl, rfl, rfl, hrefused (by simp [p]), hrun (by simp [acts]), fun more q hplay => ?_⟩
  exact ⟨((hcancelled rfl).1 more q hplay).1, (hstopped rfl).2.2.1 more q hplay⟩

end ExchangeLoad.Pipeline
