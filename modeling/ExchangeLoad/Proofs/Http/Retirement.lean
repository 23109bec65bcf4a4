import ExchangeLoad.Http.Session

/-!
What retires a client that talks to the exchange. The clock that decides on it runs from the sending of
a message to the head of its answer: a head that comes late, or never, retires the client for good. The
time that a client allows for an exchange covers the body too, but nobody looks at the clock again when
it runs out while the body is read.
-/

namespace ExchangeLoad.Http

/-- What becomes of the body of an answer, by the time since the message was sent, in milliseconds. -/
inductive Tail where
  | whole (time : Nat) (text : String)
  /-- The connection breaks off. -/
  | breaks (time : Nat)
  /-- The body never ends. -/
  | stalls
deriving DecidableEq, Repr, Inhabited

/-- What becomes of a message, by the time since it was sent, in milliseconds. -/
inductive Conduct where
  /-- It is never answered. -/
  | silent
  /-- The connection breaks off before any answer. -/
  | breaks (time : Nat)
  /-- The head of an answer comes at a time. -/
  | answers (time status : Nat) (setting : List String) (tail : Tail)
deriving DecidableEq, Repr, Inhabited

/-- The body as it comes to somebody who allows a time for the whole exchange. -/
def Tail.body (allowed : Nat) : Tail → Body
  | whole time text => if time < allowed then .whole text else .broken true
  | breaks time => .broken (allowed ≤ time)
  | stalls => .broken true

namespace Conduct

/-- When the wait for the head of an answer is over by itself. -/
def head? : Conduct → Option Nat
  | silent => none
  | breaks time => some time
  | answers time .. => some time

/-- How a message fares whose sender allows a time for the whole exchange. -/
def delivery (allowed : Nat) : Conduct → Delivery
  | silent => ⟨.outOfTime, allowed⟩
  | breaks time => if time < allowed then ⟨.refused, time⟩ else ⟨.outOfTime, allowed⟩
  | answers time status setting tail =>
    if time < allowed then ⟨.answered status setting (tail.body allowed), time⟩ else ⟨.outOfTime, allowed⟩

end Conduct

/-- Something that a client is called to ask at a time, and what becomes of the message. -/
structure Call where
  now : Int
  request : Request
  conduct : Conduct
deriving Repr, Inhabited

namespace Call

/-- The head of the answer, or the end of the connection, does not come before a time. -/
def Late (time : Nat) (call : Call) : Prop := ∀ head, call.conduct.head? = some head → time ≤ head

instance (time : Nat) (call : Call) : Decidable (call.Late time) :=
  decidable_of_iff (call.conduct.head?.all (time ≤ ·) = true) (by
    cases h : call.conduct.head? <;> simp [Late, h])

/-- Whether the body of an answer with a status is read. -/
def readsBody (call : Call) (status : Nat) : Bool :=
  match call.request with
  | .info _ => true
  | .order .. => true
  | _ => !isSuccess status

/-- The time for the exchange runs out while the body of the answer is read. -/
def Starves (allowed : Nat) (call : Call) : Prop :=
  ∃ time status setting tail, call.conduct = .answers time status setting tail ∧ time < allowed ∧
    call.readsBody status = true ∧ tail.body allowed = .broken true

/-- The time for the exchange runs out, before the head of the answer or while the body is read, or the
    head takes as long as it may not. -/
def Overruns (timeouts : Timeouts) (call : Call) : Prop :=
  call.Late timeouts.operation ∨ call.Starves timeouts.operation ∨ call.Late timeouts.retire

theorem Starves.not_late {allowed : Nat} {call : Call} (h : call.Starves allowed) : ¬ call.Late allowed := by
  obtain ⟨time, status, setting, tail, hconduct, hhead, -⟩ := h
  intro hlate
  have hle := hlate time (by rw [hconduct, Conduct.head?])
  omega

end Call

/-- Whether a request can be sent: nobody can sign a guest up or in. -/
def allows (credentials : Credentials) : Request → Bool
  | .signUp => credentials.identity.isSome
  | .signIn => credentials.identity.isSome
  | _ => true

namespace Session

/-- The session and the answer once a client has been called that allows a time for an exchange. -/
def called (allowed : Nat) (s : Session) (call : Call) : Session × Reply :=
  s.ask call.now call.request fun _ => call.conduct.delivery allowed

/-- The session after calls, one after the other. -/
def after (allowed : Nat) (s : Session) (calls : List Call) : Session :=
  calls.foldl (fun s call => (s.called allowed call).1) s

variable {allowed : Nat} {s : Session} {call : Call} {calls : List Call}

theorem message_of_allows (now : Int) {request : Request} (h : allows s.credentials request = true) :
    ∃ m, s.message now request = .ok m := by
  cases request with
  | signUp =>
    obtain ⟨id, hid⟩ := Option.isSome_iff_exists.mp h
    exact ⟨_, by simp only [message, hid]; rfl⟩
  | signIn =>
    obtain ⟨id, hid⟩ := Option.isSome_iff_exists.mp h
    exact ⟨_, by simp only [message, hid]; rfl⟩
  | _ => exact ⟨_, rfl⟩

/-- What cannot be sent leaves the session as it is. -/
theorem called_of_not_allows (h : allows s.credentials call.request = false) :
    s.called allowed call = (s, .failed noIdentity) := by
  obtain ⟨now, request, conduct⟩ := call
  cases request with
  | signUp => simp only [called, ask, message, Option.not_isSome_iff_eq_none.mp (by simpa [allows] using h)]
  | signIn => simp only [called, ask, message, Option.not_isSome_iff_eq_none.mp (by simpa [allows] using h)]
  | _ => cases h

theorem called_of_allows (h : allows s.credentials call.request = true) : s.called allowed call =
    (s.deliver call.now call.request (call.conduct.delivery allowed),
      reply call.request (call.conduct.delivery allowed)) := by
  obtain ⟨m, hm⟩ := message_of_allows call.now h
  simp only [called, ask, hm]

/-- Only the head of an answer counts, against the time for the exchange and the retire timeout. -/
theorem tooSlow_delivery : s.tooSlow (call.conduct.delivery allowed) = true ↔
    call.Late allowed ∨ call.Late s.retireAfter := by
  obtain ⟨now, request, conduct⟩ := call
  cases conduct with
  | silent => simp [tooSlow, Conduct.delivery, Call.Late, Conduct.head?]
  | breaks time =>
    simp only [tooSlow, Conduct.delivery, Call.Late, Conduct.head?]
    split <;> simp <;> omega
  | answers time status setting tail =>
    simp only [tooSlow, Conduct.delivery, Call.Late, Conduct.head?]
    split <;> simp <;> omega

/-- What one call does to a client: it retires it where the head of the answer was late. -/
theorem retired_called : (s.called allowed call).1.retired = true ↔
    s.retired = true ∨
      allows s.credentials call.request = true ∧ (call.Late allowed ∨ call.Late s.retireAfter) := by
  cases h : allows s.credentials call.request with
  | false => simp [called_of_not_allows h]
  | true => simp [called_of_allows h, deliver, tooSlow_delivery]

theorem called_keeps (allowed : Nat) (s : Session) (call : Call) :
    (s.called allowed call).1.credentials = s.credentials ∧
      (s.called allowed call).1.retireAfter = s.retireAfter := by
  cases h : allows s.credentials call.request with
  | false => simp [called_of_not_allows h]
  | true => simp [called_of_allows h, deliver]

theorem after_keeps : (s.after allowed calls).credentials = s.credentials ∧
    (s.after allowed calls).retireAfter = s.retireAfter := by
  induction calls generalizing s with
  | nil => exact ⟨rfl, rfl⟩
  | cons call rest ih =>
    obtain ⟨hcredentials, hretire⟩ := called_keeps allowed s call
    exact ⟨ih.1.trans hcredentials, ih.2.trans hretire⟩

/-- A client is retired by the calls whose heads were late, and by no others. -/
theorem retired_after : (s.after allowed calls).retired = true ↔ s.retired = true ∨
    ∃ call ∈ calls, allows s.credentials call.request = true ∧
      (call.Late allowed ∨ call.Late s.retireAfter) := by
  induction calls generalizing s with
  | nil => simp [after]
  | cons call rest ih =>
    obtain ⟨hcredentials, hretire⟩ := called_keeps allowed s call
    have hrest := ih (s := (s.called allowed call).1)
    rw [retired_called, hretire, hcredentials] at hrest
    rw [show s.after allowed (call :: rest) = (s.called allowed call).1.after allowed rest from rfl, hrest]
    simp only [List.mem_cons, exists_eq_or_imp, or_assoc]

/-- Whoever asked is told of a failure when the time runs out while the body is read. -/
theorem called_of_starves (h : allows s.credentials call.request = true) (hstarves : call.Starves allowed) :
    ∃ why, (s.called allowed call).2 = .failed why := by
  obtain ⟨time, status, setting, tail, hconduct, hhead, hreads, hbody⟩ := hstarves
  obtain ⟨now, request, conduct⟩ := call
  obtain rfl : conduct = .answers time status setting tail := hconduct
  rw [called_of_allows h]
  simp only [reply, Conduct.delivery, if_pos hhead, hbody]
  split
  · next hsuccess =>
    cases request with
    | info cursor => exact ⟨_, rfl⟩
    | order kind amount price => exact ⟨_, rfl⟩
    | _ => simp [Call.readsBody, hsuccess] at hreads
  · exact ⟨_, rfl⟩

/-- A client that was called again and again, whatever the server made of each message and however long
    that took, is retired if and only if the head of an answer took as long as the retire timeout, or did
    not come within the time for the exchange. Once retired it stays so, and what a guest cannot ask has
    no part in this. The body has none either: where the head comes in time and the time for the exchange
    runs out over the body, the caller is told of a failure, and the client is as fit as before. -/
theorem retired_iff_late_head (endpoint : String) (credentials : Credentials) (timeouts : Timeouts)
    (calls : List Call) :
    let s := (fresh endpoint credentials timeouts).after timeouts.operation calls
    (s.retired = true ↔ ∃ call ∈ calls, allows credentials call.request = true ∧
      (call.Late timeouts.operation ∨ call.Late timeouts.retire)) ∧
    (∀ more, s.retired = true → (s.after timeouts.operation more).retired = true) ∧
    (∀ call, allows credentials call.request = false →
      s.called timeouts.operation call = (s, .failed noIdentity)) ∧
    ∀ call, allows credentials call.request = true → call.Starves timeouts.operation →
      ¬ call.Late timeouts.retire → (s.called timeouts.operation call).1.retired = s.retired ∧
        ∃ why, (s.called timeouts.operation call).2 = .failed why := by
  intro s
  obtain ⟨hcredentials, hretire⟩ : s.credentials = credentials ∧ s.retireAfter = timeouts.retire :=
    after_keeps
  refine ⟨?_, fun more h => retired_after.mpr (.inl h), ?_, ?_⟩
  · rw [retired_after]
    simp [fresh]
  · intro call h
    exact called_of_not_allows (by rwa [hcredentials])
  · intro call h hstarves hfit
    have hallows : allows s.credentials call.request = true := by rwa [hcredentials]
    refine ⟨?_, called_of_starves hallows hstarves⟩
    rw [Bool.eq_iff_iff, retired_called, hretire]
    simp [hstarves.not_late, hfit]

/-- A guest cannot sign in, which changes nothing; the head of the next answer comes within the time for
    the exchange, but not before the retire timeout, and the last answer comes at once. -/
theorem retired_by_late_head :
    let timeouts : Timeouts := ⟨300, 100⟩
    let calls : List Call := [⟨0, .signIn, .silent⟩, ⟨1, .info 0, .answers 100 200 [] .stalls⟩,
      ⟨2, .info 0, .answers 0 200 [] (.whole 0 "\x7b\x7d")⟩]
    ((fresh "http://localhost" .guest timeouts).after 300 calls).retired = true ∧
      ((fresh "http://localhost" .guest timeouts).after 300 (calls.take 1)).retired = false := by
  intro timeouts calls
  obtain ⟨hretired, -⟩ := retired_iff_late_head "http://localhost" .guest timeouts calls
  obtain ⟨hfit, -⟩ := retired_iff_late_head "http://localhost" .guest timeouts (calls.take 1)
  refine ⟨hretired.mpr ⟨calls[1], List.getElem_mem _, by decide, .inr (by decide)⟩, ?_⟩
  rw [← Bool.not_eq_true, hfit]
  decide

/-- The head of an answer comes at once and its body never ends: the time for the exchange runs out, and
    the client is not retired. -/
theorem not_retired_by_stalled_body :
    let timeouts : Timeouts := ⟨300, 10000⟩
    let credentials : Credentials := .investor ⟨"inv-1"⟩ "" ""
    let calls : List Call := [⟨0, .info 0, .answers 0 200 [] .stalls⟩]
    ¬ (((fresh "http://localhost" credentials timeouts).after timeouts.operation calls).retired = true ↔
      ∃ call ∈ calls, allows credentials call.request = true ∧ call.Overruns timeouts) := by
  intro timeouts credentials calls h
  have hstarves : calls[0].Starves 300 := ⟨0, 200, [], .stalls, rfl, by decide, rfl, rfl⟩
  have hretired := h.mpr ⟨calls[0], List.mem_singleton_self _, rfl, .inr (.inl hstarves)⟩
  exact absurd hretired (by decide +kernel)

end Session

end ExchangeLoad.Http
