import ExchangeLoad.Proofs.Run.Crew
import ExchangeLoad.Proofs.Run.Punctual
import ExchangeLoad.Proofs.Trader.Share

/-!
What the body of a task does first. A scripted job notes down that it runs, a sign-in asks to sign up, a trade
asks for the market, and an enrolment makes its deposit; no later stretch of a body does any of this. So the
stretches in which bodies begin are known by what they leave on record, whatever is noted of the execution.
-/

namespace ExchangeLoad

open Investor

/-- After an answer a job does not ask again for what it asked for first. -/
theorem Investor.Resumed.asked {v w : Investor} {p : Point} {reply : Reply} {aborted : Bool} {gain : Int}
    {progress : Progress} (h : Resumed v aborted p reply w gain progress) :
    w.asked = v.asked ∨ ∃ request, w.asked = v.asked ++ [request] ∧ request ≠ .signUp ∧
      ∀ cursor, request ≠ .info cursor := by
  have hheard : (v.heard p reply).client.asked = v.client.asked := rfl
  cases h with
  | trouble => exact .inl rfl
  | setback => exact .inl (by simp [Investor.asked, hheard])
  | signedUp => exact .inr ⟨.signIn, asked_askAt, by simp, by simp⟩
  | signedIn => exact .inl rfl
  | desisted => exact .inl (by simp [Investor.asked, hheard])
  | ordered aim cursor m =>
    have hasked := asked_askAt (v := (v.heard (.asking aim cursor) (.market m)).learn m)
      (p := .ordering (bookPrice v.params.kind.orderKind aim m))
    rw [show ((v.heard (.asking aim cursor) (.market m)).learn m).asked = v.asked by
      simp [Investor.asked, hheard]] at hasked
    exact .inr ⟨_, hasked, by simp [request], by simp [request]⟩
  | placed => exact .inl (by simp [Investor.asked, hheard])

namespace Run

/-- What a scripted job notes down in its first stretch: that it runs, and that it stopped, where the run had
    been aborted before and it was to wait for that. -/
def firstNotes (s : Run) (label : String) (script : Script) : List Note :=
  ⟨label, if s.aborted then "run-cancelled" else "run", s.now⟩ ::
    if script.work.isSome && s.aborted && !script.stubborn then [⟨label, "stopped", s.now⟩] else []

/-- Whether the investor with number `i` has asked for one thing more, told by how it stood before. -/
def asks (s t : Run) (i : Nat) (request : Investor → Request) : Bool :=
  (s.investors[i]?).any fun v => (t.investors[i]?).any fun w => w.asked = v.asked ++ [request v]

/-- Whether the execution with number `e` ended well without anything done to any investor. -/
def quits (s t : Run) (e : Nat) : Bool :=
  (t.executions[e]?).any fun y => y.phase = .ended s.now none && t.investors = s.investors

/-- Whether a run shows what the body of a task in the execution with number `e` does first, where it was
    `s` before: a scripted job notes that it runs, and scores unless it works for some time first; a sign-in
    asks to sign up, but is over at once in a run that has been aborted; a trade asks for the market from its
    cursor on; and an enrolment makes its deposit. -/
def begins (s t : Run) (e : Nat) : Task → Bool
  | .exec label _ (.scripted script) =>
    t.notes.toList = s.notes.toList ++ s.firstNotes label script &&
      t.tracker.score = if script.work.isSome then s.tracker.score else (s.tracker.addScore script.score).score
  | .exec _ _ (.signIn i) => if s.aborted then s.quits t e else s.asks t i fun _ => .signUp
  | .exec _ _ (.trade i _) => s.asks t i fun v => .info v.cursor
  | .enrol i credit => t.deposits.toList = s.deposits.toList ++ [⟨s.identity i, credit, none⟩]

variable {scene : Scene} {r s t : Run} {e i : Nat} {x y : Execution} {a : Step} {script : Script}
  {label : String} {request : Investor → Request}

section Shown

theorem conclude_books (failure : Option Fault) : (s.conclude e failure).notes = s.notes ∧
    (s.conclude e failure).tracker.score = s.tracker.score := by
  cases failure <;> exact ⟨rfl, rfl⟩

theorem perform_books (script : Script) : (s.perform e script).notes = s.notes ∧
    (s.perform e script).tracker.score = (s.tracker.addScore script.score).score := by
  let scored : Run := { s with tracker := s.tracker.addScore script.score }
  unfold perform
  cases script.change with
  | none => exact conclude_books (s := scored) _
  | some change =>
    cases hv : s.investors[change.investor]? with
    | none =>
      simp only [hv, Option.elim_none]
      exact conclude_books (s := scored) _
    | some v =>
      simp only [hv, Option.elim_some]
      exact conclude_books (s := scored.withInvestor change.investor (v.change change)) _

theorem beginScript_begins (label : String) (delay : Nat) (script : Script) :
    s.begins (s.beginScript e label script) e (.exec label delay (.scripted script)) = true := by
  unfold begins beginScript firstNotes
  cases hwork : script.work with
  | none => simp [hwork, perform_books, note]
  | some ms =>
    by_cases hstops : s.aborted && !script.stubborn
    · simp [hwork, hstops, conclude_books, note]
    · simp [hwork, hstops, withPhase, note]

theorem asks_of_asked {v w : Investor} (hv : s.investors[i]? = some v) (hw : t.investors[i]? = some w)
    (hasked : w.asked = v.asked ++ [request v]) : s.asks t i request = true := by
  simp [asks, hv, hw, hasked]

/-- A trader that was built asks first for what its task demands; a sign-in that comes too late does nothing. -/
theorem beginBody_begins_of_trader (hx : r.executions[e]? = some x) (hjob : x.task.OfTrader)
    (htrader : traderOf x.task = some i) (hbuilt : r.investors[i]? ≠ none) :
    r.begins (r.beginBody e) e x.task = true := by
  obtain ⟨k, v, ⟨w, progress⟩, hk, hv, hopening, hbody⟩ | ⟨-, hnone⟩ := beginBody_cases hx hjob
  · obtain rfl := Option.some.inj (htrader.symm.trans hk)
    have hw : (r.beginBody e).investors[i]? = some w := by
      rw [hbody]
      exact getElem?_advance hv
    generalize x.task = task at htrader hopening ⊢
    cases opened_of_opening hopening with
    | quit label delay k haborted =>
      obtain rfl := Option.some.inj htrader
      have hended := getElem?_of_set hx (beginBody_executions hx hbody)
      have hsame : (r.beginBody e).investors = r.investors := by
        obtain ⟨hi, rfl⟩ := Array.getElem?_eq_some_iff.mp hv
        rw [hbody, advance_investors]
        simp [begun, Array.setIfInBounds, hi]
      simp [begins, haborted, quits, hended, hsame, Progress.phase]
    | signUp label delay k haborted =>
      obtain rfl := Option.some.inj htrader
      simpa [begins, haborted] using asks_of_asked hv hw asked_askAt
    | look label delay k price =>
      obtain rfl := Option.some.inj htrader
      exact asks_of_asked hv hw asked_askAt
  · exact absurd (hnone i htrader) hbuilt

/-- A body does first what its task demands, unless it is for an investor that was never built. -/
theorem beginBody_begins (hx : r.executions[e]? = some x)
    (hbuilt : ∀ i, traderOf x.task = some i → r.investors[i]? ≠ none) :
    r.begins (r.beginBody e) e x.task = true := by
  have hbegun : ((r.begun e).executions[e]?).map Execution.task = some x.task := by
    simp [begun, Array.getElem?_modify, hx]
  have hofTrader (i : Nat) := beginBody_begins_of_trader (i := i) hx
  cases htask : x.task with
  | exec label delay job =>
    rw [htask] at hofTrader hbuilt
    cases job with
    | signIn i => exact hofTrader i trivial rfl (hbuilt i rfl)
    | trade i price => exact hofTrader i trivial rfl (hbuilt i rfl)
    | scripted script =>
      have hbody : r.beginBody e = (r.begun e).beginScript e label script := by
        unfold beginBody
        rw [← begun]
        simp only [hbegun, htask]
      rw [hbody]
      exact beginScript_begins (s := r.begun e) label delay script
  | enrol i credit =>
    have hbody : (r.beginBody e).deposits = r.deposits.push ⟨r.identity i, credit, none⟩ := by
      unfold beginBody
      rw [← begun]
      simp only [hbegun, htask]
      rfl
    simp [begins, hbody]

end Shown

section Hidden

theorem not_asks (h : ∀ v w, s.investors[i]? = some v → t.investors[i]? = some w →
    w.asked ≠ v.asked ++ [request v]) : s.asks t i request = false := by
  unfold asks
  cases hv : s.investors[i]? with
  | none => rfl
  | some v =>
    cases hw : t.investors[i]? with
    | none => rfl
    | some w => simpa using h v w hv hw

/-- Where nothing is noted, asked or deposited, no body begins, unless it is over at once. -/
theorem not_begins_of_still (task : Task) (hnotes : t.notes = s.notes) (hinvestors : t.investors = s.investors)
    (hdeposits : t.deposits = s.deposits) (hquits : s.aborted = true → s.quits t e = false) :
    s.begins t e task = false := by
  have hasks (i : Nat) (request : Investor → Request) : s.asks t i request = false := by
    refine not_asks fun v w hv hw hasked => ?_
    rw [hinvestors, hv] at hw
    obtain rfl := Option.some.inj hw
    simp at hasked
  cases task with
  | exec label delay job =>
    cases job with
    | signIn i =>
      rw [begins]
      split
      · next haborted => exact hquits haborted
      · exact hasks i _
    | trade i price => exact hasks i _
    | scripted script => simp [begins, hnotes, firstNotes]
  | enrol i credit => simp [begins, hdeposits]

/-- What a scripted job notes down later is not what it notes down first. -/
theorem not_begins_of_note {what : String} (delay : Nat) (script : Script)
    (hnotes : t.notes = s.notes.push ⟨label, what, s.now⟩) (hrun : what ≠ "run")
    (hcancelled : what ≠ "run-cancelled") : s.begins t e (.exec label delay (.scripted script)) = false := by
  have hlater : t.notes.toList ≠ s.notes.toList ++ s.firstNotes label script := by
    rw [hnotes, Array.toList_push, firstNotes]
    cases s.aborted <;> simp [hrun, hcancelled]
  simp [begins, hlater]

/-- An enrolment that makes no deposit does not begin. -/
theorem not_begins_of_deposits {credit : Int} (hdeposits : t.deposits.size ≤ s.deposits.size) :
    s.begins t e (.enrol i credit) = false := by
  have hnone : t.deposits.toList ≠ s.deposits.toList ++ [⟨s.identity i, credit, none⟩] := by
    intro hsame
    have hlength := congrArg List.length hsame
    simp only [Array.length_toList, List.length_append, List.length_singleton] at hlength
    omega
  simp [begins, hnone]

/-- The stretch of a trader's job after an answer begins no body. -/
theorem not_begins_of_resume {v w : Investor} {p : Point} {reply : Reply} {aborted : Bool} {gain : Int}
    {progress : Progress} {task : Task} (htrader : traderOf task = some i) (hv : s.investors[i]? = some v)
    (hw : t.investors[i]? = some w) (hresume : v.resume p reply aborted = some (w, gain, progress)) :
    s.begins t e task = false := by
  have hasks (request : Investor → Request) (hfirst : request v = .signUp ∨ request v = .info v.cursor) :
      s.asks t i request = false := by
    refine not_asks fun v' w' hv' hw' hasked => ?_
    obtain rfl := Option.some.inj (hv.symm.trans hv')
    obtain rfl := Option.some.inj (hw.symm.trans hw')
    obtain hsame | ⟨other, hother, hnotSignUp, hnotInfo⟩ := (resumed_of_resume hresume).asked
    · simp [hsame] at hasked
    · obtain rfl : other = request v := by simpa [hother] using hasked
      obtain hsignUp | hinfo := hfirst
      · exact hnotSignUp hsignUp
      · exact hnotInfo _ hinfo
  have hchanged : t.investors ≠ s.investors := by
    intro hsame
    rw [hsame, hv] at hw
    obtain rfl := Option.some.inj hw
    obtain ⟨hanswers, -⟩ := resume_eq_some hresume
    simp at hanswers
  cases task with
  | exec label delay job =>
    cases job with
    | signIn k =>
      obtain rfl := Option.some.inj htrader
      rw [begins]
      split
      · simp [quits, hchanged]
      · exact hasks _ (.inl rfl)
    | trade k price =>
      obtain rfl := Option.some.inj htrader
      exact hasks _ (.inr rfl)
    | scripted script => cases htrader
  | enrol k credit => cases htrader

end Hidden

/-- A stretch of an execution shows what its body does first exactly where the body begins. -/
theorem TaskMove.begins_eq_opens (hx : r.executions[e]? = some x)
    (hbuilt : ∀ i, traderOf x.task = some i → r.investors[i]? ≠ none) (h : TaskMove e r x a t) :
    r.begins t e x.task = r.opens e a := by
  have hstill (phase : Phase) (hphase : r.aborted = true → phase ≠ .ended r.now none)
      (hsame : t.executions.toList = r.executions.toList.set e { x with phase })
      (hrest : (t.notes, t.investors, t.deposits) = (r.notes, r.investors, r.deposits)) :
      r.begins t e x.task = false := by
    simp only [Prod.mk.injEq] at hrest
    obtain ⟨hnotes, hinvestors, hdeposits⟩ := hrest
    refine not_begins_of_still x.task hnotes hinvestors hdeposits fun haborted => ?_
    simp [quits, getElem?_of_set hx hsame, hphase haborted]
  cases h with
  | begin _ _ hact =>
    rw [beginBody_begins hx hbuilt]
    obtain ⟨rfl, hdelay⟩ | rfl := hact
    · simp [opens, hx, hdelay]
    · simp [opens]
  | delay _ hdelay =>
    rw [hstill _ (by simp) (toList_modify_eq_set hx) rfl]
    simp [opens, hx, hdelay]
  | drop _ _ _ hact =>
    rw [hstill _ (by simp) (toList_modify_eq_set hx) rfl]
    obtain ⟨rfl, hdelay⟩ | rfl := hact
    · simp [opens, hx, hdelay]
    · rfl
  | hear point i v w reply gain progress _ htrader hv hresume =>
    exact not_begins_of_resume htrader hv (getElem?_advance hv) hresume
  | finish wake label delay script _ htask =>
    obtain ⟨hnotes, -⟩ := perform_books (s := r.note label "done") (e := e) script
    rw [htask]
    exact not_begins_of_note delay script hnotes (by decide) (by decide)
  | stop wake label delay script _ htask =>
    obtain ⟨hnotes, -⟩ := conclude_books (s := r.note label "stopped") (e := e) none
    rw [htask]
    exact not_begins_of_note delay script hnotes (by decide) (by decide)
  | enrol deposit i credit accepted _ htask =>
    rw [htask]
    refine not_begins_of_deposits (Nat.le_of_eq ?_)
    simp [endExecution, close, withPhase, registered, settleDeposit]

end Run

end ExchangeLoad
