import ExchangeLoad.Proofs.Run.Over
import ExchangeLoad.Proofs.Run.Shutdown
import Mathlib.Data.ENat.Lattice
import Mathlib.Data.Finset.Lattice.Fold

/-!
What somebody is told who waits for the tasks under way. Time passes while anybody waits only up to the end
of the grace, and only as long as something is under way; so the answer comes at the end of the grace, or at
the moment at which the last task is over, and tells which it was. Tasks in their delay do not hold it up
once the run has been aborted.
-/

namespace ExchangeLoad

/-- Those who wait are told of in a fixed way, and everything else as it is. -/
def Veil.fixed (shutdowns : Array Shutdown) : Veil :=
  { Veil.unwatched with shutdowns := fun _ => shutdowns }

namespace Run

/-- The numbers of the executions that are counted as under way. -/
def underWay (r : Run) : Finset Nat :=
  (Finset.range r.executions.size).filter fun e => (r.executions[e]?).any Execution.underWay

/-- What somebody who began to wait at a time, for so long at most, is told at another time, going by some
    executions: the time is that at which the last of them is over or the grace is, and the answer tells
    whether they all were over within the grace. The answer is open where one of them is over just when the
    grace is. -/
structure Verdict (members : Finset Nat) (begun grace : Nat) (drained : Bool) (time : Nat) (t : Run) :
    Prop where
  time : (time : ℕ∞) = min ↑(begun + grace) (max ↑begun (members.sup t.overAt))
  drained : (∀ e ∈ members, t.overAt e ≠ ↑(begun + grace)) →
    (drained = true ↔ ∀ e ∈ members, t.overAt e ≤ ↑(begun + grace))

variable {scene : Scene} {r₀ r s t u : Run} {a : Step} {e k n begun grace : Nat} {x : Execution} {w : Shutdown}

section Watching

theorem step_shutdowns (ha : a.watches = false) (h : r.step scene a = some t) : t.shutdowns = r.shutdowns := by
  by_cases hwait : ∃ ms, a = .wait ms
  · obtain ⟨ms, rfl⟩ := hwait
    obtain ⟨-, hpassed⟩ := Option.ite_none_right_eq_some.mp h
    obtain rfl := Option.some.inj hpassed
    rfl
  · -- With the record fixed at what it is now, the step comes to the same run.
    have hsame : (Veil.fixed r.shutdowns).veiled r = r := by
      simp [Veil.veiled, Veil.fixed, Veil.unwatched]
    have hstep := (Veil.fixed r.shutdowns).step r scene (fun ms hms => hwait ⟨ms, hms⟩) ha
    rw [hsame, show (Veil.fixed r.shutdowns).verdict = id from rfl, Step.told_id, h, Option.map_some] at hstep
    have hfixed := congrArg Run.shutdowns (Option.some.inj hstep)
    exact hfixed

theorem answer_eq_some (h : r.step scene (.answer k) = some t) :
    ∃ w, r.shutdowns[k]? = some w ∧ r.answerable w = true ∧ t = { r with
      shutdowns := r.shutdowns.modify k fun w => { w with answer := some (decide (r.inFlight = 0), r.now) } } := by
  obtain ⟨w, hw, hanswer⟩ := Option.bind_eq_some_iff.mp h
  obtain ⟨hanswerable, hanswered⟩ := Option.ite_none_right_eq_some.mp hanswer
  exact ⟨w, hw, hanswerable, (Option.some.inj hanswered).symm⟩

/-- What is noted of somebody who waits stays as it is until the answer. -/
theorem step_shutdown (h : r.step scene a = some t) (hw : r.shutdowns[k]? = some w) :
    t.shutdowns[k]? = some w ∨ a = .answer k ∧ r.answerable w = true ∧
      t.shutdowns[k]? = some { w with answer := some (decide (r.inFlight = 0), r.now) } := by
  obtain ⟨hk, -⟩ := Array.getElem?_eq_some_iff.mp hw
  cases ha : a.watches with
  | false => exact .inl (by rw [step_shutdowns ha h, hw])
  | true =>
    cases a with
    | shutdown grace =>
      obtain rfl := Option.some.inj h
      exact .inl (by rw [Array.getElem?_push, if_neg (Nat.ne_of_lt hk), hw])
    | answer j =>
      obtain ⟨y, hy, hanswerable, rfl⟩ := answer_eq_some h
      by_cases hj : j = k
      · subst hj
        obtain rfl := Option.some.inj (hw.symm.trans hy)
        exact .inr ⟨rfl, hanswerable, by simp [Array.getElem?_modify, hw]⟩
      · exact .inl (by simp [Array.getElem?_modify, hj, hw])
    | _ => cases ha

/-- An answer is given once. -/
theorem Reaches.answered (h : Reaches scene r t) (hw : r.shutdowns[k]? = some w) (hanswer : w.answer ≠ none) :
    t.shutdowns[k]? = some w := by
  induction h with
  | refl => exact hw
  | step a _ hstep ih =>
    obtain hkept | ⟨-, hanswerable, -⟩ := step_shutdown hstep ih
    · exact hkept
    · simp [answerable, hanswer] at hanswerable

theorem not_answerable_of_quiet (hquiet : r.quiet = true) (hw : r.shutdowns[k]? = some w) :
    r.answerable w = false := by
  simp only [quiet, Bool.and_eq_true] at hquiet
  obtain ⟨⟨⟨⟨-, -⟩, hshutdowns⟩, -⟩, -⟩ := hquiet
  obtain ⟨hk, rfl⟩ := Array.getElem?_eq_some_iff.mp hw
  simpa using Array.all_eq_true.mp hshutdowns k hk

/-- Time stops when the grace of somebody who waits is over. -/
theorem le_grace_of_horizon (hhorizon : r.horizon.all (n ≤ ·) = true)
    (hw : r.shutdowns[k]? = some ⟨begun, grace, none⟩) : n ≤ begun + grace := by
  simp only [horizon, all_earlier, Bool.and_eq_true, ← Array.foldl_toList, foldl_earlier_all] at hhorizon
  obtain ⟨-, ⟨-, hshutdowns⟩, -⟩ := hhorizon
  have hall := List.all_eq_true.mp hshutdowns _ (Array.mem_toList_iff.mpr (Array.mem_of_getElem? hw))
  simpa [shutdownMoment] using hall

/-- Whoever waits has been answered or is still within the grace. -/
theorem Reaches.waiting (h : Reaches scene s t) (hw : s.shutdowns[k]? = some ⟨begun, grace, none⟩)
    (hnow : s.now ≤ begun + grace) :
    ∃ answer, t.shutdowns[k]? = some ⟨begun, grace, answer⟩ ∧ (answer = none → t.now ≤ begun + grace) := by
  induction h with
  | refl => exact ⟨none, hw, fun _ => hnow⟩
  | @step u t a _ hstep ih =>
    obtain ⟨answer, hu, hwithin⟩ := ih
    obtain hkept | ⟨-, -, hanswered⟩ := step_shutdown hstep hu
    · refine ⟨answer, hkept, fun hnone => ?_⟩
      subst hnone
      obtain hstill | ⟨-, -, hhorizon⟩ := (step_onward hstep).clock
      · rw [hstill]
        exact hwithin rfl
      · exact le_grace_of_horizon hhorizon hu
    · exact ⟨_, hanswered, by simp⟩

/-- Once nothing is under way or the grace is over, the answer can be given and time does not pass before. -/
theorem answer_of_answerable (hw : r.shutdowns[k]? = some w) (hanswerable : r.answerable w = true) :
    (∃ t, r.step scene (.answer k) = some t) ∧ ∀ ms, r.step scene (.wait ms) = none := by
  constructor
  · simp [step, answerShutdown, hw, hanswerable]
  · intro ms
    have hquiet : r.quiet = false := by
      by_contra hquiet
      cases (not_answerable_of_quiet (eq_true_of_ne_false hquiet) hw).symm.trans hanswerable
    simp [step, wait, hquiet]

end Watching

section Waiting

theorem mem_underWay : e ∈ r.underWay ↔ ∃ x, r.executions[e]? = some x ∧ x.submitted = true ∧ r.over? e = none := by
  rw [underWay, Finset.mem_filter, Finset.mem_range]
  cases hx : r.executions[e]? with
  | none => simp
  | some x =>
    obtain ⟨he, -⟩ := Array.getElem?_eq_some_iff.mp hx
    simp [he, Execution.underWay, over?_of_getElem? hx, Execution.finished_eq_false_iff]

/-- Nothing that was handed over since was submitted. -/
def Unfed (s t : Run) : Prop :=
  ∀ (e : Nat) (x : Execution), s.executions.size ≤ e → t.executions[e]? = some x → x.submitted = false

theorem Unfed.before (h : Unfed s t) (ht : Reaches scene u t) : Unfed s u := by
  intro e x hle hx
  obtain ⟨y, hy, -, hsubmitted⟩ := ht.kept hx
  rw [← hsubmitted]
  exact h e y hle hy

/-- As long as nothing is submitted, nothing is counted as under way once all that was is over. -/
theorem inFlight_eq_zero_iff (hs : s.Balanced) (h : Reaches scene s t) (hunfed : Unfed s t) :
    t.inFlight = 0 ↔ ∀ e ∈ s.underWay, t.over? e ≠ none := by
  have hbalanced : t.inFlight = t.executions.toList.countP Execution.underWay := h.balanced hs
  rw [hbalanced, List.countP_eq_zero]
  constructor
  · intro hnone e he hopen
    obtain ⟨x, hx, hsubmitted, -⟩ := mem_underWay.mp he
    obtain ⟨y, hy, -, hsubmitted'⟩ := h.kept hx
    rw [over?_of_getElem? hy] at hopen
    apply hnone y (Array.mem_toList_iff.mpr (Array.mem_of_getElem? hy))
    simp [Execution.underWay, hsubmitted', hsubmitted, Execution.finished_eq_false_iff.mpr hopen]
  · intro hover y hy hunderWay
    obtain ⟨e, hy⟩ := List.mem_iff_getElem?.mp hy
    rw [Array.getElem?_toList] at hy
    obtain ⟨hsubmitted, hunfinished⟩ := Bool.and_eq_true_iff.mp hunderWay
    have hopen : t.over? e = none := by
      rw [over?_of_getElem? hy, Execution.finished_eq_false_iff.mp (by simpa using hunfinished)]
    -- What is under way was there at the beginning, and was under way then.
    cases hx : s.executions[e]? with
    | none => cases (hunfed e y (by simpa using hx) hy).symm.trans hsubmitted
    | some x =>
      obtain ⟨z, hz, -, hsubmitted'⟩ := h.kept hx
      obtain rfl := Option.some.inj (hy.symm.trans hz)
      have hbefore : s.over? e = none := by
        obtain hkept | ⟨hbefore, -⟩ := h.over?_cases hx
        · exact hkept.symm.trans hopen
        · exact hbefore
      exact hover e (mem_underWay.mpr ⟨x, hx, hsubmitted'.symm.trans hsubmitted, hbefore⟩) hopen

/-- Time passes only until all is over that was under way: something of it is over no earlier than now. -/
theorem Reaches.awaited (hs : s.Balanced) (h : Reaches scene s t) (hunfed : Unfed s t)
    (hw : s.shutdowns[k]? = some ⟨begun, grace, none⟩) (hnow : s.now ≤ begun + grace)
    (ht : t.shutdowns[k]? = some ⟨begun, grace, none⟩) :
    t.now = s.now ∨ ∃ e ∈ s.underWay, (t.now : ℕ∞) ≤ t.overAt e := by
  induction h with
  | refl => exact .inl rfl
  | @step u t a hu hstep ih =>
    have hunfed' : Unfed s u := hunfed.before (.step a (.refl u) hstep)
    obtain ⟨answer, hwaiting, -⟩ := hu.waiting hw hnow
    have hunanswered : answer = none := by
      by_contra hsome
      have hkept := Reaches.answered (.step a (.refl u) hstep) hwaiting hsome
      cases (ht.symm.trans hkept)
      exact hsome rfl
    subst hunanswered
    obtain hstill | ⟨hquiet, -, -⟩ := (step_onward hstep).clock
    · rw [hstill]
      obtain hstart | ⟨e, he, hle⟩ := ih hunfed' hwaiting
      · exact .inl hstart
      · refine .inr ⟨e, he, ?_⟩
        obtain ⟨x, hx, -⟩ := mem_underWay.mp he
        obtain ⟨y, hy, -⟩ := hu.kept hx
        cases hover : u.over? e with
        | none => exact hstill ▸ step_le_overAt hstep hy hover
        | some time =>
          rwa [overAt_of_over? (Reaches.over?_eq (.step a (.refl u) hstep) hover), ← overAt_of_over? hover]
    · -- The clock moves only while somebody who waits could not be answered.
      have hnot := not_answerable_of_quiet hquiet hwaiting
      simp only [answerable, Option.isNone_none, Bool.true_and, Bool.or_eq_false_iff,
        decide_eq_false_iff_not] at hnot
      have hopen := mt (inFlight_eq_zero_iff hs hu hunfed').mpr hnot.1
      push Not at hopen
      obtain ⟨e, he, hopen⟩ := hopen
      obtain ⟨x, hx, -⟩ := mem_underWay.mp he
      obtain ⟨y, hy, -⟩ := hu.kept hx
      exact .inr ⟨e, he, step_le_overAt hstep hy hopen⟩

end Waiting

section Verdicts

variable {v : Run} {members others : Finset Nat} {drained : Bool} {time : Nat}

/-- What is over just when somebody begins to wait makes no difference to the verdict. -/
theorem Verdict.narrow (h : Verdict members begun grace drained time t) (hgrace : 0 < grace)
    (hsubset : others ⊆ members) (hrest : ∀ e ∈ members, e ∉ others → t.overAt e = begun) :
    Verdict others begun grace drained time t := by
  obtain ⟨htime, hdrained⟩ := h
  have hbegun : (begun : ℕ∞) < ↑(begun + grace) := by
    exact_mod_cast Nat.lt_add_of_pos_right hgrace
  constructor
  · rw [htime]
    congr 1
    apply le_antisymm
    · refine max_le (le_max_left _ _) (Finset.sup_le fun e he => ?_)
      by_cases hother : e ∈ others
      · exact le_max_of_le_right (Finset.le_sup hother)
      · exact le_max_of_le_left (hrest e he hother).le
    · exact max_le_max le_rfl (Finset.sup_mono hsubset)
  · intro hne
    rw [hdrained fun e he => ?_]
    · refine ⟨fun hall e he => hall e (hsubset he), fun hall e he => ?_⟩
      by_cases hother : e ∈ others
      · exact hall e hother
      · exact (hrest e he hother).trans_le hbegun.le
    · by_cases hother : e ∈ others
      · exact hne e hother
      · rw [hrest e he hother]
        exact hbegun.ne

/-- Where each of those under way stands at the time of the answer: it is over by then, or is over no
    earlier than then. -/
theorem Reaches.over_or_le (hu : Reaches scene s u) (ht : Reaches scene u t) (he : e ∈ s.underWay) :
    (∃ time, u.over? e = some time ∧ t.overAt e = time ∧ s.now ≤ time ∧ time ≤ u.now) ∨
      u.over? e = none ∧ (u.now : ℕ∞) ≤ t.overAt e := by
  obtain ⟨x, hx, -, hopen⟩ := mem_underWay.mp he
  obtain ⟨y, hy, -⟩ := hu.kept hx
  obtain hsame | ⟨-, time, hover, hle, hle'⟩ := hu.over?_cases hx
  · exact .inr ⟨hsame.trans hopen, ht.le_overAt hy (hsame.trans hopen)⟩
  · exact .inl ⟨time, hover, overAt_of_over? (ht.over?_eq hover), hle, hle'⟩

/-- Somebody who began to wait in `s`, for so long at most, is to be answered in `u`, and `t` comes later.
    Nothing was submitted meanwhile. -/
structure AnswerDue (scene : Scene) (s u t : Run) (k grace : Nat) : Prop where
  balanced : s.Balanced
  wait : Reaches scene s u
  later : Reaches scene u t
  unfed : Unfed s u
  begun : s.shutdowns[k]? = some ⟨s.now, grace, none⟩
  waiting : u.shutdowns[k]? = some ⟨s.now, grace, none⟩
  due : u.inFlight = 0 ∨ s.now + grace ≤ u.now

namespace AnswerDue

theorem drained_iff (h : AnswerDue scene s u t k grace) :
    u.inFlight = 0 ↔ ∀ e ∈ s.underWay, u.over? e ≠ none :=
  inFlight_eq_zero_iff h.balanced h.wait h.unfed

theorem now_le_grace (h : AnswerDue scene s u t k grace) : u.now ≤ s.now + grace := by
  obtain ⟨answer, hanswer, hwithin⟩ := h.wait.waiting h.begun (Nat.le_add_right _ _)
  apply hwithin
  cases h.waiting.symm.trans hanswer
  rfl

theorem now_le_over (h : AnswerDue scene s u t k grace) :
    (u.now : ℕ∞) ≤ max ↑s.now (s.underWay.sup t.overAt) := by
  obtain hstart | ⟨e, he, hle⟩ := h.wait.awaited h.balanced h.unfed h.begun (Nat.le_add_right _ _) h.waiting
  · apply le_max_of_le_left
    rw [hstart]
  · apply le_max_of_le_right
    apply le_trans _ (Finset.le_sup he)
    obtain ⟨time, hover, hover', -⟩ | ⟨-, hle'⟩ := h.wait.over_or_le h.later he
    · rwa [hover', ← overAt_of_over? hover]
    · exact hle'

theorem over_le_now (h : AnswerDue scene s u t k grace) (hnone : u.inFlight = 0) :
    max ↑s.now (s.underWay.sup t.overAt) ≤ (u.now : ℕ∞) := by
  apply max_le (by exact_mod_cast h.wait.now_le)
  apply Finset.sup_le
  intro e he
  obtain ⟨time, -, hover, -, hle⟩ | ⟨hopen, -⟩ := h.wait.over_or_le h.later he
  · rw [hover]
    exact_mod_cast hle
  · exact absurd hopen (h.drained_iff.mp hnone e he)

/-- The answer comes when the last of those under way is over, or the grace is. -/
theorem now_eq (h : AnswerDue scene s u t k grace) :
    (u.now : ℕ∞) = min ↑(s.now + grace) (max ↑s.now (s.underWay.sup t.overAt)) := by
  apply le_antisymm
  · exact le_min (by exact_mod_cast h.now_le_grace) h.now_le_over
  · obtain hnone | hexpired := h.due
    · exact min_le_of_right_le (h.over_le_now hnone)
    · exact min_le_of_left_le (by exact_mod_cast hexpired)

/-- Nothing is under way at the answer just if all that was is over within the grace. -/
theorem drained_iff_le (h : AnswerDue scene s u t k grace)
    (hne : ∀ e ∈ s.underWay, t.overAt e ≠ ↑(s.now + grace)) :
    u.inFlight = 0 ↔ ∀ e ∈ s.underWay, t.overAt e ≤ ↑(s.now + grace) := by
  rw [h.drained_iff]
  constructor
  · intro hover e he
    obtain ⟨time, -, hover', -, hle⟩ | ⟨hopen, -⟩ := h.wait.over_or_le h.later he
    · rw [hover']
      exact_mod_cast Nat.le_trans hle h.now_le_grace
    · exact absurd hopen (hover e he)
  · intro hall e he hopen
    -- What is not over by the answer is over after the grace, since it is not over just then.
    obtain ⟨time, hover, -⟩ | ⟨-, hle⟩ := h.wait.over_or_le h.later he
    · cases hopen.symm.trans hover
    · have hexpired : s.now + grace ≤ u.now := h.due.resolve_left fun hnone => h.drained_iff.mp hnone e he hopen
      have hlate : ((s.now + grace : ℕ) : ℕ∞) ≤ t.overAt e := le_trans (by exact_mod_cast hexpired) hle
      exact hne e he (le_antisymm (hall e he) hlate)

theorem verdict (h : AnswerDue scene s u t k grace) :
    Verdict s.underWay s.now grace (decide (u.inFlight = 0)) u.now t := by
  refine ⟨h.now_eq, fun hne => ?_⟩
  rw [decide_eq_true_eq]
  exact h.drained_iff_le hne

/-- Once the run has been aborted, whatever was in its delay when somebody began to wait is dropped at that
    moment. -/
theorem overAt_of_pausing (h : AnswerDue scene s u t k grace) (hpunctual : s.Punctual)
    (haborted : s.aborted = true) (hgrace : 0 < grace) (he : e ∈ s.underWay) (hpausing : s.pausing e = true) :
    t.overAt e = s.now := by
  obtain ⟨x, hx, -, hopen⟩ := mem_underWay.mp he
  obtain hstill | hover := h.wait.dropped_at_once hpunctual haborted hx hopen hpausing
  · have hnone : u.inFlight = 0 := h.due.resolve_right (by omega)
    obtain ⟨time, -, hover, hle, hle'⟩ | ⟨hopen', -⟩ := h.wait.over_or_le h.later he
    · have htime : time = s.now := by omega
      rw [hover, htime]
    · exact absurd hopen' (h.drained_iff.mp hnone e he)
  · exact overAt_of_over? (h.later.over?_eq hover)

end AnswerDue

/-- Somebody begins to wait for the tasks under way in a run, for so long at most, and nothing is submitted
    meanwhile. There is an answer before time passes over the end of the grace, and before it passes once
    nothing is under way. It comes when the grace or the last of the tasks is over, whichever is first, and
    tells whether all of them were over within the grace, as long as none of them is over just when the
    grace is; if so, nothing is under way then. If the run had been aborted before, the same holds for those
    tasks alone that were not in their delay: the others are dropped at once. -/
theorem shutdown_answered (h₀ : r₀.Unworked) (h : Reaches scene r₀ r)
    (hshutdown : r.step scene (.shutdown grace) = some s) (hgrace : 0 < grace) :
    let k := r.shutdowns.size
    (∀ w, Reaches scene s w → ∃ answer, w.shutdowns[k]? = some ⟨r.now, grace, answer⟩ ∧
      (answer = none → w.now ≤ r.now + grace ∧
        (w.inFlight = 0 ∨ w.now = r.now + grace →
          (∃ v, w.step scene (.answer k) = some v) ∧ ∀ ms, w.step scene (.wait ms) = none))) ∧
    (∀ u v t, Reaches scene s u → u.step scene (.answer k) = some v → Reaches scene v t →
      (∀ e x, r.executions.size ≤ e → u.executions[e]? = some x → x.submitted = false) →
      ∃ drained, t.shutdowns[k]? = some ⟨r.now, grace, some (drained, u.now)⟩ ∧
        (drained = true → v.inFlight = 0) ∧ Verdict r.underWay r.now grace drained u.now t ∧
        (r.aborted = true →
          Verdict (r.underWay.filter (r.pausing · = false)) r.now grace drained u.now t ∧
          ∀ e ∈ r.underWay, r.pausing e = true → t.overAt e = r.now)) := by
  intro k
  have hs : Reaches scene r₀ s := .step _ h hshutdown
  have hbalanced := hs.balanced h₀.balanced
  have hpunctual := hs.punctual h₀.executions
  obtain rfl := Option.some.inj hshutdown
  have hbegun : (r.shutdowns.push ⟨r.now, grace, none⟩)[k]? = some ⟨r.now, grace, none⟩ := by simp [k]
  refine ⟨fun w hw => ?_, fun u v t hu hanswer ht hunfed => ?_⟩
  · obtain ⟨answer, hwaiting, hwithin⟩ := hw.waiting hbegun (Nat.le_add_right _ _)
    refine ⟨answer, hwaiting, fun hnone => ⟨hwithin hnone, fun hdue => ?_⟩⟩
    subst hnone
    apply answer_of_answerable hwaiting
    obtain hnothing | hexpired := hdue
    · simp [answerable, hnothing]
    · simp [answerable, hexpired]
  · obtain ⟨w, hw, hanswerable, rfl⟩ := answer_eq_some hanswer
    have hut : Reaches scene u t := Reaches.trans (.step _ (.refl u) hanswer) ht
    obtain ⟨answer, hwaiting, -⟩ := hu.waiting hbegun (Nat.le_add_right _ _)
    obtain rfl := Option.some.inj (hw.symm.trans hwaiting)
    obtain ⟨hopen, hdue⟩ : answer = none ∧ (u.inFlight = 0 ∨ r.now + grace ≤ u.now) := by
      simpa [answerable] using hanswerable
    subst hopen
    have hanswerDue : AnswerDue scene _ u t k grace := ⟨hbalanced, hu, hut, hunfed, hbegun, hwaiting, hdue⟩
    have hverdict := hanswerDue.verdict
    refine ⟨decide (u.inFlight = 0), ht.answered (by simp [Array.getElem?_modify, hwaiting]) (by simp),
      of_decide_eq_true, hverdict, fun haborted => ?_⟩
    have hdropped {e : Nat} (he : e ∈ r.underWay) (hpausing : r.pausing e = true) : t.overAt e = r.now := by
      have hover := hanswerDue.overAt_of_pausing hpunctual haborted hgrace he hpausing
      exact hover
    refine ⟨hverdict.narrow hgrace (Finset.filter_subset _ _) fun e he hrest => ?_, fun e => hdropped⟩
    exact hdropped he (by simpa [show e ∈ r.underWay from he] using hrest)

/-- A job of thirty that nothing stops and one with a long delay are under way when the run is aborted at
    ten and somebody begins to wait: the delayed one is dropped at once, and the answer comes at thirty. -/
theorem shutdown_answered_of_dropped_job :
    let scene := Scene.plain 1 0
    let job (delay : Nat) : Task := .exec "job" delay (.scripted ⟨some 30, true, 0, none, none⟩)
    let r₀ : Run := { fresh 5 10 1 0 with held := [job 0, job 500] }
    ∃ r s u v, r₀.play scene [.submit 0, .submit 0, .look 0, .look 1, .wait 10, .abort] = some r ∧
      r.step scene (.shutdown 100) = some s ∧ s.play scene [.forgo 1, .wait 20, .finish 0] = some u ∧
      u.step scene (.answer 0) = some v ∧ v.shutdowns[0]? = some ⟨10, 100, some (true, 30)⟩ ∧
      v.inFlight = 0 ∧ v.overAt 1 = 10 := by
  intro scene job r₀
  have h₀ : r₀.Unworked := ⟨rfl, rfl, by simp [Manned, staffing, tally, r₀, job, fresh, Task.crew, traderOf]⟩
  have hplayed : (r₀.play scene [.submit 0, .submit 0, .look 0, .look 1, .wait 10, .abort]).bind (fun r =>
      (r.step scene (.shutdown 100)).bind fun s => (s.play scene [.forgo 1, .wait 20, .finish 0]).bind fun u =>
      (u.step scene (.answer 0)).map fun v => ([r.now, u.now, r.shutdowns.size, r.executions.size,
        u.executions.size], [r.aborted, decide (1 ∈ r.underWay), r.pausing 1],
        (v.shutdowns[0]?).map Shutdown.answer)) =
      some ([10, 30, 0, 2, 2], [true, true, true], some (some (true, 30))) := by decide +kernel
  obtain ⟨r, hr, hplayed⟩ := Option.bind_eq_some_iff.mp hplayed
  obtain ⟨s, hs, hplayed⟩ := Option.bind_eq_some_iff.mp hplayed
  obtain ⟨u, hu, hplayed⟩ := Option.bind_eq_some_iff.mp hplayed
  obtain ⟨v, hv, hvalues⟩ := Option.map_eq_some_iff.mp hplayed
  simp only [Prod.mk.injEq, List.cons.injEq, decide_eq_true_eq, and_true] at hvalues
  obtain ⟨⟨hbegun, hnow, hfirst, hsize, hsize'⟩, ⟨haborted, hmember, hpausing⟩, hanswer⟩ := hvalues
  obtain ⟨-, hanswered⟩ := shutdown_answered h₀ (reaches_of_play hr) hs (by decide : 0 < 100)
  rw [hfirst] at hanswered
  obtain ⟨drained, hnoted, hnothing, -, hdropped⟩ := hanswered u v v (reaches_of_play hu) hv (.refl v)
    fun e x hle hx => by simp [Array.getElem?_eq_none (hsize'.trans hsize.symm ▸ hle : u.executions.size ≤ e)] at hx
  rw [hnoted, Option.map_some] at hanswer
  obtain ⟨rfl, -⟩ : drained = true ∧ u.now = 30 := by simpa using hanswer
  refine ⟨r, s, u, v, hr, hs, hu, hv, ?_, hnothing rfl, ?_⟩
  · rw [hnoted, hbegun, hnow]
  · rw [(hdropped haborted).2 1 hmember hpausing, hbegun]
    rfl

end Verdicts

end Run

end ExchangeLoad
