import ExchangeLoad.Proofs.Run.Account
import ExchangeLoad.Proofs.Run.History
import ExchangeLoad.Proofs.Run.Traders

/-!
Where the score and the errors of a run of traders come from. Each point is due to a call of an
investor's client that succeeded, and each error to one that failed; nothing else that happens adds
to either.
-/

namespace ExchangeLoad

/-- What the client of an investor calls the exchange for. -/
inductive Service where
  | signUp
  | signIn
  /-- A look at the market. -/
  | look
  | order
deriving DecidableEq, Repr, Inhabited

/-- The service that a request asks for. -/
def Request.service? : Request → Option Service
  | boot _ => none
  | signUp => some .signUp
  | signIn => some .signIn
  | info _ => some .look
  | order .. => some .order

/-- How many calls for a service succeeded. -/
def succeeded (answers : List (Request × Reply)) (s : Service) : Nat :=
  answers.countP fun x => x.1.service? = some s ∧ x.2.refused = false

/-- How many calls for a service failed. -/
def refused (answers : List (Request × Reply)) (s : Service) : Nat :=
  answers.countP fun x => x.1.service? = some s ∧ x.2.refused = true

/-- What the calls that succeeded are worth. -/
def earnings (answers : List (Request × Reply)) : Int :=
  succeeded answers .signUp + succeeded answers .signIn + succeeded answers .look +
    5 * succeeded answers .order

/-- How many calls failed. -/
def mishaps (answers : List (Request × Reply)) : Int :=
  refused answers .signUp + refused answers .signIn + refused answers .look + refused answers .order

theorem earnings_perm {l m : List (Request × Reply)} (h : l.Perm m) : earnings l = earnings m := by
  simp [earnings, succeeded, h.countP_eq]

theorem mishaps_perm {l m : List (Request × Reply)} (h : l.Perm m) : mishaps l = mishaps m := by
  simp [mishaps, refused, h.countP_eq]

theorem earnings_append (l m : List (Request × Reply)) : earnings (l ++ m) = earnings l + earnings m := by
  simp only [earnings, succeeded, List.countP_append]
  omega

theorem mishaps_append (l m : List (Request × Reply)) : mishaps (l ++ m) = mishaps l + mishaps m := by
  simp only [mishaps, refused, List.countP_append]
  omega

theorem earnings_request (v : Investor) (p : Point) (reply : Reply) :
    earnings [(v.request p, reply)] = earned (v.request p, reply) := by
  cases hrefused : reply.refused <;> cases p <;>
    simp [earnings, succeeded, earned, hrefused, Investor.request, Request.service?, Request.points]

theorem mishaps_request (v : Investor) (p : Point) (reply : Reply) :
    mishaps [(v.request p, reply)] = if reply.refused then 1 else 0 := by
  cases hrefused : reply.refused <;> cases p <;>
    simp [mishaps, refused, hrefused, Investor.request, Request.service?]

namespace Run

/-- Nobody outside adds to the score or counts an error. -/
def Step.LeavesTracker (a : Step) : Prop := (∀ delta, a ≠ .score delta) ∧ a ≠ .error

/-- The score is what the calls of the investors' clients are worth, and the errors are those that
    failed, as far as the counters go. -/
structure Conserved (r : Run) : Prop where
  score : r.tracker.score = Word.wrap (earnings r.answers)
  errors : r.tracker.errors = Word.wrap (mishaps r.answers)

variable {scene : Scene} {r t : Run} {a : Step}

theorem fresh_conserved (floor ceiling : Int) (capacity drawn : Nat) :
    (fresh floor ceiling capacity drawn).Conserved := by
  have hnothing : (fresh floor ceiling capacity drawn).answers = [] := rfl
  have hzero : Word.wrap 0 = 0 := Word.wrap_of_fits (by decide)
  constructor
  · rw [hnothing]
    exact hzero.symm
  · rw [hnothing]
    exact hzero.symm

/-- With no work but that of traders, a step leaves the tracker and the answers alone, unless it is the
    answer to a job. -/
theorem step_tracker (hr : r.TradersOnly) (ha : a.LeavesTracker) (h : r.step scene a = some t) :
    (t.tracker = r.tracker ∧ t.answers.Perm r.answers) ∨
      ∃ e reply, a = .hear e reply ∧ WorkedHeard reply r t := by
  obtain ⟨c, x, _, hmove⟩ | ⟨e, x, hx, hmove⟩ | hmove := step_cases h
  · have hbooked := hmove.stretch.booked
    exact .inl ⟨hbooked.tracker, by simpa using hbooked.answers⟩
  · obtain ⟨y, booked, failed, hy, _, hworked, htrader⟩ | ⟨reply, rfl, hheard⟩ := hmove.worked hx
    · obtain ⟨rfl, rfl⟩ := htrader (hr.executions y (Array.mem_of_getElem? hy))
      exact .inl ⟨hworked.tracker, by simpa using hworked.answers⟩
    · exact .inr ⟨_, reply, rfl, hheard⟩
  · by_cases habort : a = .abort
    · subst habort
      obtain rfl := Option.some.inj h
      exact .inl ⟨rfl, .refl _⟩
    · have hmeddles : a.meddles = false := by
        cases a with
        | score delta => exact absurd rfl (ha.1 delta)
        | error => exact absurd rfl ha.2
        | abort => exact absurd rfl habort
        | _ => rfl
      have hbooked := hmove.booked hmeddles
      exact .inl ⟨hbooked.tracker, by simpa using hbooked.answers⟩

theorem step_conserved (hr : r.TradersOnly) (ha : a.LeavesTracker) (h : r.step scene a = some t)
    (hconserved : r.Conserved) : t.Conserved := by
  obtain ⟨hscore, herrors⟩ := hconserved
  obtain ⟨htracker, hanswers⟩ | ⟨_, reply, _, v, p, hworked⟩ := step_tracker hr ha h
  · rw [← earnings_perm hanswers] at hscore
    rw [← mishaps_perm hanswers] at herrors
    exact ⟨by rw [htracker, hscore], by rw [htracker, herrors]⟩
  · have htracker := hworked.tracker
    constructor
    · rw [earnings_perm hworked.answers, earnings_append, earnings_request, ← Word.wrap_wrap_add,
        ← hscore, htracker]
      split <;> rfl
    · rw [mishaps_perm hworked.answers, mishaps_append, mishaps_request, ← Word.wrap_wrap_add,
        ← herrors, htracker]
      split
      · rfl
      · rw [Int.add_zero, herrors, Word.wrap_of_fits (Word.fits_wrap _)]
        exact herrors

theorem Becomes.conserved (hscene : scene.TradersOnly) (h : Becomes scene Step.LeavesTracker r t)
    (hr : r.TradersOnly ∧ r.Conserved) : t.TradersOnly ∧ t.Conserved := by
  induction h with
  | refl => exact hr
  | step a _ ha hs ih =>
    obtain ⟨htraders, hconserved⟩ := ih
    exact ⟨step_tradersOnly hscene hs htraders, step_conserved htraders ha hs hconserved⟩
  | pass ms _ ih =>
    obtain ⟨htraders, hconserved⟩ := ih
    exact ⟨htraders.of_eq rfl, hconserved.1, hconserved.2⟩

/-- In every history of a run of traders, whatever calls fail, whoever retires, whenever it is aborted:
    the score is the number of sign-ups, sign-ins and looks at the market that succeeded, and five for
    every order that was accepted; the errors are the calls of the investors' clients that failed. Both
    are exact as long as the counters do not wrap around. No step changes either counter but the answer
    to a trader's job. -/
theorem score_errors_eq_calls {floor ceiling : Int} {capacity drawn : Nat} (hscene : scene.TradersOnly)
    (h : Becomes scene Step.LeavesTracker (fresh floor ceiling capacity drawn) r) :
    r.tracker.score = Word.wrap (earnings r.answers) ∧
    r.tracker.errors = Word.wrap (mishaps r.answers) ∧
    (Word.Fits (earnings r.answers) → r.tracker.score =
      succeeded r.answers .signUp + succeeded r.answers .signIn + succeeded r.answers .look +
        5 * succeeded r.answers .order) ∧
    (Word.Fits (mishaps r.answers) → r.tracker.errors =
      refused r.answers .signUp + refused r.answers .signIn + refused r.answers .look +
        refused r.answers .order) ∧
    ∀ a t, a.LeavesTracker → r.step scene a = some t → (∀ e reply, a ≠ .hear e reply) →
      t.tracker = r.tracker := by
  have hfresh := fresh_tradersOnly floor ceiling capacity drawn
  obtain ⟨htraders, hscore, herrors⟩ := h.conserved hscene ⟨hfresh, fresh_conserved ..⟩
  refine ⟨hscore, herrors, ?_, ?_, ?_⟩
  · intro hfits
    rw [hscore, Word.wrap_of_fits hfits, earnings]
  · intro hfits
    rw [herrors, Word.wrap_of_fits hfits, mishaps]
  · intro a t ha hstep hhear
    obtain ⟨htracker, _⟩ | ⟨e, reply, ha, _⟩ := step_tracker htraders ha hstep
    · exact htracker
    · exact absurd ha (hhear e reply)

/-- A trader signs up and in although its deposit failed, looks at the market, and has its order
    turned down. -/
theorem score_errors_of_refused_order :
    let scene := Scene.plain 1 0
    let steps : List Step := [.produce, .enter .start, .proceed 0 none, .booted 0 .done, .decide true,
      .provide 0 none, .funded 0 false, .submit 0, .look 0, .hear 0 .done, .hear 0 .done, .enter .tick,
      .proceed 1 none, .submit 0, .look 1, .hear 1 (.market default), .hear 1 (.failed (.plain "no"))]
    ∃ r, (fresh 5 10 1 0).play scene steps = some r ∧ r.tracker = ⟨3, 1, 5, 10⟩ ∧
      r.tracker.score = succeeded r.answers .signUp + succeeded r.answers .signIn +
        succeeded r.answers .look + 5 * succeeded r.answers .order ∧
      r.tracker.errors = refused r.answers .signUp + refused r.answers .signIn +
        refused r.answers .look + refused r.answers .order := by
  intro scene steps
  have hvalues : ((fresh 5 10 1 0).play scene steps).map (fun r => (r.tracker, earnings r.answers,
      mishaps r.answers)) = some (⟨3, 1, 5, 10⟩, 3, 1) := by decide
  obtain ⟨r, hr, hvalues⟩ := Option.map_eq_some_iff.mp hvalues
  obtain ⟨htracker, hearnings, hmishaps⟩ := by simpa using hvalues
  have hsteps : ∀ a ∈ steps, a.LeavesTracker := by simp [steps, Step.LeavesTracker]
  have hbecomes := becomes_of_play hsteps hr
  obtain ⟨_, _, hscore, herrors, _⟩ := score_errors_eq_calls (fun _ _ => rfl) hbecomes
  rw [hearnings] at hscore
  rw [hmishaps] at herrors
  exact ⟨r, hr, htracker, hscore (by decide), herrors (by decide)⟩

end Run

end ExchangeLoad
