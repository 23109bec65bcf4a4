import ExchangeLoad.Proofs.Run.Attribution

/-!
What a call of the controller does, and what others do meanwhile. Each stretch of a call is a page of its
journal, with a mark for everything that the stretch added to the records of the run or changed in them.
What happens between two stretches of a call is another call's doing or nobody's, and is on none of its
pages.
-/

namespace ExchangeLoad

/-- Something that a stretch of a call leaves on record. -/
inductive Mark where
  /-- The exchange answered the guest that is to make it ready. -/
  | replied (reply : Reply)
  /-- The deposit for an investor was decided. -/
  | decided (accepted : Bool)
  /-- An identity was taken from the pipeline. -/
  | took (id : Identity)
  | created (session : Session)
  /-- An investor was built under a number. -/
  | built (number : Nat) (id : Identity) (params : Params)
  /-- A deposit was made, and is not decided yet. -/
  | deposited (id : Identity) (amount : Int)
  /-- An investor was added to the registry, and stood there as told when the stretch was over. -/
  | entered (number : Nat) (investor : Option Investor)
  /-- An investor was started, which stood as told before the stretch. -/
  | started (number : Nat) (investor : Option Investor)
  /-- The level became another. -/
  | raised (level : Nat)
  /-- Entries of the registry are gone or have moved. -/
  | thinned
  /-- The score or the errors became others. -/
  | booked (tracker : Tracker)
deriving Repr

namespace Mark

/-- The investor that was built, and what from. -/
def recruit? : Mark → Option (Params × Nat)
  | built number _ params => some (params, number)
  | _ => none

/-- The level that was reached. -/
def rise? : Mark → Option Nat
  | raised level => some level
  | _ => none

/-- Whether a mark tells of the level, the score or the errors. -/
def scores : Mark → Bool
  | raised _ => true
  | booked _ => true
  | _ => false

/-- Whether a mark tells of a deposit, the registry, the score or the errors. -/
def touches : Mark → Bool
  | decided _ => true
  | deposited .. => true
  | entered .. => true
  | thinned => true
  | booked _ => true
  | _ => false

end Mark

/-- What a list has that is longer than another one. -/
def added {α : Type} (before after : List α) : List α := after.drop before.length

@[simp] theorem added_append {α : Type} (xs ys : List α) : added xs (xs ++ ys) = ys := List.drop_left

@[simp] theorem added_self {α : Type} (xs : List α) : added xs xs = [] := List.drop_length

namespace Run

/-- What was added to the records of a run or changed in them. -/
def news (r t : Run) : List Mark :=
  (added r.pipeline.taken t.pipeline.taken).map .took ++
  (added r.sessions.toList t.sessions.toList).map .created ++
  ((added r.census.cards t.census.cards).zipIdx r.investors.size).map (fun p => .built p.2 p.1.1 p.1.2) ++
  (added r.census.deposits t.census.deposits).map (fun d => .deposited d.id d.amount) ++
  (added r.census.entries t.census.entries).map (fun i => .entered i t.investors[i]?) ++
  (added r.starts.toList t.starts.toList).map (fun i => .started i r.investors[i]?) ++
  (if t.level = r.level then [] else [.raised t.level]) ++
  (if r.census.entries <+: t.census.entries then [] else [.thinned]) ++
  (if t.tracker = r.tracker then [] else [.booked t.tracker])

/-- The answer with which a call goes on, where it matters. -/
def Step.learnt : Step → List Mark
  | .booted _ reply => [.replied reply]
  | .funded _ accepted => [.decided accepted]
  | _ => []

/-- The page of a stretch. -/
def page (r : Run) (a : Step) (t : Run) : List Mark := a.learnt ++ r.news t

/-- The call whose stretch a step is. The timed loop takes its call along when it leaves, unless that is
    over. -/
def callOf (r : Run) : Step → Option Nat
  | .leave _ => r.drivenCall.filter fun c => (r.giveUp c).isSome
  | a => a.call?

/-- The call with a number left pages on record, while a run became another. -/
inductive Logs (scene : Scene) (c : Nat) (r : Run) : List (List Mark) → Run → Prop where
  | refl : Logs scene c r [] r
  | own {pages : List (List Mark)} {s t : Run} (a : Step) (h : Logs scene c r pages s) (ha : s.callOf a = some c)
      (hstep : s.step scene a = some t) : Logs scene c r (pages ++ [s.page a t]) t
  | other {pages : List (List Mark)} {s t : Run} (a : Step) (h : Logs scene c r pages s)
      (ha : s.callOf a ≠ some c) (hstep : s.step scene a = some t) : Logs scene c r pages t
  | pass {pages : List (List Mark)} {s : Run} (ms : Nat) (h : Logs scene c r pages s) :
      Logs scene c r pages { s with now := s.now + ms }

/-- Something happened that is no stretch of the call with number `c`. -/
inductive Elsewhere (scene : Scene) (c : Nat) (r t : Run) : Prop where
  | turn (k : Nat) (x y : Control) (hk : k ≠ c) (hx : r.controls[k]? = some x) (h : Turn scene k r x t y)
  | idle (h : Idle r t)

variable {scene : Scene} {r s t : Run} {a : Step} {c e : Nat} {x : Control} {pages : List (List Mark)}

/-- A call with a result has ended with it. -/
theorem getElem?_of_resultOf {result : Except RunError (List Task)} (h : r.resultOf c = some result) :
    ∃ x, r.controls[c]? = some x ∧ x.stand = .ended result := by
  unfold resultOf at h
  split at h
  · next hstand =>
    obtain ⟨x, hx, hended⟩ := Option.map_eq_some_iff.mp hstand
    obtain rfl := Option.some.inj h
    exact ⟨x, hx, hended⟩
  · cases h

/-- What a stretch leaves on record is in the journal that ends with it. -/
theorem mem_pages_of_news {m : Mark} (h : m ∈ s.news t) : m ∈ (pages ++ [s.page a t]).flatten := by
  rw [List.flatten_append, List.flatten_singleton, page]
  exact List.mem_append_right _ (List.mem_append_right _ h)

/-- What no mark tells of is as it was. -/
theorem kept_of_scores (h : ∀ m ∈ r.news t, m.scores = false) : t.level = r.level ∧ t.tracker = r.tracker := by
  refine ⟨?_, ?_⟩ <;> by_contra hnot
  · cases h (.raised t.level) (by simp [news, hnot])
  · cases h (.booked t.tracker) (by simp [news, hnot])

theorem kept_of_touches (h : ∀ m ∈ r.news t, m.touches = false) :
    t.registry.entries = r.registry.entries ∧ t.deposits.size ≤ r.deposits.size ∧ t.tracker = r.tracker := by
  refine ⟨?_, ?_, ?_⟩
  · have hprefix : r.census.entries <+: t.census.entries := by
      by_contra hnot
      cases h .thinned (by simp [news, hnot])
    obtain ⟨more, hmore⟩ := hprefix
    cases more with
    | nil => simpa [census] using hmore.symm
    | cons i rest => cases h (.entered i t.investors[i]?) (by simp [news, ← hmore])
  · by_contra hnot
    obtain ⟨d, hd⟩ := List.exists_mem_of_length_pos (l := added r.census.deposits t.census.deposits)
      (by simp [added, census]; omega)
    cases h (.deposited d.id d.amount) (by
      simp only [news, List.mem_append, List.mem_map]
      exact .inl (.inl (.inl (.inl (.inl (.inr ⟨d, hd, rfl⟩))))))
  · by_contra hnot
    cases h (.booked t.tracker) (by simp [news, hnot])

/-- Every history has a journal for each call. -/
theorem Becomes.logs {kind : Step → Prop} (h : Becomes scene kind r t) (c : Nat) :
    ∃ pages, Logs scene c r pages t := by
  induction h with
  | refl => exact ⟨[], .refl⟩
  | @step s t a _ _ hstep ih =>
    obtain ⟨pages, hlogs⟩ := ih
    by_cases ha : s.callOf a = some c
    · exact ⟨_, .own a hlogs ha hstep⟩
    · exact ⟨pages, .other a hlogs ha hstep⟩
  | pass ms _ ih =>
    obtain ⟨pages, hlogs⟩ := ih
    exact ⟨pages, .pass ms hlogs⟩

theorem Logs.becomes (h : Logs scene c r pages t) : Becomes scene (fun _ => True) r t := by
  induction h with
  | refl => exact .refl _
  | own a _ _ hstep ih => exact .step a ih trivial hstep
  | other a _ _ hstep ih => exact .step a ih trivial hstep
  | pass ms _ ih => exact .pass ms ih

/-- The page that a step adds to the journal of a call. -/
def pagesOf (c : Nat) (r : Run) (a : Step) (t : Run) : List (List Mark) :=
  if r.callOf a = some c then [r.page a t] else []

theorem Logs.step (h : Logs scene c r pages s) (hstep : s.step scene a = some t) :
    Logs scene c r (pages ++ pagesOf c s a t) t := by
  unfold pagesOf
  split
  · next ha => exact .own a h ha hstep
  · next ha =>
    rw [List.append_nil]
    exact .other a h ha hstep

/-- The journal of a call over given steps. -/
theorem Logs.play {steps : List Step} (h : Logs scene c r pages s) (hplay : s.play scene steps = some t) :
    Logs scene c r (pages ++ s.along scene (pagesOf c) steps) t := by
  induction steps generalizing s pages with
  | nil =>
    obtain rfl := Option.some.inj hplay
    rwa [along, List.append_nil]
  | cons a rest ih =>
    obtain ⟨u, hu, hrest⟩ := play_cons.mp hplay
    rw [along, hu, Option.elim_some, ← List.append_assoc]
    exact ih (h.step hu) hrest

theorem logs_of_play {steps : List Step} (h : r.play scene steps = some t) :
    Logs scene c r (r.along scene (pagesOf c) steps) t :=
  Logs.refl.play h

theorem TaskMove.history {x : Execution} (hx : r.executions[e]? = some x) (h : TaskMove e r x a t) :
    t.census.history = r.census.history := by
  have hbackdrop := h.backdrop hx
  have hjob := Midjob.refl hx
  have hkept {u : Run} (hu : Midjob e x r u) : u.census.history = r.census.history := by rw [hu.census]
  cases h with
  | begin =>
    cases htask : x.task with
    | exec label delay job =>
      have hnone : x.task.enrolment? = none := by rw [htask]; rfl
      obtain ⟨y, hstint⟩ := beginBody_stint hx hbackdrop fun hsome => absurd hnone hsome
      cases hstint.errand with
      | job _ hcensus => rw [hcensus]
      | deposit _ _ henrol => rw [htask] at henrol; cases henrol
      | register _ _ _ _ henrol => rw [htask] at henrol; cases henrol
    | enrol i credit =>
      have hbegun : (r.begun e).executions[e]? = some { x with began := some r.now } := by
        simp [begun, Array.getElem?_modify, hx]
      unfold beginBody
      rw [← begun]
      simp only [hbegun, Option.map_some, htask]
      rfl
  | delay => exact hkept (hjob.withPhase _)
  | drop => exact hkept (hjob.close _)
  | hear _ _ _ _ _ gain _ _ _ hv hresume =>
    exact hkept ((hjob.addScore gain).advance hv (Investor.resume_card hresume))
  | finish _ label _ script => exact hkept ((hjob.note label "done").perform script)
  | stop _ label => exact hkept ((hjob.note label "stopped").conclude none)
  | enrol => rfl

theorem TaskMove.idle {x : Execution} (hx : r.executions[e]? = some x) (h : TaskMove e r x a t) : Idle r t :=
  ⟨h.history hx, .inl (congrArg (fun b => (b.controls, b.line)) (h.backdrop hx))⟩

/-- Of the steps that take on neither a call nor an execution, only one of the timed loop can be a stretch
    of a call. -/
theorem OtherMove.idle (h : OtherMove scene r a t) :
    Idle r t ∨ ∃ cause, a = .leave cause ∧ r.leave cause = some t := by
  cases h with
  | enter command => exact .inl ⟨rfl, .inr ⟨command, false, rfl⟩⟩
  | drive hdrive =>
    obtain ⟨_, rfl⟩ := drive_eq_some hdrive
    exact .inl ⟨rfl, .inr ⟨.start, true, rfl⟩⟩
  | collect hcollect =>
    obtain ⟨_, _, _, _, ⟨_, _, rfl⟩ | ⟨_, _, _, _, rfl⟩⟩ := collect_eq_some hcollect
    · exact .inl ⟨rfl, .inl rfl⟩
    · exact .inl ⟨rfl, .inl rfl⟩
  | tick htick =>
    obtain ⟨_, _, _, rfl⟩ := tick_eq_some htick
    exact .inl ⟨rfl, .inr ⟨.tick, true, rfl⟩⟩
  | leave cause hleave => exact .inr ⟨cause, rfl, hleave⟩
  | investor _ i v w hv _ _ hidentity hparams =>
    exact .inl ⟨congrArg Census.history (census_withInvestor hv (Investor.card_eq hidentity hparams)), .inl rfl⟩
  | _ => exact .inl ⟨rfl, .inl rfl⟩

/-- The call that a step is a stretch of. -/
theorem CallMove.callOf (h : CallMove scene c r x a t) : r.callOf a = some c := by
  cases h <;> rfl

theorem giveUp_isSome (hx : r.controls[c]? = some x) (h : CallMove scene c r x (.giveUp c) t) :
    (r.giveUp c).isSome = true := by
  cases h with
  | giveUp hended hdropped =>
    unfold giveUp
    rw [hx, Option.bind_eq_bind, Option.bind_some]
    split
    · next result hstand => exact absurd hstand (hended result)
    · next hstand => exact absurd hstand hdropped
    · rfl

/-- What is no stretch of a call happens elsewhere. -/
theorem step_elsewhere (h : r.step scene a = some t) (ha : r.callOf a ≠ some c) : Elsewhere scene c r t := by
  obtain ⟨k, x, hx, hmove⟩ | ⟨e, x, hx, hmove⟩ | hmove := step_cases h
  · have hk : k ≠ c := by
      rintro rfl
      exact ha hmove.callOf
    obtain ⟨y, hturn⟩ := hmove.turn hx
    exact .turn k x y hk hx hturn
  · exact .idle (hmove.idle hx)
  · obtain hidle | ⟨cause, rfl, hleave⟩ := hmove.idle
    · exact .idle hidle
    · obtain ⟨_, _, s, rfl, rfl | ⟨k, x, hcall, hx, hmove⟩⟩ := leave_eq_some scene hleave
      · exact .idle ⟨rfl, .inl rfl⟩
      · have hk : k ≠ c := by
          rintro rfl
          refine ha ?_
          simp [callOf, hcall, giveUp_isSome hx hmove]
        obtain ⟨y, hturn⟩ := hmove.turn hx
        exact .turn k x y hk hx (hturn.withLoop _)

/-- A stretch of a call, but for where the timed loop stands afterwards. -/
theorem step_callMove_of_callOf (h : r.step scene a = some t) (ha : r.callOf a = some c) :
    ∃ x, r.controls[c]? = some x ∧ (CallMove scene c r x a t ∨
      ∃ cause s, a = .leave cause ∧ CallMove scene c r x (.giveUp c) s ∧
        t = { s with loop := .ended cause.outcome r.now }) := by
  cases hcall : a.call? with
  | some k =>
    have hk : k = c := by
      cases a <;> simp_all [callOf, Step.call?]
    obtain ⟨x, hx, hmove⟩ := step_callMove hcall h
    exact ⟨x, hk ▸ hx, .inl (hk ▸ hmove)⟩
  | none =>
    have hleave : ∃ cause, a = .leave cause := by
      cases a <;> simp_all [callOf, Step.call?]
    obtain ⟨cause, rfl⟩ := hleave
    obtain ⟨hdriven, hsome⟩ := Option.filter_eq_some_iff.mp ha
    obtain ⟨u, hu⟩ := Option.isSome_iff_exists.mp hsome
    obtain ⟨x, hx, hmove⟩ : ∃ x, r.controls[c]? = some x ∧ CallMove scene c r x (.giveUp c) u :=
      giveUp_callMove hu
    refine ⟨x, hx, .inr ⟨cause, u, rfl, hmove, ?_⟩⟩
    have hleft : r.leave cause = some t := h
    unfold leave at hleft
    split at hleft
    · rw [← Option.some.inj hleft, hdriven, Option.bind_some, hu, Option.getD_some]
    · cases hleft

namespace Elsewhere

variable (h : Elsewhere scene c r t)
include h

theorem control (hx : r.controls[c]? = some x) : t.controls[c]? = some x := by
  cases h with
  | turn k _ _ hk _ h => exact (h.others c hk.symm).trans hx
  | idle h => exact h.kept hx

/-- Nobody that was built changes its identity or what it was built from. -/
theorem cards : r.census.cards <+: t.census.cards := by
  cases h with
  | turn k _ _ _ _ h =>
    obtain heq | ⟨o, id, _, _, heq⟩ := h.built
    · rw [(Prod.mk.inj heq).2]
    · rw [(Prod.mk.inj heq).2]
      exact List.prefix_append ..
  | idle h => rw [h.cards]

theorem lock (hr : r.Lock) : t.Lock := by
  cases h with
  | turn _ _ _ _ hx h => exact h.lock hx hr
  | idle h => exact h.lock hr

/-- While a call has the controller, nobody else raises the level or builds an investor. -/
theorem history_of_active (hr : r.Lock) (hx : r.controls[c]? = some x) (hactive : x.stand.active = true) :
    t.census.history = r.census.history := by
  cases h with
  | turn k _ _ hk hz h => rw [h.census_of_active hz hr hk.symm hx hactive]
  | idle h => exact h.history

end Elsewhere

theorem pass_elsewhere (r : Run) (ms : Nat) : Elsewhere scene c r { r with now := r.now + ms } :=
  .idle ⟨rfl, .inl rfl⟩

end Run

end ExchangeLoad
