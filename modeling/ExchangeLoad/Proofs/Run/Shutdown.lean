import ExchangeLoad.Proofs.Run.Once
import ExchangeLoad.Proofs.Run.Veil

/-!
Waiting for the work under way. Whoever waits only watches: nobody who hands over or carries out work looks
at those who wait, and the run goes on as if they were not there. So work that is submitted while somebody
waits, or after that wait is over, is accepted and carried out like any other.
-/

namespace ExchangeLoad

/-- Nothing is told of those who wait for the tasks under way. -/
def Veil.unwatched : Veil where
  deposit := id
  shutdowns _ := #[]
  verdict := id
  undecided _ _ := rfl
  decided _ _ := rfl

namespace Run

/-- The run as if nobody had ever waited for the tasks under way. -/
def unwatched (r : Run) : Run := { r with shutdowns := #[] }

variable {scene : Scene} {r₀ r s t : Run} {a : Step} {steps : List Step} {grace : Nat}

theorem unwatched_veiled (r : Run) : Veil.unwatched.veiled r = r.unwatched := by
  simp [Veil.veiled, Veil.unwatched, unwatched]

theorem Step.told_id (a : Step) : a.told id = a := by cases a <;> rfl

/-- Time passes as well where nobody waits. -/
theorem wait_unwatched {ms : Nat} (h : r.wait ms = some t) : r.unwatched.wait ms = some t.unwatched := by
  unfold wait at h ⊢
  split at h
  · next hready =>
    obtain rfl := Option.some.inj h
    simp only [quiet, horizon, all_earlier, Bool.and_eq_true] at hready
    obtain ⟨⟨⟨⟨⟨hpipeline, hexecutions⟩, -⟩, hline⟩, hloop⟩, ⟨hloopMoment, hproducer⟩, -, hmoment⟩ := hready
    refine if_pos ?_
    simp only [quiet, horizon, all_earlier, Bool.and_eq_true]
    exact ⟨⟨⟨⟨⟨hpipeline, hexecutions⟩, by simp [unwatched]⟩, hline⟩, hloop⟩, ⟨hloopMoment, hproducer⟩,
      by simp [unwatched], hmoment⟩
  · cases h

/-- Beginning to wait and being answered change nothing but what is noted of those who wait. -/
theorem step_watching (ha : a.watches = true) (h : r.step scene a = some t) : t.unwatched = r.unwatched := by
  cases a with
  | shutdown grace =>
    obtain rfl := Option.some.inj h
    rfl
  | answer k =>
    obtain ⟨x, -, h⟩ := Option.bind_eq_some_iff.mp h
    split at h
    · obtain rfl := Option.some.inj h
      rfl
    · cases h
  | _ => cases ha

theorem step_unwatched (ha : a.watches = false) (h : r.step scene a = some t) :
    r.unwatched.step scene a = some t.unwatched := by
  by_cases hwait : ∃ ms, a = .wait ms
  · obtain ⟨ms, rfl⟩ := hwait
    exact wait_unwatched h
  · have hstep := Veil.unwatched.step r scene (fun ms h => hwait ⟨ms, h⟩) ha
    rwa [show Veil.unwatched.verdict = id from rfl, Step.told_id, h, Option.map_some, unwatched_veiled,
      unwatched_veiled] at hstep

/-- A history goes the same way without those who wait. -/
theorem play_unwatched (h : r.play scene steps = some t) :
    r.unwatched.play scene (steps.filter (!·.watches)) = some t.unwatched := by
  induction steps generalizing r with
  | nil =>
    obtain rfl := Option.some.inj h
    rfl
  | cons a rest ih =>
    obtain ⟨s, hs, hrest⟩ := play_cons.mp h
    cases ha : a.watches with
    | true =>
      rw [List.filter_cons_of_neg (by simp [ha]), ← step_watching ha hs]
      exact ih hrest
    | false =>
      rw [List.filter_cons_of_pos (by simp [ha])]
      exact play_cons.mpr ⟨s.unwatched, step_unwatched ha hs, ih hrest⟩

/-- A task that is held can be submitted at any time, and is counted as under way from then on. -/
theorem submit_accepted {place : Nat} {task : Task} (h : r.held[place]? = some task) :
    ∃ s, r.step scene (.submit place) = some s ∧ s.inFlight = r.inFlight + 1 := by
  refine ⟨Run.launch { r with held := r.held.eraseIdx place } task true, ?_, rfl⟩
  simp [step, handOver, h]

/-- Somebody begins to wait for the work under way, for so long at most, at any moment of any run. Whatever
    happens from then on happens as if nobody had waited: the same steps can be taken, and the run comes to
    the same state but for what is noted of those who wait. Tasks are accepted as before, and each that is
    submitted later is an execution of its own, whose body begins when its delay is over unless the run is
    aborted during the delay. -/
theorem shutdown_only_watches (h₀ : r₀.Unworked) (h : Reaches scene r₀ r)
    (hshutdown : r.step scene (.shutdown grace) = some s) (ht : s.play scene steps = some t) :
    r.unwatched.play scene (steps.filter (!·.watches)) = some t.unwatched ∧
    (∀ place task, t.held[place]? = some task →
      ∃ u, t.step scene (.submit place) = some u ∧ u.inFlight = t.inFlight + 1) ∧
    ∀ (u : Run) place v, Reaches scene s u → u.step scene (.submit place) = some v → Reaches scene v t →
      ∃ task x, u.held[place]? = some task ∧ t.executions[u.executions.size]? = some x ∧
        (x.task, x.submitted, x.since) = (task, true, u.now) ∧
        Commences scene r₀ t u.executions.size x := by
  refine ⟨?_, fun place task => submit_accepted, fun u place v _ hstep hv => ?_⟩
  · rw [← step_watching rfl hshutdown]
    exact play_unwatched ht
  · obtain ⟨task, x, htask, hx, hsame⟩ := submit_handing hstep hv
    have hreaches : Reaches scene r₀ t := Reaches.trans (.step _ h hshutdown) (reaches_of_play ht)
    exact ⟨task, x, htask, hx, hsame, hreaches.commences h₀ hx⟩

/-- Somebody waits for the work under way, of which there is none, and is told so; then a job with a delay
    of five is submitted. -/
theorem shutdown_only_watches_of_late_job :
    let scene := Scene.plain 1 0
    let job : Task := .exec "late" 5 (.scripted ⟨none, false, 7, none, none⟩)
    let r₀ : Run := { fresh 5 10 1 0 with held := [job] }
    ∃ s t x, r₀.step scene (.shutdown 1000) = some s ∧
      s.play scene [.answer 0, .submit 0, .look 0, .wait 5, .elapse 0] = some t ∧
      t.shutdowns.toList.map Shutdown.answer = [some (true, 0)] ∧
      r₀.unwatched.play scene [.submit 0, .look 0, .wait 5, .elapse 0] = some t.unwatched ∧
      t.executions[0]? = some x ∧ (x.task, x.submitted, x.since) = (job, true, 0) ∧
      Commences scene r₀ t 0 x := by
  intro scene job r₀
  have h₀ : r₀.Unworked := ⟨rfl, rfl, by simp [Manned, staffing, tally, r₀, job, fresh, Task.crew, traderOf]⟩
  have hplayed : (r₀.step scene (.shutdown 1000)).bind (fun s => (s.step scene (.answer 0)).bind fun u =>
      (u.step scene (.submit 0)).bind fun v =>
      (v.play scene [.look 0, .wait 5, .elapse 0]).map fun t =>
      (t.shutdowns.toList.map Shutdown.answer, u.held[0]?, u.executions.size, u.now)) =
      some ([some (true, 0)], some job, 0, 0) := by decide +kernel
  obtain ⟨s, hs, hplayed⟩ := Option.bind_eq_some_iff.mp hplayed
  obtain ⟨u, hu, hplayed⟩ := Option.bind_eq_some_iff.mp hplayed
  obtain ⟨v, hv, hplayed⟩ := Option.bind_eq_some_iff.mp hplayed
  obtain ⟨t, ht, hvalues⟩ := Option.map_eq_some_iff.mp hplayed
  simp only [Prod.mk.injEq] at hvalues
  obtain ⟨hanswers, hheld, hsize, hnow⟩ := hvalues
  have hall : s.play scene [.answer 0, .submit 0, .look 0, .wait 5, .elapse 0] = some t :=
    play_cons.mpr ⟨u, hu, play_cons.mpr ⟨v, hv, ht⟩⟩
  obtain ⟨hunwatched, -, hlater⟩ := shutdown_only_watches h₀ (.refl r₀) hs hall
  obtain ⟨task, x, htask, hx, hsame, hcommences⟩ :=
    hlater u 0 v (.step _ (.refl s) hu) hv (reaches_of_play ht)
  obtain rfl := Option.some.inj (hheld.symm.trans htask)
  rw [hsize] at hx hcommences
  rw [hnow] at hsame
  exact ⟨s, t, x, hs, hall, hanswers, hunwatched, hx, hsame, hcommences⟩

/-- A job is submitted after somebody waited for the work under way and was told that it all ended: it is
    carried out, and scores. -/
theorem late_job_scores_after_shutdown :
    let scene := Scene.plain 1 0
    let job : Task := .exec "late" 5 (.scripted ⟨none, false, 7, none, none⟩)
    let r₀ : Run := { fresh 5 10 1 0 with held := [job] }
    ∃ s t, r₀.play scene [.shutdown 1000, .answer 0] = some s ∧
      s.shutdowns.toList.map Shutdown.answer = [some (true, 0)] ∧
      s.play scene [.submit 0, .look 0, .wait 5, .elapse 0] = some t ∧
      t.executions.toList.map Execution.began = [some 5] ∧ [s.tracker.score, t.tracker.score] = [0, 7] := by
  intro scene job r₀
  have hplayed : (r₀.play scene [.shutdown 1000, .answer 0]).bind (fun s =>
      (s.play scene [.submit 0, .look 0, .wait 5, .elapse 0]).map fun (t : Run) =>
      (s.shutdowns.toList.map Shutdown.answer, t.executions.toList.map Execution.began,
        [s.tracker.score, t.tracker.score])) =
      some ([some (true, 0)], [some 5], [0, 7]) := by decide +kernel
  obtain ⟨s, hs, hplayed⟩ := Option.bind_eq_some_iff.mp hplayed
  obtain ⟨t, ht, hvalues⟩ := Option.map_eq_some_iff.mp hplayed
  rw [Prod.mk.injEq, Prod.mk.injEq] at hvalues
  obtain ⟨hanswers, hbegan, hscores⟩ := hvalues
  exact ⟨s, t, hs, hanswers, ht, hbegan, hscores⟩

end Run

end ExchangeLoad
