import ExchangeLoad.Proofs.Run.Attribution

/-!
Calls that compete for the controller. However ticks and starts are made and given up, and whatever is
scored and counted meanwhile, each rise of the level is that of one tick, and the enrolments of a batch
are handed out by the tick that raised the level. A call that is given up in line leaves no trace.
-/

namespace ExchangeLoad

section Records

variable {b : Census} {c workers : Nat} {tasks : List Task}

/-- The enrolments of a tick are those of its batches, in the order in which they were built. -/
theorem Complete.origins (h : Complete workers b c tasks) :
    (enrolments tasks).map (fun p => b.origins[p.1]?) =
      (b.raisedBy c).flatMap fun w => (w.batch workers).map some := by
  have hbuilt : (enrolments tasks).map (fun p => b.origins[p.1]?) = ((b.builtBy c).map Prod.fst).map some := by
    rw [h.tasks, List.map_map, List.map_map]
    exact List.map_congr_left fun p hp => (Census.getElem?_origins hp).1
  rw [hbuilt, h.built, List.map_flatMap]

theorem Weighing.length_batch {w : Weighing} (h : w.rose.isSome = true) : (w.batch workers).length = workers := by
  obtain ⟨price, hprice⟩ := Option.isSome_iff_exists.mp h
  simp [batch, hprice]

theorem Complete.length_enrolments (h : Complete workers b c tasks) :
    (enrolments tasks).length = workers * (b.raisedBy c).length := by
  have hrose : ∀ w ∈ b.raisedBy c, (w.batch workers).length = workers := fun w hw =>
    Weighing.length_batch (by simpa using (List.mem_filter.mp (List.mem_filter.mp hw).1).2)
  rw [h.tasks, List.length_map, ← List.length_map (f := Prod.fst), h.built, List.length_flatMap,
    List.map_congr_left hrose, List.map_const', List.sum_replicate_nat, Nat.mul_comm]

/-- A tick enrols nobody twice. -/
theorem Complete.nodup (h : Complete workers b c tasks) : ((enrolments tasks).map Prod.fst).Nodup := by
  have hnumbers : (enrolments tasks).map Prod.fst = (b.builtBy c).map Prod.snd := by
    rw [h.tasks, List.map_map]
    rfl
  have hsublist : ((b.builtBy c).map Prod.snd).Sublist (b.origins.zipIdx.map Prod.snd) :=
    List.Sublist.map _ List.filter_sublist
  rw [List.zipIdx_map_snd] at hsublist
  rw [hnumbers]
  exact List.Nodup.sublist hsublist (List.nodup_range' 1)

end Records

namespace Run

/-- On the way from one run to the next, the call with a number raises the level by one: it is a tick
    that has the controller, the score that it found is enough, and there are no more errors than the
    floor. -/
structure Raise (c : Nat) (r t : Run) : Prop where
  level : t.level = r.level + 1
  first : r.line.head? = some c
  errors : r.tracker.errors ≤ r.tracker.floor
  tick : ∃ x o, t.controls[c]? = some x ∧ x.command = .tick ∧ x.outset = some o ∧
    requiredScore r.level ≤ o.score ∧
    t.weighings.toList = r.weighings.toList ++ [⟨c, r.level, o.score, r.tracker.errors, some r.marketPrice⟩]

/-- Nothing was ever written for a call, and nothing can be: it was given up. -/
structure Traceless (c : Nat) (r : Run) : Prop where
  dropped : ∃ x, r.controls[c]? = some x ∧ x.stand = .dropped
  weighings : ∀ w ∈ r.census.weighings, w.control ≠ c
  origins : ∀ o ∈ r.census.origins, o.control ≠ c

variable {scene : Scene} {kind : Step → Prop} {c k : Nat} {r s t : Run} {a : Step} {x y : Control}
  {floor : Int}

theorem Turn.raise_or_level_eq (h : Turn scene c r x t y) (hx : r.controls[c]? = some x) (hr : r.Lock)
    (hrole : x.InRole) : t.level = r.level ∨ Raise c r t := by
  obtain ⟨hsame, _⟩ | ⟨w, hlook⟩ := h.look hrole
  · exact .inl (Prod.mk.inj hsame).1
  · have hlevel : t.level = r.level + if w.rose.isSome then 1 else 0 := hlook.levelAfter
    have hrose := hlook.rose
    cases hmay : r.mayRise w.score with
    | false =>
      rw [hmay, if_neg Bool.false_ne_true] at hrose
      rw [hrose] at hlevel
      exact .inl hlevel
    | true =>
      rw [hmay, if_pos rfl] at hrose
      rw [hrose] at hlevel
      obtain ⟨hscore, herrors⟩ := mayRise_iff.mp hmay
      obtain ⟨o, ho, hsame⟩ := Option.map_eq_some_iff.mp hlook.score
      have hfirst : r.line.head? = some c := by
        obtain ⟨_, hcensus⟩ | hhead := h.head hx hr
        · have hkept : t.level = r.level := congrArg Census.level hcensus
          rw [hkept] at hlevel
          simp at hlevel
        · exact hhead
      refine .inr ⟨hlevel, hfirst, herrors, y, o, h.control, hlook.tick, ho, by rwa [hsame], ?_⟩
      obtain ⟨control, level, score, errors, rose⟩ := w
      obtain rfl : control = c := hlook.control
      obtain rfl : level = r.level := hlook.level
      obtain rfl : errors = r.tracker.errors := hlook.errors
      obtain rfl : o.score = score := hsame
      obtain rfl : rose = some r.marketPrice := hrose
      exact hlook.weighings

theorem Advance.raise_or_level_eq (h : Advance scene a r t) (hr : r.Attributed scene)
    (hascent : r.Ascent floor) : t.level = r.level ∨ ∃ c, Raise c r t := by
  obtain ⟨c, x, y, hx, hturn⟩ | hidle := h.effect.calls
  · exact (hturn.raise_or_level_eq hx hr.lock (hascent.inRole c x hx)).imp_right fun h => ⟨c, h⟩
  · exact .inl hidle.level

/-- The score that a tick goes by is the one of the moment at which it got the controller. -/
theorem Advance.outset {o : Outset} (h : Advance scene a r t) (hx : t.controls[c]? = some x)
    (ho : x.outset = some o) : (∃ z, r.controls[c]? = some z ∧ z.outset = some o) ∨
      o.score = r.tracker.score ∧ r.line.head? = some c := by
  obtain ⟨k, z, y, hz, hturn⟩ | hidle := h.effect.calls
  · obtain ⟨rfl, rfl⟩ | ⟨_, hx⟩ := hturn.calls hx
    · have hkept (hsame : x.outset = z.outset) : ∃ z, r.controls[c]? = some z ∧ z.outset = some o :=
        ⟨z, hz, hsame.symm.trans ho⟩
      cases hturn.deed with
      | tick tasks _ _ hline _ houtset =>
        obtain rfl := Option.some.inj (houtset.symm.trans ho)
        exact .inr ⟨rfl, hline⟩
      | fail _ _ houtset => exact .inl (hkept houtset)
      | drop _ houtset => exact .inl (hkept houtset)
      | boot _ _ _ _ _ houtset => exact .inl (hkept houtset)
      | found _ _ _ houtset => exact .inl (hkept houtset)
      | fund _ _ _ _ _ _ houtset => exact .inl (hkept houtset)
      | register _ _ _ _ _ _ _ _ _ houtset => exact .inl (hkept houtset)
      | recruit _ _ _ _ _ _ _ _ houtset => exact .inl (hkept houtset)
      | complete _ _ _ _ _ _ houtset => exact .inl (hkept houtset)
      | weigh _ _ houtset => exact .inl (hkept houtset)
    · exact .inl ⟨x, hx, ho⟩
  · obtain hx | ⟨_, _, hnone⟩ := hidle.new hx
    · exact .inl ⟨x, hx, ho⟩
    · rw [hnone] at ho
      cases ho

theorem Advance.traceless (h : Advance scene a r t) (hascent : r.Ascent floor) (hr : r.Traceless c) :
    t.Traceless c := by
  obtain ⟨⟨x, hx, hdropped⟩, hweighings, horigins⟩ := hr
  obtain ⟨k, z, y, hz, hturn⟩ | hidle := h.effect.calls
  · have hk : k ≠ c := by
      rintro rfl
      obtain rfl := Option.some.inj (hx.symm.trans hz)
      have hover := hturn.before
      rw [hdropped] at hover
      cases hover
    refine ⟨⟨x, (hturn.others c hk.symm).trans hx, hdropped⟩, ?_, ?_⟩
    · obtain ⟨hsame, _⟩ | ⟨w, hlook⟩ := hturn.look (hascent.inRole k z hz)
      · rw [(Prod.mk.inj hsame).2]
        exact hweighings
      · rw [hlook.weighings, List.forall_mem_append, List.forall_mem_singleton, hlook.control]
        exact ⟨hweighings, hk⟩
    · obtain heq | ⟨o, id, hcontrol, _, heq⟩ := hturn.built
      · rw [(Prod.mk.inj heq).1]
        exact horigins
      · rw [(Prod.mk.inj heq).1, List.forall_mem_append, List.forall_mem_singleton, hcontrol]
        exact ⟨horigins, hk⟩
  · refine ⟨⟨x, hidle.kept hx, hdropped⟩, ?_, ?_⟩
    · rwa [hidle.weighings]
    · rwa [hidle.origins]

/-- Nothing has been written for a call that has not had the controller. -/
theorem Attributed.untouched (hr : r.Attributed scene) (hascent : r.Ascent floor)
    (hx : r.controls[c]? = some x) (hqueued : x.stand = .queued) :
    (∀ w ∈ r.census.weighings, w.control ≠ c) ∧ ∀ o ∈ r.census.origins, o.control ≠ c := by
  constructor
  · rintro w hw rfl
    obtain ⟨z, o, hz, _, ho, _⟩ := hascent.author w hw
    obtain rfl := Option.some.inj (hx.symm.trans hz)
    have hnone := hascent.inRole _ x hx
    unfold Control.InRole at hnone
    rw [hqueued] at hnone
    cases hnone.symm.trans ho
  · rintro o ho rfl
    have htells := hr.tells _ x hx
    unfold Census.Tells at htells
    rw [hqueued] at htells
    obtain ⟨n, hn⟩ := List.mem_iff_getElem?.mp ho
    have hmem : (o, n) ∈ r.census.builtBy o.control :=
      List.mem_filter.mpr ⟨List.mem_zipIdx_iff_getElem?.mpr hn, by simp⟩
    rw [List.map_eq_nil_iff.mp htells.built] at hmem
    cases hmem

theorem giveUp_queued (hx : r.controls[c]? = some x) (hqueued : x.stand = .queued) :
    r.giveUp c = some { r with
      line := r.line.erase c
      controls := r.controls.modify c fun x => { x with stand := .dropped } } := by
  simp [giveUp, hx, hqueued, ticketOf, withStand]

theorem Becomes.errors_fit {ceiling : Int} {capacity drawn : Nat}
    (h : Becomes scene kind (fresh floor ceiling capacity drawn) r) (hwait : ∀ ms, kind (.wait ms)) :
    Word.Fits r.tracker.errors := by
  refine h.keeps (fun s => Word.Fits s.tracker.errors) hwait ?_
    (fresh_prompt floor ceiling capacity drawn) (show Word.Fits 0 by decide)
  intro a s t _ hs hadvance
  obtain heq | heq := hadvance.errors
  · rwa [heq]
  · rw [heq]
    exact Word.fits_wrap _

/-- Once more errors than the floor have been counted, the level stays as it is, unless the counter comes
    to the largest value, from which it would wrap around. -/
theorem Becomes.settled {ceiling : Int} {capacity drawn : Nat}
    (hr : Becomes scene (fun _ => True) (fresh floor ceiling capacity drawn) r)
    (h : Becomes scene (fun _ => True) r s) (herrors : floor < r.tracker.errors) :
    s.level = r.level ∧ floor < s.tracker.errors ∨
      ∃ q, Becomes scene (fun _ => True) r q ∧ Becomes scene (fun _ => True) q s ∧
        q.tracker.errors = Word.largest := by
  have hadvance {s t : Run} {a : Step} (hs : Becomes scene (fun _ => True) r s) (h : Advance scene a s t)
      (hlevel : s.level = r.level) (hmany : floor < s.tracker.errors)
      (hnot : s.tracker.errors ≠ Word.largest) : t.level = r.level ∧ floor < t.tracker.errors := by
    have hreached := hr.trans hs
    have hascent := hreached.ascent
    have hfits := hreached.errors_fit fun _ => trivial
    constructor
    · obtain hsame | ⟨c, hraise⟩ := h.raise_or_level_eq hreached.attributed hascent
      · rw [hsame, hlevel]
      · have hfew := hraise.errors
        rw [hascent.bound] at hfew
        omega
    · obtain heq | heq := h.errors
      · rwa [heq]
      · have hnext : Word.Fits (s.tracker.errors + 1) := by
          obtain ⟨hsmallest, hlargest⟩ := hfits
          exact ⟨by omega, by omega⟩
        rw [heq, Word.wrap_of_fits hnext]
        omega
  -- Along the later history: either all is as before, or the counter has been at its largest value.
  induction h with
  | refl => exact .inl ⟨rfl, herrors⟩
  | @step s t a hs _ hstep ih =>
    have hreached := hr.trans hs
    obtain ⟨hlevel, hmany⟩ | ⟨q, hq, hqs, hlargest⟩ := ih
    · by_cases hlargest : s.tracker.errors = Word.largest
      · exact .inr ⟨s, hs, .step a (.refl s) trivial hstep, hlargest⟩
      · have hprompt := hreached.prompt (fresh_prompt floor ceiling capacity drawn)
        exact .inl (hadvance hs (step_advance hprompt hstep) hlevel hmany hlargest)
    · exact .inr ⟨q, hq, .step a hqs trivial hstep, hlargest⟩
  | @pass s ms hs ih =>
    obtain hsettled | ⟨q, hq, hqs, hlargest⟩ := ih
    · exact .inl hsettled
    · exact .inr ⟨q, hq, .pass ms hqs, hlargest⟩

/-- However calls compete for the controller and are given up, and whatever is scored and counted
    meanwhile. The levels were raised one after the other, each by one tick, whose own score was enough,
    and with no more errors than the floor at that moment; a step that raises the level is one of exactly
    one call, and the score that a call goes by is that of the moment at which it got the controller. A
    tick that ended well hands out the enrolments of the batches of the levels that it raised, a batch of
    as many as there are workers for each, nobody twice, and none of another call. A call that is given
    up in line leaves the line, and nothing is ever done for it. Once there are more errors than the
    floor, the level does not change again, as long as the error counter does not wrap around. -/
theorem level_raised_by_calls {ceiling : Int} {capacity drawn : Nat}
    (h : Becomes scene (fun _ => True) (fresh floor ceiling capacity drawn) r) :
    (r.census.rises.map Weighing.level = List.range r.level ∧
      ∀ w ∈ r.census.rises, ∃ x o, r.controls[w.control]? = some x ∧ x.command = .tick ∧
        x.outset = some o ∧ o.score = w.score ∧ requiredScore w.level ≤ o.score ∧ w.errors ≤ floor) ∧
    (r.tracker.floor = floor ∧ ∀ a t, r.step scene a = some t →
      (t.level = r.level ∨ ∃! c, Raise c r t) ∧
      ∀ (c : Nat) x o, t.controls[c]? = some x → x.outset = some o →
        (∃ z, r.controls[c]? = some z ∧ z.outset = some o) ∨
          o.score = r.tracker.score ∧ r.line.head? = some c) ∧
    (∀ (c : Nat) x tasks, r.controls[c]? = some x → x.command = .tick → x.stand = .ended (.ok tasks) →
      (enrolments tasks).map (fun p => r.origins.toList[p.1]?) =
        (r.census.raisedBy c).flatMap (fun w => (w.batch scene.settings.workers).map some) ∧
      (enrolments tasks).length = scene.settings.workers * (r.census.raisedBy c).length ∧
      ((enrolments tasks).map Prod.fst).Nodup) ∧
    (∀ (c : Nat) x, r.controls[c]? = some x → x.stand = .queued →
      r.step scene (.giveUp c) = some { r with
        line := r.line.erase c
        controls := r.controls.modify c fun x => { x with stand := .dropped } } ∧
      ∀ t s, r.step scene (.giveUp c) = some t → Becomes scene (fun _ => True) t s →
        (∀ w ∈ s.census.weighings, w.control ≠ c) ∧ ∀ o ∈ s.census.origins, o.control ≠ c) ∧
    (floor < r.tracker.errors → ∀ s, Becomes scene (fun _ => True) r s → s.level = r.level ∨
      ∃ q, Becomes scene (fun _ => True) r q ∧ Becomes scene (fun _ => True) q s ∧
        q.tracker.errors = Word.largest) := by
  have hascent := h.ascent
  have hattributed := h.attributed
  have hprompt := h.prompt (fresh_prompt floor ceiling capacity drawn)
  refine ⟨⟨hascent.rises, ?_⟩, ⟨hascent.bound, ?_⟩, ?_, ?_, ?_⟩
  · intro w hw
    obtain ⟨hw, hrose⟩ := List.mem_filter.mp hw
    obtain ⟨x, o, hx, htick, ho, hsame⟩ := hascent.author w hw
    obtain ⟨hscore, herrors⟩ := (hascent.rose_iff w hw).mp hrose
    exact ⟨x, o, hx, htick, ho, hsame, by rwa [hsame], herrors⟩
  · intro a t hstep
    have hadvance := step_advance hprompt hstep
    refine ⟨?_, fun c x o hx ho => hadvance.outset hx ho⟩
    obtain hsame | ⟨c, hraise⟩ := hadvance.raise_or_level_eq hattributed hascent
    · exact .inl hsame
    · -- Two calls that raise the level in one step would both be the first in line.
      exact .inr ⟨c, hraise, fun k hk => Option.some.inj (hk.first.symm.trans hraise.first)⟩
  · intro c x tasks hx htick hended
    obtain ⟨hstart, _⟩ | ⟨_, hcomplete⟩ := hattributed.of_ended hx hended
    · cases hstart.symm.trans htick
    · exact ⟨hcomplete.origins, hcomplete.length_enrolments, hcomplete.nodup⟩
  · intro c x hx hqueued
    refine ⟨giveUp_queued hx hqueued, fun t s hstep hs => ?_⟩
    obtain ⟨hweighings, horigins⟩ := hattributed.untouched hascent hx hqueued
    have hgone : t.Traceless c := by
      obtain rfl := Option.some.inj ((giveUp_queued hx hqueued).symm.trans hstep)
      exact ⟨⟨{ x with stand := .dropped }, by simp [Array.getElem?_modify, hx], rfl⟩, hweighings, horigins⟩
    have hkept : s.Ascent floor ∧ s.Traceless c := by
      refine hs.keeps (fun u => u.Ascent floor ∧ u.Traceless c) (fun _ => trivial) ?_
        (Effect.prompt (step_effect hprompt hstep) hprompt) ⟨(h.step _ trivial hstep).ascent, hgone⟩
      exact fun _ _ _ _ hu hadvance => ⟨hu.1.advance hadvance, hadvance.traceless hu.1 hu.2⟩
    exact ⟨hkept.2.weighings, hkept.2.origins⟩
  · intro herrors s hs
    exact (h.settled hs herrors).imp_left And.left

/-- While a tick that raised the level waits for an identity, another one waits in line, and a third one
    is given up there; meanwhile the score rises, and an error is counted. The first tick goes by the
    score that it found, and hands out the only batch. -/
theorem level_raised_by_first_tick :
    let scene := Scene.plain 1 0
    let steps : List Step := [.produce, .score 150, .enter .tick, .enter .tick, .enter .tick,
      .proceed 0 none, .giveUp 2, .error, .score 1000, .decide true, .provide 0 none, .proceed 1 none]
    ∃ r x, (fresh 0 10 1 0).play scene steps = some r ∧ r.level = 1 ∧ r.controls[0]? = some x ∧
      x.stand = .ended (.ok [.enrol 0 1]) ∧
      (enrolments [.enrol 0 1]).map (fun p => r.origins.toList[p.1]?) = [some (.rising 0 1 100 0)] ∧
      ∀ s, Becomes scene (fun _ => True) r s → s.level = 1 ∨
        ∃ q, Becomes scene (fun _ => True) r q ∧ Becomes scene (fun _ => True) q s ∧
          q.tracker.errors = Word.largest := by
  intro scene steps
  have hplayed : ((fresh 0 10 1 0).play scene steps).map (fun r =>
      (r.level, r.tracker.errors, r.census.raisedBy 0, (r.controls[0]?).any fun x =>
        x.command = .tick && x.stand.handedOut? = some [.enrol 0 1])) =
      some (1, 1, [⟨0, 0, 150, 0, some 100⟩], true) := by decide +kernel
  obtain ⟨r, hr, hvalues⟩ := Option.map_eq_some_iff.mp hplayed
  simp only [Prod.mk.injEq, Option.any_eq_true, Bool.and_eq_true, decide_eq_true_eq] at hvalues
  obtain ⟨hlevel, herrors, hraised, x, hx, htick, hstand⟩ := hvalues
  have hended := Stand.handedOut?_eq_some.mp hstand
  have hbecomes := becomes_of_play (fun _ _ => trivial) hr
  obtain ⟨_, _, hbatches, _, hsettled⟩ := level_raised_by_calls hbecomes
  obtain ⟨horigins, _⟩ := hbatches 0 x _ hx htick hended
  rw [hraised] at horigins
  refine ⟨r, x, hr, hlevel, hx, hended, horigins, fun s hs => ?_⟩
  rw [← hlevel]
  exact hsettled (by rw [herrors]; decide) s hs

end Run

end ExchangeLoad
