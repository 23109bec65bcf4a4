import ExchangeLoad.Proofs.Run.Whereabouts

/-!
What a stretch of a call of the controller does with investors. It builds one, starts one, or collects the
work of those that are signed in; what the call has gathered to hand out grows by the work that comes of
this, unless the call fails or is given up.
-/

namespace ExchangeLoad

/-- A trader to which nothing has happened. -/
def Investor.IsNew (v : Investor) : Prop :=
  ∃ client params, client.asked = #[] ∧ client.answers = #[] ∧ v = .fresh client params (.newTrader params)

namespace Run

/-- The investors, those of them that were started, and the registry. -/
def roster (r : Run) : Array Investor × Array Nat × Registry Nat := (r.investors, r.starts, r.registry)

/-- What a stretch of the call `x`, which leaves it as `y`, does with investors. -/
inductive Muster (scene : Scene) (r : Run) (x y : Control) (t : Run) : Prop where
  | keep (hroster : t.roster = r.roster) (houtlay : y.stand.outlay = x.stand.outlay)
  | lose (hroster : t.roster = r.roster) (houtlay : y.stand.outlay = [])
  | build (v : Investor) (tasks : List Task) (hnew : scene.TradersOnly → v.IsNew)
      (hroster : t.roster = (r.investors.push v, r.starts, r.registry))
      (hjobs : ∀ task ∈ tasks, traderOf task = none) (houtlay : y.stand.outlay = x.stand.outlay ++ tasks)
  | register (slot i deposit : Nat) (tasks : List Task) (accepted : Bool)
      (hstand : x.stand = .funding slot i deposit tasks)
      (hroster : t.roster = ((r.startInvestor i).1.investors, (r.startInvestor i).1.starts, r.registry.add i))
      (houtlay : y.stand.outlay = x.stand.outlay ++ (r.startInvestor i).2)
  | tick (hqueued : x.stand = .queued) (hcommand : x.command = .tick)
      (hroster : t.roster = ((r.startFirst.1.collectAll scene).1.investors, r.startFirst.1.starts, r.registry))
      (houtlay : y.stand.outlay = r.startFirst.2 ++ (r.startFirst.1.collectAll scene).2)

variable {scene : Scene} {c i : Nat} {r s t : Run} {x y z : Control} {a : Step}

theorem roster_submitAll (tasks : List Task) : (r.submitAll tasks).roster = r.roster := by
  induction tasks generalizing r with
  | nil => rfl
  | cons task rest ih => exact ih (r := r.launch task true)

theorem roster_endControl (result : Except RunError (List Task)) :
    (r.endControl c result).roster = r.roster := by
  unfold endControl
  cases result with
  | error e => rfl
  | ok tasks =>
    simp only
    split
    · apply roster_submitAll
    · rfl

theorem roster_toSlot (slot : Nat) (tasks : List Task) : (r.toSlot scene c slot tasks).roster = r.roster := by
  unfold toSlot
  split
  · rfl
  · apply roster_endControl

theorem roster_weigh (climb : Climb) : (r.weigh scene c climb).roster = r.roster := by
  cases hrise : r.mayRise climb.score with
  | false =>
    rw [weigh_of_not_mayRise hrise]
    apply roster_endControl
  | true =>
    rw [weigh_of_mayRise hrise]
    split <;> rfl

theorem roster_build_error {id : Identity} {params : Params} {origin : Origin} {made : Option Fault}
    {why : Fault} (h : r.build scene id params origin made = (s, .error why)) : s.roster = r.roster := by
  unfold build at h
  cases made with
  | some why =>
    obtain ⟨rfl, -⟩ := Prod.mk.inj h
    rfl
  | none => simp at h

theorem roster_build_ok {id : Identity} {params : Params} {origin : Origin} {made : Option Fault}
    (h : r.build scene id params origin made = (s, .ok i)) :
    ∃ v, (scene.TradersOnly → v.IsNew) ∧ s.roster = (r.investors.push v, r.starts, r.registry) := by
  unfold build at h
  cases made with
  | some why => simp at h
  | none =>
    obtain ⟨rfl, -⟩ := Prod.mk.inj h
    let client := Client.fresh scene.settings.app
      (.investor id (scene.displayName r.named) (scene.secret r.named)) scene.settings.client
    refine ⟨_, fun hscene => ⟨client, params, rfl, rfl, ?_⟩, rfl⟩
    rw [hscene]

theorem startInvestor_registry (r : Run) (j : Nat) : (r.startInvestor j).1.registry = r.registry := by
  unfold startInvestor
  split <;> rfl

theorem startFirst_registry (r : Run) : r.startFirst.1.registry = r.registry := by
  unfold startFirst
  cases r.registry.firstNotStarted? r.life with
  | none => rfl
  | some i => exact r.startInvestor_registry i

/-- Collecting work neither starts nor registers anybody. -/
theorem collectAll_starts (scene : Scene) (r : Run) : ((r.collectAll scene).1.starts,
    (r.collectAll scene).1.registry) = (r.starts, r.registry) := by
  have hfold (members : List Nat) (tasks : List Task) :
      ((members.foldl (collectFrom scene) (r, tasks)).1.starts,
        (members.foldl (collectFrom scene) (r, tasks)).1.registry) = (r.starts, r.registry) := by
    induction members generalizing r tasks with
    | nil => rfl
    | cons i rest ih =>
      refine (ih (collectFrom scene (r, tasks) i).1 _).trans ?_
      unfold collectFrom
      split
      · rfl
      · split <;> rfl
  exact hfold _ []

theorem Leaves.eq (h : Leaves c r t z) (hy : t.controls[c]? = some y) : y = z :=
  Option.some.inj (hy.symm.trans h.control)

theorem fund_muster {pipeline : Pipeline} {slot ticket : Nat} {tasks : List Task} {id : Identity}
    {made : Option Fault} (hx : r.controls[c]? = some x) (hstand : x.stand = .founding slot ticket tasks)
    (hy : ({ r with pipeline }.fund scene c slot tasks id made).controls[c]? = some y) :
    Muster scene r x y ({ r with pipeline }.fund scene c slot tasks id made) := by
  have hmidway : Midway c r { r with pipeline } x := (Midway.refl hx).of_eq rfl
  have hbuilding := hmidway.build scene id (Batch.founding slot) (.founding c slot) made
  unfold fund at hy ⊢
  cases hbuild : { r with pipeline }.build scene id (Batch.founding slot) (.founding c slot) made with
  | mk s result =>
    rw [hbuild] at hbuilding
    cases result with
    | error why =>
      simp only [hbuild] at hy ⊢
      have hroster := roster_build_error hbuild
      refine .lose ((roster_endControl _).trans hroster) ?_
      rw [(hbuilding.endFailed _).eq hy]
      rfl
    | ok i =>
      simp only [hbuild] at hy ⊢
      obtain ⟨v, hnew, hroster⟩ := roster_build_ok hbuild
      refine .build v [] hnew hroster (by simp) ?_
      have hfunding : Midway c r { s with
          deposits := s.deposits.push ⟨s.identity i, (Batch.founding slot).credit, none⟩ } x :=
        hbuilding.of_eq rfl
      rw [(hfunding.withStand rfl).eq hy, hstand, List.append_nil]
      rfl

theorem recruit_muster {pipeline : Pipeline} {slot ticket : Nat} {climb : Climb} {id : Identity}
    {made : Option Fault} (hx : r.controls[c]? = some x) (hstand : x.stand = .raising climb slot ticket)
    (hy : ({ r with pipeline }.recruit scene c slot climb id made).controls[c]? = some y) :
    Muster scene r x y ({ r with pipeline }.recruit scene c slot climb id made) := by
  have hmidway : Midway c r { r with pipeline } x := (Midway.refl hx).of_eq rfl
  have hbuilding := hmidway.build scene id (Batch.rising r.level climb.price slot)
    (.rising c r.level climb.price slot) made
  unfold recruit at hy ⊢
  cases hbuild : { r with pipeline }.build scene id (Batch.rising r.level climb.price slot)
      (.rising c r.level climb.price slot) made with
  | mk s result =>
    rw [hbuild] at hbuilding
    cases result with
    | error why =>
      simp only [hbuild] at hy ⊢
      have hroster := roster_build_error hbuild
      refine .lose ((roster_endControl _).trans hroster) ?_
      rw [(hbuilding.endFailed _).eq hy]
      rfl
    | ok i =>
      simp only [hbuild] at hy ⊢
      obtain ⟨v, hnew, hroster⟩ := roster_build_ok hbuild
      by_cases hmore : slot + 1 < scene.settings.workers
      · rw [if_pos hmore] at hy ⊢
        let onward : Climb := { climb with
          tasks := climb.tasks ++ [.enrol i (Batch.rising r.level climb.price slot).credit] }
        obtain ⟨next, hleaves⟩ := hbuilding.awaitIdentity (.raising onward (slot + 1)) fun _ => rfl
        refine .build v [.enrol i (Batch.rising r.level climb.price slot).credit] hnew hroster ?_ ?_
        · simp [traderOf]
        · rw [hleaves.eq hy, hstand]
          rfl
      · rw [if_neg hmore] at hy ⊢
        obtain ⟨stand, hweighed, hleaves⟩ := (Midway.refl hbuilding.control).weigh scene { climb with
          tasks := climb.tasks ++ [.enrol i (Batch.rising r.level climb.price slot).credit] } rfl
        refine .build v [.enrol i (Batch.rising r.level climb.price slot).credit] hnew
          ((roster_weigh _).trans hroster) ?_ ?_
        · simp [traderOf]
        · rw [hleaves.eq hy, hstand]
          exact hweighed.outlay.1

theorem beginTick_muster (hx : r.controls[c]? = some x) (hqueued : x.stand = .queued)
    (hcommand : x.command = .tick) (hy : (r.beginTick scene c).controls[c]? = some y) :
    Muster scene r x y (r.beginTick scene c) := by
  have hmidway := ((Midway.refl hx).startFirst.collectAll scene).noteControl fun z => { z with
    outset := some ⟨(r.startFirst.1.collectAll scene).1.tracker.score,
      r.startFirst.2 ++ (r.startFirst.1.collectAll scene).2⟩ }
  obtain ⟨stand, hweighed, hleaves⟩ := (Midway.refl hmidway.control).weigh scene
    ⟨(r.startFirst.1.collectAll scene).1.tracker.score, 0,
      r.startFirst.2 ++ (r.startFirst.1.collectAll scene).2⟩ rfl
  obtain ⟨hstarts, hregistry⟩ := Prod.mk.inj (collectAll_starts scene r.startFirst.1)
  have hroster : (r.beginTick scene c).roster =
      ((r.startFirst.1.collectAll scene).1.investors, r.startFirst.1.starts, r.registry) := by
    rw [← hstarts, ← r.startFirst_registry, ← hregistry]
    exact roster_weigh _
  refine .tick hqueued hcommand hroster ?_
  rw [hleaves.eq hy]
  exact hweighed.outlay.1

/-- What a call does with investors when it goes on. -/
theorem CallMove.muster (hx : r.controls[c]? = some x) (h : CallMove scene c r x a t)
    (hy : t.controls[c]? = some y) : Muster scene r x y t := by
  have hmidway := Midway.refl hx
  cases h with
  | start made hqueued =>
    unfold beginStart at hy ⊢
    cases made with
    | some why =>
      refine .lose (roster_endControl _) ?_
      rw [(hmidway.endFailed _).eq hy]
      rfl
    | none =>
      refine .keep rfl ?_
      rw [Option.some.inj (hy.symm.trans (getElem?_withStand
        (hmidway.noteControl fun y => { y with guest := some r.guests.size }).control)), hqueued]
      rfl
  | tick _ hqueued hcommand => exact beginTick_muster hx hqueued hcommand hy
  | boot guest hstand =>
    refine .keep (roster_toSlot 0 []) ?_
    have hheard : Midway c r { r with
        guests := r.guests.modify guest fun g => g.hear (.boot scene.settings.bootstrap) .done } x :=
      hmidway.of_eq rfl
    obtain ⟨stand, hslot, hleaves⟩ := hheard.toSlot scene 0 []
    rw [hleaves.eq hy, hstand]
    exact hslot.outlay.1
  | unready guest why =>
    refine .lose (roster_endControl _) ?_
    have hheard : Midway c r { r with
        guests := r.guests.modify guest fun g => g.hear (.boot scene.settings.bootstrap) (.failed why) } x :=
      hmidway.of_eq rfl
    rw [(hheard.endFailed _).eq hy]
    rfl
  | fund slot ticket tasks pipeline id made hstand => exact fund_muster hx hstand hy
  | recruit climb slot ticket pipeline id made hstand => exact recruit_muster hx hstand hy
  | refuse ticket pipeline =>
    refine .lose (roster_endControl _) ?_
    have hrefused : Midway c r { r with pipeline } x := hmidway.of_eq rfl
    rw [(hrefused.endFailed _).eq hy]
    rfl
  | register slot i deposit tasks accepted hstand =>
    have hregistered : Midway c r (r.registered i deposit accepted) x := hmidway.of_eq rfl
    obtain ⟨stand, hslot, hleaves⟩ := (hregistered.startInvestor i).toSlot scene (slot + 1)
      (tasks ++ ((r.registered i deposit accepted).startInvestor i).2)
    have hstarted : ((r.registered i deposit accepted).startInvestor i).1.roster =
        ((r.startInvestor i).1.investors, (r.startInvestor i).1.starts, r.registry.add i) ∧
        ((r.registered i deposit accepted).startInvestor i).2 = (r.startInvestor i).2 := by
      unfold startInvestor
      rw [show (r.registered i deposit accepted).investors = r.investors from rfl]
      split <;> exact ⟨rfl, rfl⟩
    refine .register slot i deposit tasks accepted hstand ((roster_toSlot _ _).trans hstarted.1) ?_
    rw [hleaves.eq hy, hstand, ← hstarted.2]
    exact hslot.outlay.1
  | weigh climb hstand =>
    obtain ⟨stand, hweighed, hleaves⟩ := hmidway.weigh scene climb rfl
    refine .keep (roster_weigh _) ?_
    rw [hleaves.eq hy, hstand]
    exact hweighed.outlay.1
  | giveUp =>
    refine .lose rfl ?_
    rw [Option.some.inj (hy.symm.trans (getElem?_withStand hx))]
    rfl

end Run

end ExchangeLoad
