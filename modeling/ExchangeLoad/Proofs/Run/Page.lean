import ExchangeLoad.Proofs.Run.Journal
import ExchangeLoad.Proofs.Run.Muster

/-!
What stands on a page of a call's journal. `Entry` has one case for each thing that a stretch of a call can
come to, with where the call stood, where it stands then, and the whole page.
-/

namespace ExchangeLoad

/-- What is noted when an investor is built around a new client. -/
def enlisting (number : Nat) (id : Identity) (params : Params) : List Mark :=
  [.took id, .created (.investor number), .built number id params]

/-- A caller that learns that the pipeline is closed takes nothing. -/
theorem Pipeline.taken_of_refused {p q : Pipeline} {ticket : Nat} (h : p.take ticket = some (q, none)) :
    q.taken = p.taken := by
  unfold take at h
  split at h
  · split at h
    · simp at h
    · split at h
      · obtain ⟨rfl, -⟩ := Prod.mk.inj (Option.some.inj h)
        rfl
      · cases h
  · cases h

namespace Run

/-- What is noted when a tick that found a score looks at the level. -/
def rung (r : Run) (score : Int) : List Mark := if r.mayRise score then [.raised (r.level + 1)] else []

/-- A stretch of the call `x` with number `c` leaves it as `y`, and the page given last. -/
inductive Entry (scene : Scene) (c : Nat) (r : Run) (x y : Control) (t : Run) : List Mark → Prop where
  | uncreated (why : Fault) (hbefore : x.stand = .queued) (hcommand : x.command = .start)
      (hstand : y.stand = .ended (.error (.bootstrap why.chain))) : Entry scene c r x y t []
  | welcome (guest : Nat) (hbefore : x.stand = .queued) (hcommand : x.command = .start)
      (hstand : y.stand = .booting guest) : Entry scene c r x y t [.created (.guest guest)]
  | unready (guest : Nat) (why : Fault) (hbefore : x.stand = .booting guest)
      (hstand : y.stand = .ended (.error (.bootstrap why.chain))) : Entry scene c r x y t [.replied (.failed why)]
  | ready (guest : Nat) (hbefore : x.stand = .booting guest) (hslot : ToSlot scene 0 [] y.stand) :
      Entry scene c r x y t [.replied .done]
  /-- The call finds the pipeline closed, or no client can be created. -/
  | unprovided (ticket : Nat) (ids : List Identity) (why : String) (hbefore : ticketOf x.stand = some ticket)
      (hids : ids.length ≤ 1) (hstand : y.stand = .ended (.error (.provisioning why))) :
      Entry scene c r x y t (ids.map .took)
  | found (slot ticket deposit : Nat) (tasks : List Task) (id : Identity)
      (hbefore : x.stand = .founding slot ticket tasks)
      (hstand : y.stand = .funding slot r.investors.size deposit tasks)
      (hcards : t.census.cards = r.census.cards ++ [(id, Batch.founding slot)]) :
      Entry scene c r x y t (enlisting r.investors.size id (Batch.founding slot) ++
        [.deposited id (Batch.founding slot).credit])
  | register (slot i deposit : Nat) (tasks : List Task) (accepted : Bool) (v : Investor)
      (hbefore : x.stand = .funding slot i deposit tasks) (hv : r.investors[i]? = some v)
      (hslot : ToSlot scene (slot + 1) (tasks ++ [(v.start i).2]) y.stand)
      (hcards : t.census.cards = r.census.cards) :
      Entry scene c r x y t [.decided accepted, .entered i (some (v.start i).1), .started i (some v)]
  | lost (slot i deposit : Nat) (tasks : List Task) (accepted : Bool)
      (hbefore : x.stand = .funding slot i deposit tasks) (hnone : r.investors[i]? = none)
      (hslot : ToSlot scene (slot + 1) tasks y.stand) :
      Entry scene c r x y t [.decided accepted, .entered i none]
  | tick (numbers : List Nat) (hbefore : x.stand = .queued) (hcommand : x.command = .tick)
      (hweighed : Weighed scene c r r.census ⟨r.tracker.score, 0, r.startFirst.2 ++
        (r.startFirst.1.collectAll scene).2⟩ t.census y.stand) :
      Entry scene c r x y t (numbers.map (fun i => .started i r.investors[i]?) ++ r.rung r.tracker.score)
  | recruit (climb : Climb) (slot ticket next : Nat) (id : Identity)
      (hbefore : x.stand = .raising climb slot ticket) (hmore : slot + 1 < scene.settings.workers)
      (hstand : y.stand = .raising (r.recruited climb slot) (slot + 1) next)
      (hcensus : t.census = r.recruitedCensus c slot climb id) :
      Entry scene c r x y t (enlisting r.investors.size id (Batch.rising r.level climb.price slot))
  | complete (climb : Climb) (slot ticket : Nat) (id : Identity) (hbefore : x.stand = .raising climb slot ticket)
      (hlast : scene.settings.workers ≤ slot + 1)
      (hweighed : Weighed scene c r (r.recruitedCensus c slot climb id) (r.recruited climb slot) t.census
        y.stand) :
      Entry scene c r x y t (enlisting r.investors.size id (Batch.rising r.level climb.price slot) ++
        r.rung climb.score)
  | weigh (climb : Climb) (hbefore : x.stand = .weighing climb)
      (hweighed : Weighed scene c r r.census climb t.census y.stand) :
      Entry scene c r x y t (r.rung climb.score)
  | drop (hstand : y.stand = .dropped) : Entry scene c r x y t []

/-- The identities that were taken, the clients that were created, and the investors that were started. -/
def files (r : Run) : List Identity × List Session × List Nat :=
  (r.pipeline.taken, r.sessions.toList, r.starts.toList)

variable {scene : Scene} {c i : Nat} {r s t : Run} {x y z : Control} {a : Step} {pipeline : Pipeline}

theorem files_submitAll (tasks : List Task) : (r.submitAll tasks).files = r.files := by
  induction tasks generalizing r with
  | nil => rfl
  | cons task rest ih => exact ih (r := r.launch task true)

theorem files_endControl (result : Except RunError (List Task)) : (r.endControl c result).files = r.files := by
  unfold endControl
  cases result with
  | error e => rfl
  | ok tasks =>
    simp only
    split
    · exact files_submitAll tasks
    · rfl

theorem files_toSlot (slot : Nat) (tasks : List Task) : (r.toSlot scene c slot tasks).files = r.files := by
  unfold toSlot
  split
  · rfl
  · exact files_endControl _

theorem files_weigh (climb : Climb) : (r.weigh scene c climb).files = r.files := by
  cases hrise : r.mayRise climb.score with
  | false =>
    rw [weigh_of_not_mayRise hrise]
    exact files_endControl _
  | true =>
    rw [weigh_of_mayRise hrise]
    split <;> rfl

/-- With an identity just taken, building an investor creates its client and enters the investor under the
    next number, unless no client could be created. -/
theorem build_ok_of_take {ticket : Nat} {id : Identity} {params : Params} {origin : Origin}
    {made : Option Fault} (htake : r.pipeline.take ticket = some (pipeline, some id))
    (h : { r with pipeline }.build scene id params origin made = (s, .ok i)) :
    i = r.investors.size ∧ s.census = r.census.built origin (id, params) ∧ s.marketPrice = r.marketPrice ∧
      s.identity i = id ∧
      s.files = (r.pipeline.taken ++ [id], r.sessions.toList ++ [.investor i], r.starts.toList) := by
  obtain ⟨hi, hcensus, hprice, hid⟩ := build_ok h
  refine ⟨hi, hcensus, hprice.trans (marketPrice_congr rfl fun _ => rfl), hid, ?_⟩
  rw [← Pipeline.take_taken htake]
  unfold build at h
  cases made with
  | some why => simp at h
  | none =>
    obtain ⟨rfl, hnumber⟩ := Prod.mk.inj h
    obtain rfl := Except.ok.inj hnumber
    simp [files]

theorem build_error_of_take {ticket : Nat} {id : Identity} {params : Params} {origin : Origin}
    {made : Option Fault} {why : Fault} (htake : r.pipeline.take ticket = some (pipeline, some id))
    (h : { r with pipeline }.build scene id params origin made = (s, .error why)) :
    s.census = r.census ∧ s.files = (r.pipeline.taken ++ [id], r.sessions.toList, r.starts.toList) := by
  refine ⟨(build_error h).trans (census_of_eq rfl), ?_⟩
  rw [← Pipeline.take_taken htake]
  unfold build at h
  cases made with
  | some why =>
    obtain ⟨rfl, -⟩ := Prod.mk.inj h
    rfl
  | none => simp at h

/-- What the news are is told by what was added to each record. -/
theorem news_eq (ids : List Identity) (sessions : List Session) (cards : List (Identity × Params))
    (deposits : List Deposit) (entries starts : List Nat)
    (hfiles : t.files = (r.pipeline.taken ++ ids, r.sessions.toList ++ sessions, r.starts.toList ++ starts))
    (hcards : t.census.cards = r.census.cards ++ cards)
    (hdeposits : added r.census.deposits t.census.deposits = deposits)
    (hentries : t.census.entries = r.census.entries ++ entries) (htracker : t.tracker = r.tracker) :
    r.news t = ids.map .took ++ sessions.map .created ++
      (cards.zipIdx r.investors.size).map (fun p => .built p.2 p.1.1 p.1.2) ++
      deposits.map (fun d => .deposited d.id d.amount) ++ entries.map (fun i => .entered i t.investors[i]?) ++
      starts.map (fun i => .started i r.investors[i]?) ++
      if t.level = r.level then [] else [.raised t.level] := by
  simp only [files, Prod.mk.injEq] at hfiles
  obtain ⟨hids, hsessions, hstarts⟩ := hfiles
  simp [news, hids, hsessions, hstarts, hcards, hdeposits, hentries, htracker]

/-- A stretch that leaves the census alone, and at most takes identities or creates clients. -/
theorem news_of_census_eq (ids : List Identity) (sessions : List Session)
    (hfiles : t.files = (r.pipeline.taken ++ ids, r.sessions.toList ++ sessions, r.starts.toList))
    (hcensus : t.census = r.census) (htracker : t.tracker = r.tracker) :
    r.news t = ids.map .took ++ sessions.map .created := by
  have hlevel : t.level = r.level := congrArg Census.level hcensus
  rw [news_eq ids sessions [] [] [] []
    (by simpa using hfiles) (by simp [hcensus]) (by simp [hcensus]) (by simp [hcensus]) htracker]
  simp [hlevel]

/-- A stretch that builds an investor with an identity just taken. -/
theorem news_of_built (id : Identity) (params : Params) (deposits : List Deposit) {marks : List Mark}
    (hfiles : t.files =
      (r.pipeline.taken ++ [id], r.sessions.toList ++ [.investor r.investors.size], r.starts.toList))
    (hrecords : (t.census.cards, t.census.deposits, t.census.entries) =
      (r.census.cards ++ [(id, params)], r.census.deposits ++ deposits, r.census.entries))
    (htracker : t.tracker = r.tracker) (hlevel : (if t.level = r.level then [] else [.raised t.level]) = marks) :
    r.news t = enlisting r.investors.size id params ++
      deposits.map (fun d => .deposited d.id d.amount) ++ marks := by
  simp only [Prod.mk.injEq] at hrecords
  obtain ⟨hcards, hdeposits, hentries⟩ := hrecords
  rw [news_eq [id] [.investor r.investors.size] [(id, params)] deposits [] [] (by simpa using hfiles) hcards
    (by rw [hdeposits, added_append]) (by simpa using hentries) htracker, hlevel]
  simp [enlisting]

/-- What a look at the level notes, whatever was noted before in the same stretch. -/
theorem Weighed.rung {b : Census} {climb : Climb} {stand : Stand} (h : Weighed scene c r b climb t.census stand)
    (hlevel : b.level = r.level) :
    (if t.level = r.level then [] else [.raised t.level]) = r.rung climb.score := by
  have htlevel : t.level = t.census.level := rfl
  unfold Run.rung
  cases h with
  | stay hrise _ hcensus => simp [htlevel, hcensus, Census.weighed, hlevel, hrise]
  | again hrise _ _ hcensus => simp [htlevel, hcensus, Census.weighed, hlevel, hrise]
  | raise _ hrise _ _ hcensus => simp [htlevel, hcensus, Census.weighed, hlevel, hrise]

/-- What a look at the level leaves as it was. -/
theorem Weighed.kept {b b' : Census} {climb : Climb} {stand : Stand} (h : Weighed scene c r b climb b' stand) :
    b'.cards = b.cards ∧ b'.deposits = b.deposits ∧ b'.entries = b.entries := by
  cases h with
  | stay _ _ hcensus => rw [hcensus]; exact ⟨rfl, rfl, rfl⟩
  | again _ _ _ hcensus => rw [hcensus]; exact ⟨rfl, rfl, rfl⟩
  | raise _ _ _ _ hcensus => rw [hcensus]; exact ⟨rfl, rfl, rfl⟩

theorem CallMove.tracker (h : CallMove scene c r x a t) : t.tracker = r.tracker :=
  congrArg Surroundings.tracker h.stretch.surroundings

theorem Leaves.entry {marks : List Mark} (h : Leaves c r t y) (hcommand : y.command = x.command)
    (hentry : Entry scene c r x y t marks) (hpage : r.page a t = marks) :
    ∃ y, t.controls[c]? = some y ∧ y.command = x.command ∧ Entry scene c r x y t (r.page a t) :=
  ⟨y, h.control, hcommand, hpage ▸ hentry⟩

/-- A call that failed, having done no more than take identities. -/
theorem Midway.entryOf (ids : List Identity) {e : RunError} (h : Midway c r s x)
    (hmove : CallMove scene c r x a (s.endControl c (.error e)))
    (hfiles : s.files = (r.pipeline.taken ++ ids, r.sessions.toList, r.starts.toList))
    (hcensus : s.census = r.census)
    (hentry : ∀ y, y.stand = .ended (.error e) →
      Entry scene c r x y (s.endControl c (.error e)) (a.learnt ++ ids.map .took)) :
    ∃ y, (s.endControl c (.error e)).controls[c]? = some y ∧ y.command = x.command ∧
      Entry scene c r x y (s.endControl c (.error e)) (r.page a (s.endControl c (.error e))) := by
  refine (h.endFailed e).entry rfl (hentry _ rfl) ?_
  rw [page, news_of_census_eq ids [] ((files_endControl _).trans (by simpa using hfiles))
    ((census_endControl _).trans hcensus) hmove.tracker, List.map_nil, List.append_nil]

/-- A start that built the investor of a founding slot and made its deposit. -/
theorem Leaves.entry_of_found {slot ticket deposit : Nat} {tasks : List Task} {id : Identity}
    {made : Option Fault} (h : Leaves c r t y) (hcommand : y.command = x.command)
    (hmove : CallMove scene c r x (.provide c made) t) (hbefore : x.stand = .founding slot ticket tasks)
    (hstand : y.stand = .funding slot r.investors.size deposit tasks)
    (hcensus : t.census = (r.census.built (.founding c slot) (id, Batch.founding slot)).deposited id
      (Batch.founding slot).credit)
    (hfiles : t.files =
      (r.pipeline.taken ++ [id], r.sessions.toList ++ [.investor r.investors.size], r.starts.toList)) :
    ∃ y, t.controls[c]? = some y ∧ y.command = x.command ∧
      Entry scene c r x y t (r.page (.provide c made) t) := by
  have hnews := news_of_built id (Batch.founding slot) [⟨id, (Batch.founding slot).credit, none⟩] hfiles
    (by rw [hcensus]; rfl) hmove.tracker (if_pos (congrArg Census.level hcensus))
  refine h.entry hcommand (.found slot ticket deposit tasks id hbefore hstand (by rw [hcensus]; rfl)) ?_
  rw [page, hnews, List.append_nil]
  rfl

/-- A tick that built the investor of a slot before the last one. -/
theorem Leaves.entry_of_recruit {slot ticket next : Nat} {climb : Climb} {id : Identity} {made : Option Fault}
    (h : Leaves c r t y) (hcommand : y.command = x.command) (hmove : CallMove scene c r x (.provide c made) t)
    (hbefore : x.stand = .raising climb slot ticket) (hmore : slot + 1 < scene.settings.workers)
    (hstand : y.stand = .raising (r.recruited climb slot) (slot + 1) next)
    (hcensus : t.census = r.recruitedCensus c slot climb id)
    (hfiles : t.files =
      (r.pipeline.taken ++ [id], r.sessions.toList ++ [.investor r.investors.size], r.starts.toList)) :
    ∃ y, t.controls[c]? = some y ∧ y.command = x.command ∧
      Entry scene c r x y t (r.page (.provide c made) t) := by
  have hnews := news_of_built id (Batch.rising r.level climb.price slot) [] hfiles
    (by rw [hcensus, List.append_nil]; rfl) hmove.tracker (if_pos (congrArg Census.level hcensus))
  refine h.entry hcommand (.recruit climb slot ticket next id hbefore hmore hstand hcensus) ?_
  rw [page, hnews, List.append_nil]
  rfl

/-- A tick that built the investor of the last slot, and looked at the level. -/
theorem Leaves.entry_of_complete {slot ticket : Nat} {climb : Climb} {id : Identity} {made : Option Fault}
    (h : Leaves c r t y) (hcommand : y.command = x.command) (hmove : CallMove scene c r x (.provide c made) t)
    (hbefore : x.stand = .raising climb slot ticket) (hlast : scene.settings.workers ≤ slot + 1)
    (hweighed : Weighed scene c r (r.recruitedCensus c slot climb id) (r.recruited climb slot) t.census y.stand)
    (hfiles : t.files =
      (r.pipeline.taken ++ [id], r.sessions.toList ++ [.investor r.investors.size], r.starts.toList)) :
    ∃ y, t.controls[c]? = some y ∧ y.command = x.command ∧
      Entry scene c r x y t (r.page (.provide c made) t) := by
  obtain ⟨hcards, hdeposits, hentries⟩ := hweighed.kept
  have hnews := news_of_built id (Batch.rising r.level climb.price slot) [] hfiles
    (by rw [hcards, hdeposits, hentries, List.append_nil]; rfl) hmove.tracker (hweighed.rung rfl)
  refine h.entry hcommand (.complete climb slot ticket id hbefore hlast hweighed) ?_
  rw [page, hnews, List.map_nil, List.append_nil]
  rfl

theorem fund_entry {slot ticket : Nat} {tasks : List Task} {id : Identity} {made : Option Fault}
    (hx : r.controls[c]? = some x) (hstand : x.stand = .founding slot ticket tasks)
    (htake : r.pipeline.take ticket = some (pipeline, some id))
    (ht : t = { r with pipeline }.fund scene c slot tasks id made)
    (hmove : CallMove scene c r x (.provide c made) t) :
    ∃ y, t.controls[c]? = some y ∧ y.command = x.command ∧
      Entry scene c r x y t (r.page (.provide c made) t) := by
  have hmidway : Midway c r { r with pipeline } x := (Midway.refl hx).of_eq rfl
  have hbuilding := hmidway.build scene id (Batch.founding slot) (.founding c slot) made
  unfold fund at ht
  cases hbuild : { r with pipeline }.build scene id (Batch.founding slot) (.founding c slot) made with
  | mk s result =>
    rw [hbuild] at hbuilding
    cases result with
    | error why =>
      simp only [hbuild] at ht
      subst ht
      obtain ⟨hcensus, hfiles⟩ := build_error_of_take htake hbuild
      refine hbuilding.entryOf [id] hmove hfiles hcensus fun y hy => ?_
      exact .unprovided ticket [id] _ (by rw [hstand, ticketOf]) (Nat.le_refl _) hy
    | ok i =>
      simp only [hbuild] at ht
      subst ht
      obtain ⟨rfl, hbuilt, -, hid, hfiles⟩ := build_ok_of_take htake hbuild
      have hfunding : Midway c r { s with
          deposits := s.deposits.push ⟨s.identity r.investors.size, (Batch.founding slot).credit, none⟩ } x :=
        hbuilding.of_eq rfl
      refine (hfunding.withStand rfl).entry_of_found rfl hmove hstand rfl ?_ hfiles
      rw [← hbuilt, hid]
      simp [census, Census.deposited, Run.withStand]

theorem recruit_entry {slot ticket : Nat} {climb : Climb} {id : Identity} {made : Option Fault}
    (hx : r.controls[c]? = some x) (hstand : x.stand = .raising climb slot ticket)
    (htake : r.pipeline.take ticket = some (pipeline, some id))
    (ht : t = { r with pipeline }.recruit scene c slot climb id made)
    (hmove : CallMove scene c r x (.provide c made) t) :
    ∃ y, t.controls[c]? = some y ∧ y.command = x.command ∧
      Entry scene c r x y t (r.page (.provide c made) t) := by
  have hmidway : Midway c r { r with pipeline } x := (Midway.refl hx).of_eq rfl
  have hbuilding := hmidway.build scene id (Batch.rising r.level climb.price slot)
    (.rising c r.level climb.price slot) made
  have hstretch := (Stretch.refl scene c { r with pipeline }).build id (Batch.rising r.level climb.price slot)
    (.rising c r.level climb.price slot) made
  unfold recruit at ht
  cases hbuild : { r with pipeline }.build scene id (Batch.rising r.level climb.price slot)
      (.rising c r.level climb.price slot) made with
  | mk s result =>
    rw [hbuild] at hbuilding hstretch
    cases result with
    | error why =>
      simp only [hbuild] at ht
      subst ht
      obtain ⟨hcensus, hfiles⟩ := build_error_of_take htake hbuild
      refine hbuilding.entryOf [id] hmove hfiles hcensus fun y hy => ?_
      exact .unprovided ticket [id] _ (by rw [hstand, ticketOf]) (Nat.le_refl _) hy
    | ok i =>
      simp only [hbuild] at ht
      obtain ⟨rfl, hbuilt, hprice, -, hfiles⟩ := build_ok_of_take htake hbuild
      by_cases hmore : slot + 1 < scene.settings.workers
      · rw [if_pos hmore] at ht
        subst ht
        obtain ⟨next, hleaves⟩ := hbuilding.awaitIdentity
          (.raising (r.recruited climb slot) (slot + 1)) fun _ => rfl
        exact hleaves.entry_of_recruit rfl hmove hstand hmore rfl ((census_awaitIdentity _).trans hbuilt) hfiles
      · rw [if_neg hmore] at ht
        subst ht
        have hsame : (s.tracker, s.level, s.marketPrice) = (r.tracker, r.level, r.marketPrice) := by
          have htracker : s.tracker = r.tracker := congrArg Surroundings.tracker hstretch.surroundings
          have hlevel : s.level = r.level := congrArg Census.level hbuilt
          rw [htracker, hlevel, hprice]
        obtain ⟨stand, hweighed, hleaves⟩ := hbuilding.weigh scene (r.recruited climb slot) hsame
        rw [show s.census = r.recruitedCensus c slot climb id from hbuilt] at hweighed
        exact hleaves.entry_of_complete rfl hmove hstand (Nat.le_of_not_lt hmore) hweighed
          ((files_weigh _).trans hfiles)

/-- A stretch that looks at the level, and at most starts investors before. -/
theorem Weighed.news (numbers : List Nat) {climb : Climb} {stand : Stand}
    (h : Weighed scene c r r.census climb t.census stand)
    (hfiles : t.files = (r.pipeline.taken, r.sessions.toList, r.starts.toList ++ numbers))
    (htracker : t.tracker = r.tracker) :
    r.news t = numbers.map (fun i => .started i r.investors[i]?) ++ r.rung climb.score := by
  obtain ⟨hcards, hdeposits, hentries⟩ := h.kept
  rw [news_eq [] [] [] [] [] numbers
    (by simpa using hfiles) (by simp [hcards]) (by simp [hdeposits]) (by simp [hentries]) htracker, h.rung rfl]
  simp

theorem startFirst_files (r : Run) :
    ∃ numbers, r.startFirst.1.files = (r.pipeline.taken, r.sessions.toList, r.starts.toList ++ numbers) := by
  unfold startFirst
  cases r.registry.firstNotStarted? r.life with
  | none => exact ⟨[], by simp [files]⟩
  | some i =>
    rw [Option.elim_some]
    unfold startInvestor
    split
    · exact ⟨[], by simp [files]⟩
    · exact ⟨[i], by simp [files, withInvestor]⟩

theorem collectAll_files (scene : Scene) (r : Run) : (r.collectAll scene).1.files = r.files := by
  have hfold (members : List Nat) (tasks : List Task) :
      (members.foldl (collectFrom scene) (r, tasks)).1.files = r.files := by
    induction members generalizing r tasks with
    | nil => rfl
    | cons i rest ih =>
      refine (ih (collectFrom scene (r, tasks) i).1 _).trans ?_
      unfold collectFrom
      split
      · rfl
      · split <;> rfl
  exact hfold _ []

theorem beginTick_entry {made : Option Fault} (hx : r.controls[c]? = some x) (hstand : x.stand = .queued)
    (hcommand : x.command = .tick) (ht : t = r.beginTick scene c)
    (hmove : CallMove scene c r x (.proceed c made) t) :
    ∃ y, t.controls[c]? = some y ∧ y.command = x.command ∧
      Entry scene c r x y t (r.page (.proceed c made) t) := by
  obtain ⟨hcensus₁, hprice₁, -⟩ := r.startFirst_keeps
  obtain ⟨hcensus₂, hprice₂, -⟩ := collectAll_keeps scene r.startFirst.1
  obtain ⟨numbers, hfiles⟩ := r.startFirst_files
  have htracker : (r.startFirst.1.collectAll scene).1.tracker = r.tracker :=
    congrArg Surroundings.tracker ((Stretch.refl scene c r).startFirst.collectAll).surroundings
  obtain ⟨tasks, htasks⟩ : ∃ tasks, tasks = r.startFirst.2 ++ (r.startFirst.1.collectAll scene).2 := ⟨_, rfl⟩
  obtain ⟨u, hu⟩ : ∃ u, u = { (r.startFirst.1.collectAll scene).1 with
      controls := (r.startFirst.1.collectAll scene).1.controls.modify c fun z => { z with
        outset := some ⟨r.tracker.score, tasks⟩ } } := ⟨_, rfl⟩
  have heq : r.beginTick scene c = u.weigh scene c ⟨r.tracker.score, 0, tasks⟩ := by
    rw [hu, htasks, ← htracker]
    rfl
  have hcensus : u.census = r.census := by
    rw [hu]
    exact hcensus₂.trans hcensus₁
  have hsame : (u.tracker, u.level, u.marketPrice) = (r.tracker, r.level, r.marketPrice) := by
    have hlevel : u.level = r.level := congrArg Census.level hcensus
    rw [hlevel, hu]
    exact Prod.ext htracker (Prod.ext rfl (hprice₂.trans hprice₁))
  have hufiles : u.files = r.startFirst.1.files := by
    rw [hu]
    exact collectAll_files scene r.startFirst.1
  have hnoted : Midway c r u { x with outset := some ⟨r.tracker.score, tasks⟩ } := by
    rw [hu]
    exact ((Midway.refl hx).startFirst.collectAll scene).noteControl fun z => { z with
      outset := some ⟨r.tracker.score, tasks⟩ }
  rw [heq] at ht
  subst ht
  obtain ⟨stand, hweighed, hleaves⟩ := hnoted.weigh scene ⟨r.tracker.score, 0, tasks⟩ hsame
  rw [hcensus] at hweighed
  refine hleaves.entry rfl (.tick numbers hstand hcommand (htasks ▸ hweighed)) ?_
  rw [page, hweighed.news numbers ((files_weigh _).trans (hufiles.trans hfiles)) hmove.tracker]
  rfl

/-- A stretch that registers an investor, whatever became of the deposit, and starts it if it is there. -/
theorem news_of_registered (numbers : List Nat) {deposit : Nat} {accepted : Bool}
    (hfiles : t.files = (r.pipeline.taken, r.sessions.toList, r.starts.toList ++ numbers))
    (hcensus : t.census = r.census.registered i deposit accepted) (htracker : t.tracker = r.tracker) :
    r.news t = .entered i t.investors[i]? :: numbers.map fun i => .started i r.investors[i]? := by
  have hlevel : t.level = r.level := congrArg Census.level hcensus
  rw [news_eq [] [] [] [] [i] numbers
    (by simpa using hfiles) (by simp [hcensus, Census.registered])
    (by simp [hcensus, Census.registered, added]) (by simp [hcensus, Census.registered]) htracker, if_pos hlevel]
  simp

theorem registered_entry {slot deposit : Nat} {tasks : List Task} {accepted : Bool}
    (hx : r.controls[c]? = some x) (hstand : x.stand = .funding slot i deposit tasks)
    (ht : t = ((r.registered i deposit accepted).startInvestor i).1.toSlot scene c (slot + 1)
      (tasks ++ ((r.registered i deposit accepted).startInvestor i).2))
    (hmove : CallMove scene c r x (.funded c accepted) t) :
    ∃ y, t.controls[c]? = some y ∧ y.command = x.command ∧
      Entry scene c r x y t (r.page (.funded c accepted) t) := by
  have hregistered : Midway c r (r.registered i deposit accepted) x := (Midway.refl hx).of_eq rfl
  have hcensus : (r.registered i deposit accepted).census = r.census.registered i deposit accepted := by
    simp [census, Census.registered, registered, settleDeposit, Registry.add]
  cases hv : r.investors[i]? with
  | none =>
    have hstart : (r.registered i deposit accepted).startInvestor i = (r.registered i deposit accepted, []) := by
      unfold startInvestor
      rw [show (r.registered i deposit accepted).investors[i]? = none from hv]
    rw [hstart, List.append_nil] at ht
    subst ht
    obtain ⟨stand, hslot, hleaves⟩ := hregistered.toSlot scene (slot + 1) tasks
    refine hleaves.entry rfl (.lost slot i deposit tasks accepted hstand hv hslot) ?_
    have hsame : ((r.registered i deposit accepted).toSlot scene c (slot + 1) tasks).investors = r.investors :=
      congrArg Prod.fst (roster_toSlot _ _)
    rw [page, news_of_registered [] ((files_toSlot _ _).trans (by simp [files, registered, settleDeposit]))
      ((census_toSlot _ _).trans hcensus) hmove.tracker, hsame, hv]
    rfl
  | some v =>
    obtain ⟨s, hs⟩ : ∃ s, s =
        { r.registered i deposit accepted with starts := r.starts.push i }.withInvestor i (v.start i).1 := ⟨_, rfl⟩
    have hstart : (r.registered i deposit accepted).startInvestor i = (s, [(v.start i).2]) := by
      unfold startInvestor
      rw [show (r.registered i deposit accepted).investors[i]? = some v from hv, hs]
      rfl
    have hstarted : Midway c r s x := by
      have hmidway := hregistered.startInvestor i
      rwa [hstart] at hmidway
    have hscensus : s.census = r.census.registered i deposit accepted := by
      obtain ⟨hkept, -, -⟩ := (r.registered i deposit accepted).startInvestor_keeps i
      rw [hstart] at hkept
      exact hkept.trans hcensus
    have hfound : s.investors[i]? = some (v.start i).1 := by
      obtain ⟨hi, -⟩ := Array.getElem?_eq_some_iff.mp hv
      simp [hs, withInvestor, registered, settleDeposit, hi]
    rw [hstart] at ht
    subst ht
    obtain ⟨stand, hslot, hleaves⟩ := hstarted.toSlot scene (slot + 1) (tasks ++ [(v.start i).2])
    have htcensus : (s.toSlot scene c (slot + 1) (tasks ++ [(v.start i).2])).census =
        r.census.registered i deposit accepted := (census_toSlot _ _).trans hscensus
    refine hleaves.entry rfl
      (.register slot i deposit tasks accepted v hstand hv hslot (by rw [htcensus]; rfl)) ?_
    have hsame : (s.toSlot scene c (slot + 1) (tasks ++ [(v.start i).2])).investors = s.investors :=
      congrArg Prod.fst (roster_toSlot _ _)
    rw [page, news_of_registered [i]
      ((files_toSlot _ _).trans (by simp [hs, files, withInvestor, registered, settleDeposit]))
      htcensus hmove.tracker, hsame, hfound, List.map_singleton, hv]
    rfl

/-- A call that is given up leaves nothing on record. -/
theorem giveUp_entry (hx : r.controls[c]? = some x) (h : CallMove scene c r x (.giveUp c) t) :
    t.controls[c]? = some { x with stand := .dropped } ∧ r.news t = [] := by
  have htracker := h.tracker
  cases h with
  | giveUp =>
    refine ⟨getElem?_withStand hx, news_of_census_eq [] [] ?_ (census_of_eq rfl) htracker⟩
    cases ticketOf x.stand <;> simp [files, Run.withStand, Pipeline.taken, Pipeline.leave]

/-- What stands on the page of a stretch of a call. -/
theorem CallMove.entry (hx : r.controls[c]? = some x) (h : CallMove scene c r x a t) :
    ∃ y, t.controls[c]? = some y ∧ y.command = x.command ∧ Entry scene c r x y t (r.page a t) := by
  have hmidway := Midway.refl hx
  have hmove := h
  cases h with
  | start made hqueued hcommand =>
    unfold beginStart at hmove ⊢
    cases made with
    | some why =>
      refine hmidway.entryOf [] hmove (by simp [files]) rfl fun y hy => ?_
      exact .uncreated why hqueued hcommand hy
    | none =>
      have hguest (guests : Array Client) (sessions : Array Session) : Midway c r { r with
          guests, sessions, controls := r.controls.modify c fun y => { y with guest := some r.guests.size } }
          { x with guest := some r.guests.size } :=
        (hmidway.noteControl fun y => { y with guest := some r.guests.size }).of_eq rfl
      refine ((hguest _ _).withStand rfl).entry rfl (.welcome _ hqueued hcommand rfl) ?_
      exact news_of_census_eq [] [.guest r.guests.size]
        (by simp [files, Run.withStand]) (census_of_eq rfl) rfl
  | tick _ hqueued hcommand => exact beginTick_entry hx hqueued hcommand rfl hmove
  | boot guest hstand =>
    have hheard : Midway c r { r with
        guests := r.guests.modify guest fun g => g.hear (.boot scene.settings.bootstrap) .done } x :=
      hmidway.of_eq rfl
    obtain ⟨stand, hslot, hleaves⟩ := hheard.toSlot scene 0 []
    refine hleaves.entry rfl (.ready guest hstand hslot) (congrArg (fun marks => Mark.replied .done :: marks)
      (news_of_census_eq [] [] ?_ ?_ hmove.tracker))
    · exact (files_toSlot 0 []).trans (by simp [files])
    · exact (census_toSlot 0 []).trans (census_of_eq rfl)
  | unready guest why hstand =>
    have hheard : Midway c r { r with
        guests := r.guests.modify guest fun g => g.hear (.boot scene.settings.bootstrap) (.failed why) } x :=
      hmidway.of_eq rfl
    refine hheard.entryOf [] hmove (by simp [files]) (census_of_eq rfl) fun y hy => ?_
    exact .unready guest why hstand hy
  | fund slot ticket tasks pipeline id made hstand htake => exact fund_entry hx hstand htake rfl hmove
  | recruit climb slot ticket pipeline id made hstand htake => exact recruit_entry hx hstand htake rfl hmove
  | refuse ticket pipeline made hstand htake =>
    have hrefused : Midway c r { r with pipeline } x := hmidway.of_eq rfl
    refine hrefused.entryOf [] hmove ?_ (census_of_eq rfl) fun y hy => ?_
    · simp [files, Pipeline.taken_of_refused htake]
    · exact .unprovided ticket [] _ hstand (Nat.zero_le _) hy
  | register slot i deposit tasks accepted hstand => exact registered_entry hx hstand rfl hmove
  | weigh climb hstand =>
    obtain ⟨stand, hweighed, hleaves⟩ := hmidway.weigh scene climb rfl
    refine hleaves.entry rfl (.weigh climb hstand hweighed) ?_
    rw [page, hweighed.news [] ((files_weigh climb).trans (by simp [files])) hmove.tracker]
    rfl
  | giveUp =>
    obtain ⟨hy, hnews⟩ := giveUp_entry hx hmove
    refine ⟨_, hy, rfl, ?_⟩
    rw [page, hnews]
    exact .drop rfl

/-- What stands on the page of a step that is a stretch of a call. -/
theorem step_entry (h : r.step scene a = some t) (ha : r.callOf a = some c) :
    ∃ x y, r.controls[c]? = some x ∧ t.controls[c]? = some y ∧ y.command = x.command ∧
      Entry scene c r x y t (r.page a t) := by
  obtain ⟨x, hx, hmove | ⟨cause, s, rfl, hmove, rfl⟩⟩ := step_callMove_of_callOf h ha
  · obtain ⟨y, hy, hcommand, hentry⟩ := hmove.entry hx
    exact ⟨x, y, hx, hy, hcommand, hentry⟩
  · obtain ⟨hy, hnews⟩ := giveUp_entry hx hmove
    have hpage : r.page (.leave cause) { s with loop := .ended cause.outcome r.now } = [] := hnews
    refine ⟨x, _, hx, hy, rfl, ?_⟩
    rw [hpage]
    exact .drop rfl

theorem step_lock (h : r.step scene a = some t) (ha : r.callOf a = some c) (hr : r.Lock) : t.Lock := by
  obtain ⟨x, hx, hmove | ⟨cause, s, rfl, hmove, rfl⟩⟩ := step_callMove_of_callOf h ha
  · obtain ⟨y, hturn⟩ := hmove.turn hx
    exact hturn.lock hx hr
  · obtain ⟨y, hturn⟩ := hmove.turn hx
    exact (hturn.withLoop _).lock hx hr

/-- What every stretch of a call keeps, and everything that happens elsewhere, holds of its whole journal. -/
theorem Logs.along {pages : List (List Mark)} (Holds : List (List Mark) → Run → Control → Prop)
    (h : Logs scene c r pages t) (hx : r.controls[c]? = some x) (hr : Holds [] r x)
    (hown : ∀ pages s x t y marks, Holds pages s x → y.command = x.command → (s.Lock → t.Lock) →
      Entry scene c s x y t marks → Holds (pages ++ [marks]) t y)
    (hother : ∀ pages s x t, s.controls[c]? = some x → Holds pages s x → Elsewhere scene c s t →
      Holds pages t x) : ∃ y, t.controls[c]? = some y ∧ Holds pages t y := by
  induction h with
  | refl => exact ⟨x, hx, hr⟩
  | own a _ ha hstep ih =>
    obtain ⟨y, hy, hholds⟩ := ih
    obtain ⟨x, z, hx', hz, hcommand, hentry⟩ := step_entry hstep ha
    obtain rfl := Option.some.inj (hy.symm.trans hx')
    exact ⟨z, hz, hown _ _ _ _ _ _ hholds hcommand (step_lock hstep ha) hentry⟩
  | other a _ ha hstep ih =>
    obtain ⟨y, hy, hholds⟩ := ih
    have helsewhere := step_elsewhere hstep ha
    exact ⟨y, helsewhere.control hy, hother _ _ _ _ hy hholds helsewhere⟩
  | pass ms _ ih =>
    obtain ⟨y, hy, hholds⟩ := ih
    exact ⟨y, hy, hother _ _ _ _ hy hholds (pass_elsewhere _ ms)⟩

end Run

end ExchangeLoad
