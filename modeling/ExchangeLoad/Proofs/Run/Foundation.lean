import ExchangeLoad.Proofs.Batch
import ExchangeLoad.Proofs.Run.Page

/-!
The founding batch, as the journal of a start tells it. A start makes the exchange ready and then fills one
slot after the other: it takes an identity, creates a client, builds the investor, deposits its credit,
registers it and starts it. Whatever stops it, the slots before are filled for good, and nothing was done
for those after.
-/

namespace ExchangeLoad

/-- A slot of a founding batch that was filled. -/
structure Chapter where
  id : Identity
  params : Params
  number : Nat
  /-- Whether the deposit succeeded. -/
  accepted : Bool
  /-- The investor as it was found when it was started. -/
  investor : Investor

namespace Chapter

/-- What is noted while a slot is filled. -/
def marks (ch : Chapter) : List Mark :=
  enlisting ch.number ch.id ch.params ++ [.deposited ch.id ch.params.credit, .decided ch.accepted,
    .entered ch.number (some (ch.investor.start ch.number).1), .started ch.number (some ch.investor)]

/-- What the investor of a slot has to do. -/
def task (ch : Chapter) : Task := (ch.investor.start ch.number).2

end Chapter

/-- The first slots of a founding batch were filled, in order. -/
structure Filled (chapters : List Chapter) : Prop where
  batch : ∀ slot ch, chapters[slot]? = some ch → Batch.Founder slot ch.params
  cards : ∀ ch ∈ chapters, ch.investor.card = (ch.id, ch.params)
  /-- Unless somebody retired its client meanwhile, an investor is started now. -/
  started : ∀ ch ∈ chapters, ch.investor.client.retired = false →
    (ch.investor.start ch.number).1.life = .started
  numbers : (chapters.map Chapter.number).Pairwise (· < ·)

/-- What is noted when a guest has made the exchange ready. -/
def opening (guest : Nat) : List Mark := [.created (.guest guest), .replied .done]

/-- What a start that is over left on record, and what it came to. -/
inductive Foundation (workers : Nat) : List Mark → Except RunError (List Task) → Prop where
  | uncreated (why : String) : Foundation workers [] (.error (.bootstrap why))
  | unready (guest : Nat) (why : Fault) :
      Foundation workers [.created (.guest guest), .replied (.failed why)] (.error (.bootstrap why.chain))
  /-- There was no identity for a slot, or no client. -/
  | unprovided (guest : Nat) (chapters : List Chapter) (ids : List Identity) (why : String)
      (hfilled : Filled chapters) (hfew : chapters.length < workers) (hids : ids.length ≤ 1) :
      Foundation workers (opening guest ++ chapters.flatMap Chapter.marks ++ ids.map .took)
        (.error (.provisioning why))
  | complete (guest : Nat) (chapters : List Chapter) (hfilled : Filled chapters)
      (hall : chapters.length = workers) :
      Foundation workers (opening guest ++ chapters.flatMap Chapter.marks) (.ok (chapters.map Chapter.task))

theorem Investor.start_life {v : Investor} {number : Nat} (h : v.client.retired = false) :
    (v.start number).1.life = .started := by
  unfold start life
  cases v.manner <;> simp [h]

variable {workers : Nat} {chapters : List Chapter} {ch : Chapter} {marks : List Mark}

theorem filled_nil : Filled [] := ⟨by simp, by simp, by simp, List.Pairwise.nil⟩

theorem Filled.next (h : Filled chapters) (hparams : ch.params = Batch.founding chapters.length)
    (hcard : ch.investor.card = (ch.id, ch.params)) (hnumber : ∀ other ∈ chapters, other.number < ch.number) :
    Filled (chapters ++ [ch]) := by
  refine ⟨?_, ?_, ?_, ?_⟩
  · intro slot other hother
    rw [List.getElem?_append] at hother
    split at hother
    · exact h.batch slot other hother
    · next hpast =>
      rw [List.getElem?_singleton] at hother
      split at hother
      · next hslot =>
        obtain rfl := Option.some.inj hother
        obtain rfl : slot = chapters.length := by omega
        rw [hparams]
        exact Batch.founding_founder _
      · cases hother
  · rw [List.forall_mem_append, List.forall_mem_singleton]
    exact ⟨h.cards, hcard⟩
  · exact fun _ _ hactive => Investor.start_life hactive
  · rw [List.map_append, List.pairwise_append]
    refine ⟨h.numbers, List.pairwise_singleton .., ?_⟩
    intro a ha b hb
    obtain ⟨other, hother, rfl⟩ := List.mem_map.mp ha
    obtain rfl := List.mem_singleton.mp hb
    exact hnumber other hother

theorem recruits_marks (chapters : List Chapter) :
    (chapters.flatMap Chapter.marks).filterMap Mark.recruit? = chapters.map fun ch => (ch.params, ch.number) := by
  induction chapters with
  | nil => rfl
  | cons ch rest ih =>
    rw [List.flatMap_cons, List.filterMap_append, ih, List.map_cons]
    rfl

/-- A start succeeds just where there is a guest, it makes the exchange ready, and there is somebody for
    every slot. -/
theorem Foundation.ok_iff {result : Except RunError (List Task)} (h : Foundation workers marks result) :
    (∃ tasks, result = .ok tasks) ↔ (∃ guest, .created (.guest guest) ∈ marks) ∧ .replied .done ∈ marks ∧
      (marks.filterMap Mark.recruit?).length = workers := by
  have hopening (guest : Nat) : (opening guest).filterMap Mark.recruit? = [] := rfl
  cases h with
  | uncreated => simp
  | unready => simp
  | unprovided guest chapters ids why _ hfew =>
    have hids : (ids.map Mark.took).filterMap Mark.recruit? = [] := by
      simp [List.filterMap_map, Function.comp_def, Mark.recruit?]
    have hcount : ((opening guest ++ chapters.flatMap Chapter.marks ++ ids.map Mark.took).filterMap
        Mark.recruit?).length = chapters.length := by
      rw [List.filterMap_append, List.filterMap_append, hopening, hids, recruits_marks]
      simp
    refine ⟨fun ⟨tasks, htasks⟩ => (by cases htasks), fun ⟨_, _, hall⟩ => ?_⟩
    exact absurd (hcount.symm.trans hall) (Nat.ne_of_lt hfew)
  | complete guest chapters _ hall =>
    have hcount : ((opening guest ++ chapters.flatMap Chapter.marks).filterMap Mark.recruit?).length = workers := by
      simp [hopening, recruits_marks, hall]
    refine ⟨fun _ => ⟨⟨guest, ?_⟩, ?_, hcount⟩, fun _ => ⟨_, rfl⟩⟩
    · simp [opening]
    · simp [opening]

namespace Run

/-- How far a start has come that left the marks given. -/
inductive Founded (workers : Nat) (r : Run) : List Mark → Stand → Prop where
  | queued : Founded workers r [] .queued
  | booting (guest : Nat) : Founded workers r [.created (.guest guest)] (.booting guest)
  | founding (guest ticket : Nat) (chapters : List Chapter) (hfilled : Filled chapters)
      (hfew : chapters.length < workers) (hnumbers : ∀ ch ∈ chapters, ch.number < r.investors.size) :
      Founded workers r (opening guest ++ chapters.flatMap Chapter.marks)
        (.founding chapters.length ticket (chapters.map Chapter.task))
  | funding (guest number deposit : Nat) (id : Identity) (chapters : List Chapter) (hfilled : Filled chapters)
      (hfew : chapters.length < workers) (hnumbers : ∀ ch ∈ chapters, ch.number < number)
      (hcard : r.census.cards[number]? = some (id, Batch.founding chapters.length)) :
      Founded workers r (opening guest ++ chapters.flatMap Chapter.marks ++
          (enlisting number id (Batch.founding chapters.length) ++
            [.deposited id (Batch.founding chapters.length).credit]))
        (.funding chapters.length number deposit (chapters.map Chapter.task))
  | ended (marks : List Mark) (result : Except RunError (List Task)) (h : Foundation workers marks result) :
      Founded workers r marks (.ended result)
  | dropped (marks : List Mark) : Founded workers r marks .dropped

variable {scene : Scene} {c : Nat} {r s t : Run} {x y : Control} {stand : Stand} {page : List Mark}
  {pages : List (List Mark)}

/-- A start comes to a slot with all slots before it filled. -/
theorem ToSlot.founded (h : ToSlot scene chapters.length (chapters.map Chapter.task) stand) (guest : Nat)
    (hfilled : Filled chapters) (hle : chapters.length ≤ scene.settings.workers)
    (hnumbers : ∀ ch ∈ chapters, ch.number < r.investors.size) :
    Founded scene.settings.workers r (opening guest ++ chapters.flatMap Chapter.marks) stand := by
  cases h with
  | more ticket hmore hstand =>
    rw [hstand]
    exact .founding guest ticket chapters hfilled hmore hnumbers
  | done hdone hstand =>
    rw [hstand]
    exact .ended _ _ (.complete guest chapters hfilled (Nat.le_antisymm hle hdone))

theorem Elsewhere.size_le (h : Elsewhere scene c r t) : r.investors.size ≤ t.investors.size := by
  have hlength := h.cards.length_le
  rwa [length_cards, length_cards] at hlength

theorem Founded.elsewhere (h : Founded workers r marks stand) (helsewhere : Elsewhere scene c r t) :
    Founded workers t marks stand := by
  have hsize := helsewhere.size_le
  cases h with
  | queued => exact .queued
  | booting guest => exact .booting guest
  | founding guest ticket chapters hfilled hfew hnumbers =>
    exact .founding guest ticket chapters hfilled hfew fun ch hch => Nat.lt_of_lt_of_le (hnumbers ch hch) hsize
  | funding guest number deposit id chapters hfilled hfew hnumbers hcard =>
    refine .funding guest number deposit id chapters hfilled hfew hnumbers ?_
    obtain ⟨rest, hrest⟩ := helsewhere.cards
    obtain ⟨hlt, -⟩ := List.getElem?_eq_some_iff.mp hcard
    rw [← hrest, List.getElem?_append_left hlt, hcard]
  | ended marks result h => exact .ended marks result h
  | dropped marks => exact .dropped marks

theorem Founded.own (h : Founded scene.settings.workers r marks x.stand) (hstart : x.command = .start)
    (hentry : Entry scene c r x y t page) : Founded scene.settings.workers t (marks ++ page) y.stand := by
  cases hentry with
  | uncreated why hbefore _ hstand =>
    rw [hbefore] at h
    cases h
    rw [hstand]
    exact .ended _ _ (.uncreated _)
  | welcome guest hbefore _ hstand =>
    rw [hbefore] at h
    cases h
    rw [hstand]
    exact .booting guest
  | unready guest why hbefore hstand =>
    rw [hbefore] at h
    cases h
    rw [hstand]
    exact .ended _ _ (.unready guest why)
  | ready guest hbefore hslot =>
    rw [hbefore] at h
    cases h
    have hfirst : ToSlot scene ([] : List Chapter).length ([].map Chapter.task) y.stand := hslot
    exact hfirst.founded _ filled_nil (Nat.zero_le _) (by simp)
  | unprovided ticket ids why hbefore hids hstand =>
    rw [hstand]
    cases hx : x.stand with
    | founding slot _ tasks =>
      rw [hx] at h
      cases h with
      | founding guest _ chapters hfilled hfew =>
        exact .ended _ _ (.unprovided guest chapters ids why hfilled hfew hids)
    | raising climb slot _ => rw [hx] at h; cases h
    | _ => rw [hx] at hbefore; cases hbefore
  | found slot ticket deposit tasks id hbefore hstand hcards =>
    rw [hbefore] at h
    cases h with
    | founding guest ticket chapters hfilled hfew hnumbers =>
      rw [hstand]
      refine .funding guest _ deposit id chapters hfilled hfew hnumbers ?_
      rw [hcards, ← length_cards, List.getElem?_concat_length]
  | register slot i deposit tasks accepted v hbefore hv hslot hcards =>
    rw [hbefore] at h
    cases h with
    | funding guest _ _ id chapters hfilled hfew hnumbers hcard =>
      rw [getElem?_cards hv] at hcard
      obtain ⟨hi, -⟩ := Array.getElem?_eq_some_iff.mp hv
      obtain ⟨ch, hch⟩ : ∃ ch : Chapter, ch = ⟨id, Batch.founding chapters.length, i, accepted, v⟩ := ⟨_, rfl⟩
      have hnext : Filled (chapters ++ [ch]) := by
        refine hfilled.next ?_ ?_ ?_ <;> rw [hch]
        · exact Option.some.inj hcard
        · exact hnumbers
      have hslot' : ToSlot scene (chapters ++ [ch]).length ((chapters ++ [ch]).map Chapter.task) y.stand := by
        rw [List.length_append, List.map_append, hch]
        exact hslot
      have hnumbers' : ∀ other ∈ chapters ++ [ch], other.number < t.investors.size := by
        rw [← length_cards, hcards, length_cards, List.forall_mem_append, List.forall_mem_singleton, hch]
        exact ⟨fun other hother => Nat.lt_trans (hnumbers other hother) hi, hi⟩
      have hfounded := hslot'.founded guest hnext (by simpa using Nat.succ_le_of_lt hfew) hnumbers'
      have hmarks : opening guest ++ (chapters ++ [ch]).flatMap Chapter.marks =
          opening guest ++ chapters.flatMap Chapter.marks ++
            (enlisting i id (Batch.founding chapters.length) ++
              [.deposited id (Batch.founding chapters.length).credit]) ++
            [.decided accepted, .entered i (some (v.start i).1), .started i (some v)] := by
        simp [Chapter.marks, hch]
      rwa [hmarks] at hfounded
  | lost slot i deposit tasks accepted hbefore hnone hslot =>
    rw [hbefore] at h
    cases h with
    | funding _ _ _ _ _ _ _ _ hcard =>
      rw [Array.getElem?_eq_none_iff, ← length_cards] at hnone
      rw [List.getElem?_eq_none hnone] at hcard
      cases hcard
  | tick _ _ hcommand => rw [hstart] at hcommand; cases hcommand
  | recruit _ _ _ _ _ hbefore | complete _ _ _ _ hbefore | weigh _ hbefore =>
    rw [hbefore] at h
    cases h
  | drop hstand =>
    rw [hstand]
    exact .dropped _

theorem Founded.of_ended {result : Except RunError (List Task)} (h : Founded workers r marks (.ended result)) :
    Foundation workers marks result := by
  cases h with
  | ended _ _ h => exact h

/-- A start leaves the level and the counters alone. -/
theorem Founded.steady (h : Founded workers r marks x.stand) (hstart : x.command = .start)
    (hentry : Entry scene c r x y t page) : ∀ m ∈ page, m.scores = false := by
  cases hentry with
  | tick _ _ hcommand => rw [hstart] at hcommand; cases hcommand
  | recruit _ _ _ _ _ hbefore | complete _ _ _ _ hbefore | weigh _ hbefore =>
    rw [hbefore] at h
    cases h
  | _ => simp [enlisting, Mark.scores]

/-- How far a start has come, whatever others do meanwhile. -/
theorem Logs.founded (h : Logs scene c r pages t) (hx : r.controls[c]? = some x) (hqueued : x.stand = .queued)
    (hstart : x.command = .start) : ∃ y, t.controls[c]? = some y ∧
      Founded scene.settings.workers t pages.flatten y.stand ∧ ∀ m ∈ pages.flatten, m.scores = false := by
  have hfounded := h.along (fun pages s y => y.command = .start ∧
    Founded scene.settings.workers s pages.flatten y.stand ∧ ∀ m ∈ pages.flatten, m.scores = false) hx ?_ ?_ ?_
  · obtain ⟨y, hy, -, hfounded⟩ := hfounded
    exact ⟨y, hy, hfounded⟩
  · rw [hqueued]
    exact ⟨hstart, .queued, by simp⟩
  · intro pages s x t y page ⟨hstart, hx, hsteady⟩ hcommand _ hentry
    rw [List.flatten_append, List.flatten_singleton, List.forall_mem_append]
    exact ⟨hcommand.trans hstart, hx.own hstart hentry, hsteady, hx.steady hstart hentry⟩
  · intro pages s x t _ ⟨hstart, hx, hsteady⟩ helsewhere
    exact ⟨hstart, hx.elsewhere helsewhere, hsteady⟩

/-- A start that waits for the controller in any run, whatever the bank, the exchange, the producer and
    other activities do until it returns. Its journal is one of those of `Foundation`, with the result that
    belongs to it: with every slot filled it hands out the work of the whole batch, and otherwise it tells
    at which point it stopped. It never writes to the level, the score or the errors, however it ends: each
    of its stretches leaves them as they were. -/
theorem start_fills_slots (h : Logs scene c r pages t) (hx : r.controls[c]? = some x)
    (hqueued : x.stand = .queued) (hstart : x.command = .start) :
    (∃ y, t.controls[c]? = some y ∧ ∀ result, y.stand = .ended result →
      Foundation scene.settings.workers pages.flatten result ∧
      ((∃ tasks, result = .ok tasks) ↔ (∃ guest, .created (.guest guest) ∈ pages.flatten) ∧
        .replied .done ∈ pages.flatten ∧
        (pages.flatten.filterMap Mark.recruit?).length = scene.settings.workers)) ∧
    (∀ m ∈ pages.flatten, m.scores = false) ∧
    ∀ pages s a u, Logs scene c r pages s → s.callOf a = some c → s.step scene a = some u →
      u.level = s.level ∧ u.tracker = s.tracker := by
  obtain ⟨y, hy, hfounded, hsteady⟩ := h.founded hx hqueued hstart
  refine ⟨⟨y, hy, fun result hended => ?_⟩, hsteady, fun pages s a u hlogs ha hstep => ?_⟩
  · rw [hended] at hfounded
    exact ⟨hfounded.of_ended, hfounded.of_ended.ok_iff⟩
  · obtain ⟨-, -, -, hpages⟩ := (hlogs.own a ha hstep).founded hx hqueued hstart
    exact kept_of_scores fun m hm => hpages m (mem_pages_of_news hm)

/-- The deposit for the first slot fails, which is no harm. Without a client for the second slot the start
    fails, and otherwise it hands out the work of both. -/
theorem start_fills_first_slot :
    let scene := Scene.plain 2 0
    let r := (fresh 0 10 4 0).enter .start false
    let founding : List Step := [.produce, .decide true, .decide true, .proceed 0 none, .booted 0 .done,
      .provide 0 none, .funded 0 false]
    let failing := founding ++ [.provide 0 (some (.plain "full"))]
    let whole := founding ++ [.provide 0 none, .funded 0 true]
    let tasks : List Task := [.exec "sign-in" 0 (.signIn 0), .exec "sign-in" 0 (.signIn 1)]
    (∃ t y, r.play scene failing = some t ∧ t.registry.entries = [0] ∧ t.controls[0]? = some y ∧
      y.stand = .ended (.error (.provisioning "full")) ∧
      Foundation 2 (r.along scene (pagesOf 0) failing).flatten (.error (.provisioning "full"))) ∧
    ∃ t y, r.play scene whole = some t ∧ t.registry.entries = [0, 1] ∧ t.controls[0]? = some y ∧
      y.stand = .ended (.ok tasks) ∧ Foundation 2 (r.along scene (pagesOf 0) whole).flatten (.ok tasks) := by
  intro scene r founding failing whole tasks
  have hreturns (steps : List Step) (entries : List Nat) (result : Except RunError (List Task))
      (hplayed : ((r.play scene steps).map fun t => (t.registry.entries, t.resultOf 0)) =
        some (entries, some result)) :
      ∃ t y, r.play scene steps = some t ∧ t.registry.entries = entries ∧ t.controls[0]? = some y ∧
        y.stand = .ended result ∧ Foundation 2 (r.along scene (pagesOf 0) steps).flatten result := by
    obtain ⟨t, ht, hvalues⟩ := Option.map_eq_some_iff.mp hplayed
    obtain ⟨hentries, hresult⟩ := Prod.mk.inj hvalues
    have hx : r.controls[0]? = some ⟨.start, false, none, none, .queued⟩ := rfl
    obtain ⟨⟨y, hy, hfounded⟩, -⟩ := start_fills_slots (logs_of_play ht) hx rfl rfl
    obtain ⟨z, hz, hended⟩ := getElem?_of_resultOf hresult
    obtain rfl := Option.some.inj (hy.symm.trans hz)
    exact ⟨t, y, ht, hentries, hy, hended, (hfounded _ hended).1⟩
  exact ⟨hreturns failing _ _ (by decide +kernel), hreturns whole _ _ (by decide +kernel)⟩

end Run

end ExchangeLoad
