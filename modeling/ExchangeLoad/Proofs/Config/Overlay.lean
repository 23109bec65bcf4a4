import ExchangeLoad.Config.Load
import ExchangeLoad.Proofs.FinalScore
import ExchangeLoad.Proofs.Toml.Proper
import ExchangeLoad.Proofs.Tracker
import Mathlib

/-!
A configuration is a document laid over the defaults. Every entry of a configuration has a key in one of the
sections and a kind of value; where a document sets the key, the entry has the value that is set, and the
default everywhere else. What is refused is a value of the wrong kind and a configuration that cannot be run
with, where the bounds that count are those after the laying over. A run with an accepted configuration has
a final score and an error limit between its bounds at every moment.
-/

namespace ExchangeLoad

namespace Toml

variable {v : Toml}

theorem text?_eq_some_iff {s : String} : text? v = some s ↔ v = .str s := by
  cases v <;> simp [text?]

theorem word?_eq_some_iff {n : Int} : word? v = some n ↔ v = .int n := by
  cases v <;> simp [word?]

theorem count?_eq_some_iff {n : Nat} : count? v = some n ↔ v = .int n := by
  cases v with
  | int m =>
    simp only [count?, Toml.int.injEq]
    split <;> simp <;> omega
  | _ => simp [count?]

/-- What is read of a value, or the default without one, is what would be written so. -/
theorem readOr_eq_some_iff {α : Type} {read : Toml → Option α} {write : α → Toml} {value : Option Toml}
    {a default : α} (hread : ∀ v a, read v = some a ↔ v = write a) :
    readOr read value default = some a ↔ value.getD (write default) = write a := by
  cases value with
  | none =>
    have hdefault : read (write default) = some default := (hread _ _).mpr rfl
    rw [Option.getD_none, ← hread, hdefault]
    rfl
  | some v => exact hread v a

end Toml

open Toml

namespace Config

/-- The kinds of values that entries have. -/
inductive Kind where
  | text
  /-- A whole number in the range of a counter. -/
  | word
  /-- A whole number of sixty-four bits without a sign. -/
  | count
deriving DecidableEq, Repr

/-- The values of a kind. -/
def Kind.Admits : Kind → Toml → Prop
  | text, v => ∃ s, v = .str s
  | word, v => ∃ n, v = .int n ∧ Word.Fits n
  | count, v => ∃ n : Nat, v = .int n ∧ n < 2 ^ 64

/-- An entry of configurations: the section and the key that set it, its kind, and what it is in a
    configuration. -/
structure Entry where
  name : String
  key : String
  kind : Kind
  value : Config → Toml

/-- All entries, and so all sections and keys that are known. -/
def entries : List Entry := [
  ⟨"target", "app_endpoint", .text, fun c => .str c.target.app⟩,
  ⟨"target", "bank_endpoint", .text, fun c => .str c.target.bank⟩,
  ⟨"target", "log_endpoint", .text, fun c => .str c.target.log⟩,
  ⟨"target", "internal_bank_endpoint", .text, fun c => .str c.target.internalBank⟩,
  ⟨"limits", "allow_error_min", .word, fun c => .int c.limits.errorMin⟩,
  ⟨"limits", "allow_error_max", .word, fun c => .int c.limits.errorMax⟩,
  ⟨"limits", "add_workers_by_level", .count, fun c => .int c.limits.workers⟩,
  ⟨"timeouts", "client_timeout_ms", .count, fun c => .int c.waits.client⟩,
  ⟨"timeouts", "retire_timeout_ms", .count, fun c => .int c.waits.retire⟩,
  ⟨"timeouts", "init_timeout_ms", .count, fun c => .int c.waits.init⟩,
  ⟨"prefetch", "capacity", .count, fun c => .int c.prefetch.capacity⟩,
  ⟨"prefetch", "retry_delay_ms", .count, fun c => .int c.prefetch.retryDelay⟩,
  ⟨"run", "duration_secs", .count, fun c => .int c.schedule.duration⟩,
  ⟨"run", "tick_interval_ms", .count, fun c => .int c.schedule.tickInterval⟩,
  ⟨"run", "shutdown_grace_ms", .count, fun c => .int c.schedule.shutdownGrace⟩]

/-- A document sets a key in a section, wherever the two stand. -/
def Sets (doc : Members) (name key : String) (v : Toml) : Prop :=
  ∃ origin members, (name, table origin members) ∈ doc ∧ (key, v) ∈ members

/-- The known sections are tables where they are present. -/
def Tabled (doc : Members) : Prop :=
  ∀ e ∈ entries, ∀ v, (e.name, v) ∈ doc → ∃ origin members, v = table origin members

/-- All known keys that are present have values of the right kinds. -/
def RightKinds (doc : Members) : Prop := ∀ e ∈ entries, ∀ v, Sets doc e.name e.key v → e.kind.Admits v

/-- A configuration is a document laid over the defaults. -/
def LaidOver (doc : Members) (c : Config) : Prop :=
  ∀ e ∈ entries, (∀ v, Sets doc e.name e.key v → e.value c = v) ∧
    ((∀ v, ¬ Sets doc e.name e.key v) → e.value c = e.value Config.default)

/-- A configuration that can be run with. -/
structure Runnable (c : Config) : Prop where
  bounds : c.limits.errorMin ≤ c.limits.errorMax
  ceiling : 0 < c.limits.errorMax
  workers : 0 < c.limits.workers
  capacity : 0 < c.prefetch.capacity
  tickInterval : 0 < c.schedule.tickInterval

variable {doc : Members} {name key : String} {v : Toml} {c : Config}

theorem violation?_eq_none_iff : c.violation? = none ↔ Runnable c := by
  constructor
  · intro h
    unfold violation? at h
    repeat (split at h; · cases h)
    constructor <;> omega
  · rintro ⟨hbounds, hceiling, hworkers, hcapacity, htick⟩
    unfold violation?
    rw [if_neg (by omega), if_neg (by omega), if_neg (by omega), if_neg (by omega), if_neg (by omega)]

theorem ofMembers_eq_ok_iff : ofMembers doc = .ok c ↔ ofToml? doc = some c ∧ Runnable c := by
  rw [← violation?_eq_none_iff]
  unfold ofMembers
  constructor
  · intro h
    split at h
    · cases h
    · next c' hread =>
      split at h
      · cases h
      · next hnone =>
        cases h
        exact ⟨hread, hnone⟩
  · rintro ⟨hread, hnone⟩
    rw [hread]
    simp only [hnone]

/-- The value that a key of a section has, if the section is a table. -/
def found (doc : Members) (name key : String) : Option Toml :=
  match doc.lookup name with
  | some (table _ members) => members.lookup key
  | _ => none

theorem found_eq_some_iff (hdoc : ProperTable doc) : found doc name key = some v ↔ Sets doc name key v := by
  unfold found
  constructor
  · intro h
    split at h
    · next origin members hname => exact ⟨origin, members, mem_of_lookup hname, mem_of_lookup h⟩
    · cases h
  · rintro ⟨origin, members, hname, hkey⟩
    have hlookup := hdoc.lookup_eq_some_iff.mpr hname
    rw [hlookup]
    exact (proper_table.mp (hdoc.lookup hlookup)).lookup_eq_some_iff.mpr hkey

theorem section?_eq (keys : List String)
    (hname : ∀ v, (name, v) ∈ doc → ∃ origin members, v = table origin members) : section? doc name keys =
      some (keys.map (found doc name)) := by
  unfold section? found
  cases hlookup : doc.lookup name with
  | none => rfl
  | some v =>
    obtain ⟨origin, members, rfl⟩ := hname v (mem_of_lookup hlookup)
    rfl

section Sections

variable {v₀ v₁ v₂ v₃ : Option Toml}

theorem Target.ofFields?_eq_some_iff {t : Target} : Target.ofFields? [v₀, v₁, v₂, v₃] = some t ↔
    v₀.getD (.str Target.default.app) = .str t.app ∧ v₁.getD (.str Target.default.bank) = .str t.bank ∧
    v₂.getD (.str Target.default.log) = .str t.log ∧
    v₃.getD (.str Target.default.internalBank) = .str t.internalBank := by
  obtain ⟨app, bank, log, internalBank⟩ := t
  simp [Target.ofFields?, Option.bind_eq_some_iff, readOr_eq_some_iff fun _ _ => text?_eq_some_iff]

theorem Limits.ofFields?_eq_some_iff {l : Limits} : Limits.ofFields? [v₀, v₁, v₂] = some l ↔
    v₀.getD (.int Limits.default.errorMin) = .int l.errorMin ∧
    v₁.getD (.int Limits.default.errorMax) = .int l.errorMax ∧
    v₂.getD (.int Limits.default.workers) = .int l.workers := by
  obtain ⟨errorMin, errorMax, workers⟩ := l
  simp [Limits.ofFields?, Option.bind_eq_some_iff, readOr_eq_some_iff fun _ _ => word?_eq_some_iff,
    readOr_eq_some_iff fun _ _ => count?_eq_some_iff]

theorem Waits.ofFields?_eq_some_iff {w : Waits} : Waits.ofFields? [v₀, v₁, v₂] = some w ↔
    v₀.getD (.int Waits.default.client) = .int w.client ∧ v₁.getD (.int Waits.default.retire) = .int w.retire ∧
    v₂.getD (.int Waits.default.init) = .int w.init := by
  obtain ⟨client, retire, init⟩ := w
  simp [Waits.ofFields?, Option.bind_eq_some_iff, readOr_eq_some_iff fun _ _ => count?_eq_some_iff]

theorem Prefetch.ofFields?_eq_some_iff {p : Prefetch} : Prefetch.ofFields? [v₀, v₁] = some p ↔
    v₀.getD (.int Prefetch.default.capacity) = .int p.capacity ∧
    v₁.getD (.int Prefetch.default.retryDelay) = .int p.retryDelay := by
  obtain ⟨capacity, retryDelay⟩ := p
  simp [Prefetch.ofFields?, Option.bind_eq_some_iff, readOr_eq_some_iff fun _ _ => count?_eq_some_iff]

theorem Schedule.ofFields?_eq_some_iff {s : Schedule} : Schedule.ofFields? [v₀, v₁, v₂] = some s ↔
    v₀.getD (.int Schedule.default.duration) = .int s.duration ∧
    v₁.getD (.int Schedule.default.tickInterval) = .int s.tickInterval ∧
    v₂.getD (.int Schedule.default.shutdownGrace) = .int s.shutdownGrace := by
  obtain ⟨duration, tickInterval, shutdownGrace⟩ := s
  simp [Schedule.ofFields?, Option.bind_eq_some_iff, readOr_eq_some_iff fun _ _ => count?_eq_some_iff]

end Sections

/-- The sections are read one by one. -/
theorem ofToml?_eq_some_iff_sections (htabled : Tabled doc) : ofToml? doc = some c ↔
    Target.ofFields? (Target.keys.map (found doc "target")) = some c.target ∧
    Limits.ofFields? (Limits.keys.map (found doc "limits")) = some c.limits ∧
    Waits.ofFields? (Waits.keys.map (found doc "timeouts")) = some c.waits ∧
    Prefetch.ofFields? (Prefetch.keys.map (found doc "prefetch")) = some c.prefetch ∧
    Schedule.ofFields? (Schedule.keys.map (found doc "run")) = some c.schedule := by
  have htables : ∀ e ∈ entries, ∀ keys, section? doc e.name keys = some (keys.map (found doc e.name)) :=
    fun e he keys => section?_eq keys (htabled e he)
  simp only [entries, List.forall_mem_cons] at htables
  obtain ⟨target, limits, waits, prefetch, schedule⟩ := c
  simp only [ofToml?, htables, Option.bind_eq_bind, Option.bind_some, Option.pure_def, Option.bind_eq_some_iff,
    Option.some.injEq, mk.injEq]
  constructor
  · rintro ⟨_, htarget, _, hlimits, _, hwaits, _, hprefetch, _, hschedule, rfl, rfl, rfl, rfl, rfl⟩
    exact ⟨htarget, hlimits, hwaits, hprefetch, hschedule⟩
  · rintro ⟨htarget, hlimits, hwaits, hprefetch, hschedule⟩
    exact ⟨_, htarget, _, hlimits, _, hwaits, _, hprefetch, _, hschedule, rfl, rfl, rfl, rfl, rfl⟩

/-- What is read is what the document has for each entry, and the default where it has nothing. -/
theorem ofToml?_eq_some_iff (htabled : Tabled doc) : ofToml? doc = some c ↔
    ∀ e ∈ entries, (found doc e.name e.key).getD (e.value Config.default) = e.value c := by
  rw [ofToml?_eq_some_iff_sections htabled]
  simp only [Target.keys, Limits.keys, Waits.keys, Prefetch.keys, Schedule.keys, List.map_cons, List.map_nil,
    Target.ofFields?_eq_some_iff, Limits.ofFields?_eq_some_iff, Waits.ofFields?_eq_some_iff,
    Prefetch.ofFields?_eq_some_iff, Schedule.ofFields?_eq_some_iff, entries, List.forall_mem_cons,
    Config.default, and_assoc]
  simp only [List.not_mem_nil, IsEmpty.forall_iff, implies_true, and_true]

theorem laidOver_iff (hdoc : ProperTable doc) : LaidOver doc c ↔
    ∀ e ∈ entries, (found doc e.name e.key).getD (e.value Config.default) = e.value c := by
  refine forall₂_congr fun e _ => ?_
  simp only [← found_eq_some_iff hdoc]
  cases found doc e.name e.key with
  | none => simp [eq_comm]
  | some v => simp [eq_comm]

theorem ofToml?_eq_some_iff_laidOver (hdoc : ProperTable doc) (htabled : Tabled doc) :
    ofToml? doc = some c ↔ LaidOver doc c :=
  (ofToml?_eq_some_iff htabled).trans (laidOver_iff hdoc).symm

/-- Two configurations laid over the defaults by one document are the same. -/
theorem LaidOver.unique {other : Config} (hdoc : ProperTable doc) (htabled : Tabled doc) (h : LaidOver doc c)
    (hother : LaidOver doc other) : other = c := by
  have hc := (ofToml?_eq_some_iff_laidOver hdoc htabled).mpr h
  have ho := (ofToml?_eq_some_iff_laidOver hdoc htabled).mpr hother
  exact Option.some.inj (ho.symm.trans hc)

theorem Sets.proper (hdoc : ProperTable doc) (h : Sets doc name key v) : v.Proper := by
  obtain ⟨origin, members, hname, hkey⟩ := h
  exact (proper_table.mp (hdoc.values _ hname)).values _ hkey

/-- What an entry is in a configuration has the right kind, if it can stand in a document. -/
theorem Entry.admits {e : Entry} (he : e ∈ entries) (hproper : (e.value c).Proper) :
    e.kind.Admits (e.value c) := by
  have hword : ∀ n, (Toml.int n).Proper → Kind.word.Admits (.int n) := fun n hn => ⟨n, rfl, proper_int.mp hn⟩
  have hcount : ∀ n : Nat, (Toml.int n).Proper → Kind.count.Admits (.int n) := by
    intro n hn
    have hfits := (proper_int.mp hn).2
    unfold Word.largest at hfits
    exact ⟨n, rfl, by omega⟩
  fin_cases he <;> first | exact ⟨_, rfl⟩ | exact hword _ hproper | exact hcount _ hproper

theorem proper_default {e : Entry} (he : e ∈ entries) : (e.value Config.default).Proper := by
  fin_cases he <;> first | exact .str _ | exact .int (by decide)

theorem LaidOver.proper {e : Entry} (hdoc : ProperTable doc) (h : LaidOver doc c) (he : e ∈ entries) :
    (e.value c).Proper := by
  by_cases hset : ∃ v, Sets doc e.name e.key v
  · obtain ⟨v, hv⟩ := hset
    rw [(h e he).1 v hv]
    exact hv.proper hdoc
  · rw [(h e he).2 fun v hv => hset ⟨v, hv⟩]
    exact proper_default he

theorem LaidOver.fits_errorMax (hdoc : ProperTable doc) (h : LaidOver doc c) : Word.Fits c.limits.errorMax := by
  have he : ⟨"limits", "allow_error_max", .word, fun c => .int c.limits.errorMax⟩ ∈ entries := by simp [entries]
  exact proper_int.mp (h.proper hdoc he)

theorem LaidOver.rightKinds (hdoc : ProperTable doc) (h : LaidOver doc c) : RightKinds doc := by
  intro e he v hv
  obtain rfl := (h e he).1 v hv
  exact Entry.admits he (hv.proper hdoc)

theorem RightKinds.exists_laidOver (hdoc : ProperTable doc) (h : RightKinds doc) : ∃ c, LaidOver doc c := by
  have hadmits : ∀ e ∈ entries, e.kind.Admits ((found doc e.name e.key).getD (e.value Config.default)) := by
    intro e he
    cases hfound : found doc e.name e.key with
    | none => exact Entry.admits he (proper_default he)
    | some v => exact h e he v ((found_eq_some_iff hdoc).mp hfound)
  simp only [entries, List.forall_mem_cons, Kind.Admits] at hadmits
  obtain ⟨⟨app, happ⟩, ⟨bank, hbank⟩, ⟨log, hlog⟩, ⟨inner, hinner⟩, ⟨errorMin, hmin, -⟩, ⟨errorMax, hmax, -⟩,
    ⟨workers, hworkers, -⟩, ⟨client, hclient, -⟩, ⟨retire, hretire, -⟩, ⟨init, hinit, -⟩,
    ⟨capacity, hcapacity, -⟩, ⟨retryDelay, hdelay, -⟩, ⟨duration, hduration, -⟩, ⟨tickInterval, htick, -⟩,
    ⟨shutdownGrace, hgrace, -⟩, -⟩ := hadmits
  refine ⟨⟨⟨app, bank, log, inner⟩, ⟨errorMin, errorMax, workers⟩, ⟨client, retire, init⟩,
    ⟨capacity, retryDelay⟩, ⟨duration, tickInterval, shutdownGrace⟩⟩, (laidOver_iff hdoc).mpr ?_⟩
  simp only [entries, List.forall_mem_cons]
  exact ⟨happ, hbank, hlog, hinner, hmin, hmax, hworkers, hclient, hretire, hinit, hcapacity, hdelay, hduration,
    htick, hgrace, List.forall_mem_nil _⟩

/-- Documents that set the known keys alike are answered alike, whatever else they hold. -/
theorem ofMembers_congr {other : Members} (hdoc : ProperTable doc) (htabled : Tabled doc)
    (hother : ProperTable other) (htabled' : Tabled other)
    (hsame : ∀ e ∈ entries, ∀ v, Sets other e.name e.key v ↔ Sets doc e.name e.key v) :
    ofMembers other = ofMembers doc := by
  have hread : ofToml? other = ofToml? doc := by
    refine Option.ext fun c => ?_
    rw [ofToml?_eq_some_iff_laidOver hother htabled', ofToml?_eq_some_iff_laidOver hdoc htabled]
    refine forall₂_congr fun e he => ?_
    simp only [hsame e he]
  unfold ofMembers
  rw [hread]

end Config

namespace Tracker

/-- What becomes of a tracker with these bounds: gains and losses of any size and errors, in any order. -/
inductive Reached (floor ceiling : Int) : Tracker → Prop
  | fresh : Reached floor ceiling (fresh floor ceiling)
  | addScore {t : Tracker} (delta : Int) : Reached floor ceiling t → Reached floor ceiling (t.addScore delta)
  | recordError {t : Tracker} : Reached floor ceiling t → Reached floor ceiling t.recordError.1

variable {floor ceiling : Int} {t : Tracker}

theorem Reached.bounds (h : Reached floor ceiling t) : t.floor = floor ∧ t.ceiling = ceiling := by
  induction h with
  | fresh => exact ⟨rfl, rfl⟩
  | addScore delta _ ih => exact ih
  | recordError _ ih => exact ih

/-- Twice a ceiling is not zero, even where the product wraps around. -/
theorem wrap_double_ne_zero (hceiling : 0 < ceiling) (hfits : Word.Fits ceiling) :
    Word.wrap (ceiling * 2) ≠ 0 := by
  unfold Word.Fits Word.largest at hfits
  unfold Word.wrap
  rw [Int.bmod_def]
  split <;> omega

/-- At every moment there is a final score, and the limit is between the bounds. -/
theorem Reached.safe (h : Reached floor ceiling t) (hbounds : floor ≤ ceiling) (hceiling : 0 < ceiling) :
    (∃ total, t.total? = some total) ∧ floor ≤ t.limit ∧ t.limit ≤ ceiling := by
  obtain ⟨rfl, rfl⟩ := h.bounds
  exact ⟨⟨_, finalScore?_eq_some t.score t.errors hceiling⟩, floor_le_errorLimit t.score hbounds,
    errorLimit_le_ceiling t.score hbounds⟩

end Tracker

namespace Config

variable {text : String} {doc : Members}

theorem ofText_eq (hparse : Toml.parse text = some doc) : ofText text = ofMembers doc := by
  unfold ofText
  rw [hparse]

/-- A text holds a document in which the known sections are tables where they are present. There is a
    configuration if and only if all known keys have values of the right kinds and the document laid over the
    defaults can be run with, and that is the configuration; there is just one way of laying it over. Neither
    the order of keys and sections nor what nobody knows makes a difference to the answer. With a
    configuration that is accepted, whatever becomes of the tracker, its final score divides by no zero, even
    if twice the ceiling wraps around, and its limit stays between the bounds. -/
theorem ofText_lays_over (hparse : Toml.parse text = some doc) (htabled : Tabled doc) :
    ((∃ c, ofText text = .ok c) ↔ RightKinds doc ∧ ∃ c, LaidOver doc c ∧ Runnable c) ∧
    (RightKinds doc → ∃! c, LaidOver doc c) ∧
    (∀ c, ofText text = .ok c ↔ LaidOver doc c ∧ Runnable c) ∧
    (∀ text' doc', Toml.parse text' = some doc' → Tabled doc' →
      (∀ e ∈ entries, ∀ v, Sets doc' e.name e.key v ↔ Sets doc e.name e.key v) → ofText text' = ofText text) ∧
    ∀ c, ofText text = .ok c → ∀ t, Tracker.Reached c.limits.errorMin c.limits.errorMax t →
      Word.wrap (t.ceiling * 2) ≠ 0 ∧ (∃ total, t.total? = some total) ∧
      c.limits.errorMin ≤ t.limit ∧ t.limit ≤ c.limits.errorMax := by
  have hdoc := parse_proper hparse
  have haccepted : ∀ c, ofText text = .ok c ↔ LaidOver doc c ∧ Runnable c := by
    intro c
    rw [ofText_eq hparse, ofMembers_eq_ok_iff, ofToml?_eq_some_iff_laidOver hdoc htabled]
  refine ⟨?_, fun hkinds => ?_, haccepted, ?_, ?_⟩
  · simp only [haccepted]
    exact ⟨fun ⟨c, hlaid, hrun⟩ => ⟨hlaid.rightKinds hdoc, c, hlaid, hrun⟩, fun ⟨_, h⟩ => h⟩
  · obtain ⟨c, hlaid⟩ := hkinds.exists_laidOver hdoc
    exact ⟨c, hlaid, fun other hother => hlaid.unique hdoc htabled hother⟩
  · intro text' doc' hparse' htabled' hsame
    rw [ofText_eq hparse, ofText_eq hparse']
    exact ofMembers_congr hdoc htabled (parse_proper hparse') htabled' hsame
  · intro c hc t ht
    obtain ⟨hlaid, hrun⟩ := (haccepted c).mp hc
    refine ⟨?_, ht.safe hrun.bounds hrun.ceiling⟩
    rw [ht.bounds.2]
    exact Tracker.wrap_double_ne_zero hrun.ceiling (hlaid.fits_errorMax hdoc)

/-- A ceiling is said, and a key that nobody knows. After a gain of seven thousand points the limit is above
    the default ceiling. -/
theorem ofText_lays_over_ceiling :
    let text := "[limits]\nretries = 3\nallow_error_max = 400"
    let doc := [("limits", .table .headed [("retries", .int 3), ("allow_error_max", .int 400)])]
    let t := (Tracker.fresh 50 400).addScore 7000
    Toml.parse text = some doc ∧ Tabled doc ∧
    (∃ c, ofText text = .ok c ∧ c.limits = ⟨50, 400, 10⟩ ∧ c.schedule = Schedule.default) ∧
    t.limit = 350 ∧ t.limit ≤ 400 := by
  intro text doc t
  have hparse : Toml.parse text = some doc := by
    unfold text doc
    cbv
  have htabled : Tabled doc := by simp [Tabled, entries, doc]
  obtain ⟨-, -, haccepted, -, hsafe⟩ := ofText_lays_over hparse htabled
  let c : Config := { Config.default with limits := ⟨50, 400, 10⟩ }
  have hread : ofText text = .ok c := by
    refine (haccepted c).mpr ⟨?_, by constructor <;> decide⟩
    simp [LaidOver, entries, Sets, doc, c, Config.default, Limits.default]
  have hreached : Tracker.Reached 50 400 t := .addScore 7000 .fresh
  exact ⟨hparse, htabled, ⟨c, hread, rfl, rfl⟩, by decide, (hsafe c hread t hreached).2.2.2⟩

/-- A floor alone may be out of order with the default ceiling. -/
example : ofText "[limits]\nallow_error_min = 300\n" = .error (.violation (.boundsInverted 300 200)) := by
  decide +kernel

end Config

end ExchangeLoad
