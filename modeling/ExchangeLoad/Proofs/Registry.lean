import ExchangeLoad.Registry
import Mathlib.Algebra.GroupWithZero.Nat
import Mathlib.Data.List.Basic
import Mathlib.Data.List.Induction
import Mathlib.Logic.Function.Basic

/-!
The registry as the history of what was done to it. Investors are added, perhaps the same one several times
or several with one identity; identities are removed; and the lives of investors change meanwhile, whether
they are in the registry or not. What the registry holds is then read off the history alone: an entry for
each addition that no removal of its identity came after.
-/

namespace ExchangeLoad.Registry

variable {α : Type}

/-- The answer is the earliest entry with a property, and there is none where there is no answer. -/
inductive Earliest (has : α → Prop) (entries : List α) : Option α → Prop where
  | found {a : α} (before after : List α) (hentries : entries = before ++ a :: after) (ha : has a)
      (hbefore : ∀ b ∈ before, ¬has b) : Earliest has entries (some a)
  | missing (hentries : ∀ a ∈ entries, ¬has a) : Earliest has entries none

theorem earliest_find? (has : α → Prop) [DecidablePred has] (entries : List α) :
    Earliest has entries (entries.find? (has ·)) := by
  cases hfound : entries.find? (has ·) with
  | none => exact .missing (by simpa using hfound)
  | some a =>
    obtain ⟨ha, before, after, hentries, hbefore⟩ := List.find?_eq_some_iff_append.mp hfound
    exact .found before after hentries (by simpa using ha) (by simpa using hbefore)

theorem earliest_head? (entries : List α) : Earliest (fun _ => True) entries entries.head? := by
  cases entries with
  | nil => exact .missing (by simp)
  | cons a after => exact .found [] after rfl trivial (by simp)

theorem length_filter_ne_add {β : Type} [DecidableEq β] (f : α → β) (b : β) (entries : List α) :
    (entries.filter (f · != b)).length + entries.countP (f · = b) = entries.length := by
  have hsplit := entries.length_eq_length_filter_add (f · == b)
  rw [List.countP_eq_length_filter]
  exact (Nat.add_comm ..).trans hsplit.symm

theorem count_remove (r : Registry α) (identity : α → Identity) (id : Identity) :
    (r.remove identity id).1.count + r.entries.countP (identity · = id) = r.count :=
  length_filter_ne_add identity id r.entries

/-- What a removal answers is the number of entries that it takes out. -/
theorem remove_snd (r : Registry α) (identity : α → Identity) (id : Identity) :
    (r.remove identity id).2 = r.entries.countP (identity · = id) := by
  have hcount := count_remove r identity id
  have hanswer : (r.remove identity id).2 = r.count - (r.remove identity id).1.count := rfl
  omega

theorem activeCount_add (r : Registry α) (life : α → Lifecycle) :
    r.activeCount life + r.entries.countP (life · = .retired) = r.count :=
  length_filter_ne_add life .retired r.entries

/-- Something that is done to a registry, or to somebody who may be in it. -/
inductive Event (α : Type) where
  | add (a : α)
  /-- Somebody with the identity is to go, who need not be in the registry. -/
  | remove (id : Identity)
  /-- The life of an investor changes; the registry is not told. -/
  | alter (a : α) (stage : Lifecycle)
deriving DecidableEq, Repr

namespace Event

/-- Somebody is added. -/
def isAdd : Event α → Bool
  | add _ => true
  | _ => false

/-- The stage of life that somebody is given. -/
def stageOf [DecidableEq α] (a : α) : Event α → Option Lifecycle
  | alter b stage => if b = a then some stage else none
  | _ => none

end Event

/-- A registry in use. -/
structure Population (α : Type) where
  registry : Registry α
  /-- The stage of life that an investor is in now. -/
  life : α → Lifecycle
  /-- What the removals answered, in order. -/
  answers : List Nat

variable [DecidableEq α]

/-- What an event makes of a population. -/
def Population.after (identity : α → Identity) (p : Population α) : Event α → Population α
  | .add a => { p with registry := p.registry.add a }
  | .remove id => { p with
      registry := (p.registry.remove identity id).1
      answers := p.answers ++ [(p.registry.remove identity id).2] }
  | .alter a stage => { p with life := Function.update p.life a stage }

/-- The population that a history leads to from an empty registry. -/
def population (identity : α → Identity) (life : α → Lifecycle) (events : List (Event α)) : Population α :=
  events.foldl (Population.after identity) ⟨empty, life, []⟩

/-- Whoever was added with no later removal of the identity, in the order of the additions. -/
def lasting (identity : α → Identity) : List (Event α) → List α
  | [] => []
  | .add a :: later =>
    if .remove (identity a) ∈ later then lasting identity later else a :: lasting identity later
  | .remove _ :: later => lasting identity later
  | .alter _ _ :: later => lasting identity later

/-- The stage of life that somebody was given last, or had at first. -/
def stageAfter (life : α → Lifecycle) (events : List (Event α)) (a : α) : Lifecycle :=
  (events.filterMap (Event.stageOf a)).getLastD (life a)

section Lasting

variable (identity : α → Identity) (events : List (Event α))

/-- What is no removal takes nobody out. -/
theorem lasting_append {e : Event α} (hkeeps : ∀ id, e ≠ .remove id) :
    lasting identity (events ++ [e]) = lasting identity events ++ lasting identity [e] := by
  induction events with
  | nil => rfl
  | cons first later ih =>
    cases first with
    | add a =>
      rw [List.cons_append, lasting, lasting, ih]
      by_cases hremoved : .remove (identity a) ∈ later <;> simp [hremoved, (hkeeps (identity a)).symm]
    | remove id => exact ih
    | alter a stage => exact ih

theorem lasting_append_remove (id : Identity) :
    lasting identity (events ++ [.remove id]) = (lasting identity events).filter (identity · != id) := by
  induction events with
  | nil => simp [lasting]
  | cons first later ih =>
    cases first with
    | add a =>
      rw [List.cons_append, lasting, lasting, ih]
      by_cases hremoved : .remove (identity a) ∈ later
      · simp [hremoved]
      · by_cases hid : identity a = id
        · subst hid
          simp [hremoved]
        · simp [hremoved, hid]
    | remove id' => exact ih
    | alter a stage => exact ih

end Lasting

theorem stageAfter_append (life : α → Lifecycle) (events : List (Event α)) (e : Event α) (a : α) :
    stageAfter life (events ++ [e]) a = (e.stageOf a).getD (stageAfter life events a) := by
  unfold stageAfter
  cases hstage : e.stageOf a <;> simp [List.filterMap_append, hstage]

/-- A population is what the history says. -/
structure Follows (identity : α → Identity) (life : α → Lifecycle) (events : List (Event α))
    (p : Population α) : Prop where
  entries : p.registry.entries = lasting identity events
  life : p.life = stageAfter life events
  balance : p.registry.count + p.answers.sum = events.countP Event.isAdd

variable {identity : α → Identity} {life : α → Lifecycle} {events : List (Event α)} {p : Population α}

theorem Population.after_life (p : Population α) (identity : α → Identity) (e : Event α) (a : α) :
    (p.after identity e).life a = (e.stageOf a).getD (p.life a) := by
  cases e with
  | add => rfl
  | remove => rfl
  | alter b stage =>
    by_cases ha : a = b
    · subst ha
      simp [Population.after, Event.stageOf]
    · simp [Population.after, Event.stageOf, ha, Ne.symm ha]

/-- One more event keeps the population to the history. -/
theorem Follows.after (h : Follows identity life events p) (e : Event α) :
    Follows identity life (events ++ [e]) (p.after identity e) := by
  obtain ⟨hentries, hlife, hbalance⟩ := h
  have hlife' : (p.after identity e).life = stageAfter life (events ++ [e]) := by
    funext a
    rw [p.after_life, stageAfter_append, hlife]
  cases e with
  | add a =>
    refine ⟨?_, hlife', ?_⟩
    · rw [lasting_append identity events (by simp), ← hentries]
      simp [Population.after, Registry.add, lasting]
    · have hcount : (p.registry.add a).count = p.registry.count + 1 := by simp [add, count]
      have hadds : (events ++ [Event.add a]).countP Event.isAdd = events.countP Event.isAdd + 1 := by
        simp [Event.isAdd]
      change (p.registry.add a).count + p.answers.sum = _
      omega
  | remove id =>
    refine ⟨?_, hlife', ?_⟩
    · rw [lasting_append_remove, ← hentries]
      rfl
    · have hcount := count_remove p.registry identity id
      have hanswer := remove_snd p.registry identity id
      have hadds : (events ++ [Event.remove id]).countP Event.isAdd = events.countP Event.isAdd := by
        simp [Event.isAdd]
      change (p.registry.remove identity id).1.count + (p.answers ++ [(p.registry.remove identity id).2]).sum = _
      rw [List.sum_append, List.sum_singleton]
      omega
  | alter a stage =>
    refine ⟨?_, hlife', ?_⟩
    · rw [lasting_append identity events (by simp), ← hentries]
      simp [Population.after, lasting]
    · simpa [Population.after, Event.isAdd] using hbalance

theorem population_append (identity : α → Identity) (life : α → Lifecycle) (events : List (Event α))
    (e : Event α) :
    population identity life (events ++ [e]) = (population identity life events).after identity e :=
  List.foldl_append ..

theorem population_follows (identity : α → Identity) (life : α → Lifecycle) (events : List (Event α)) :
    Follows identity life events (population identity life events) := by
  induction events using List.reverseRecOn with
  | nil => exact ⟨rfl, rfl, rfl⟩
  | append_singleton events e ih =>
    rw [population_append]
    exact ih.after e

/-- After any history the registry holds whoever was added and not removed by identity since, in the order
    of the additions. A removal answers with the number of entries that go, so that the entries and all
    answers together are as many as the additions. Questions are answered from these entries and the lives
    as they are by then: the earliest with an identity, the earliest of all, the earliest that has not
    started, all that are signed in, and how many have not retired. -/
theorem registry_follows_history (identity : α → Identity) (life : α → Lifecycle) (events : List (Event α)) :
    let p := population identity life events
    let entries := lasting identity events
    let stage := stageAfter life events
    p.registry.entries = entries ∧
    p.registry.count + p.answers.sum = events.countP Event.isAdd ∧
    (∀ id, let q := population identity life (events ++ [.remove id])
      let gone := entries.countP (identity · = id)
      q.answers = p.answers ++ [gone] ∧ q.registry.count + gone = p.registry.count) ∧
    (∀ id, Earliest (identity · = id) entries (p.registry.find? identity id)) ∧
    Earliest (fun _ => True) entries p.registry.first? ∧
    Earliest (stage · = .notStarted) entries (p.registry.firstNotStarted? p.life) ∧
    p.registry.signedIn p.life = entries.filter (stage · = .signedIn) ∧
    p.registry.activeCount p.life + entries.countP (stage · = .retired) = p.registry.count := by
  intro p entries stage
  obtain ⟨hentries, hlife, hbalance⟩ := population_follows identity life events
  change p.registry.entries = entries at hentries
  change p.life = stage at hlife
  refine ⟨hentries, hbalance, fun id => ?_, fun id => ?_, ?_, ?_, ?_, ?_⟩
  · have hanswer := remove_snd p.registry identity id
    have hcount := count_remove p.registry identity id
    rw [← hentries]
    simp only [population_append]
    refine ⟨?_, hcount⟩
    rw [← hanswer]
    rfl
  · rw [← hentries]
    exact earliest_find? (identity · = id) p.registry.entries
  · rw [← hentries]
    exact earliest_head? p.registry.entries
  · rw [← hentries, ← hlife]
    exact earliest_find? (p.life · = .notStarted) p.registry.entries
  · rw [← hentries, ← hlife]
    rfl
  · rw [← hentries, ← hlife]
    exact activeCount_add p.registry p.life

end ExchangeLoad.Registry
