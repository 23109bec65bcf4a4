import ExchangeLoad.Run.Step

/-!
Histories of a run. `Becomes` is more generous than `Reaches`: its steps may be restricted to some
kind, and time may pass while something could go on, as it does where activities are slow to be
looked at. What is proved of it holds whatever the clock does.
-/

namespace ExchangeLoad

/-- A scene in which every investor is a trader and nothing drawn at random matters. -/
def Scene.plain (workers duration : Nat) : Scene where
  settings := { (default : Settings) with workers }
  retryDelay := 1000
  schedule := ⟨duration, 1000, 0⟩
  identity n := ⟨String.ofList (List.replicate n 'i')⟩
  displayName _ := ""
  secret _ := ""
  draw _ := ⟨0, 2⟩
  manner _ params := .newTrader params

namespace Run

/-- The runs that a run can become by steps of a kind, in any order, while time passes at will. -/
inductive Becomes (scene : Scene) (kind : Step → Prop) : Run → Run → Prop where
  | refl (r : Run) : Becomes scene kind r r
  | step {r s t : Run} (a : Step) : Becomes scene kind r s → kind a → s.step scene a = some t →
      Becomes scene kind r t
  | pass {r s : Run} (ms : Nat) : Becomes scene kind r s →
      Becomes scene kind r { s with now := s.now + ms }

variable {scene : Scene} {kind : Step → Prop} {r s t : Run}

/-- What every step and the passing of time keep, a history keeps. -/
theorem Becomes.preserves {Holds : Run → Prop}
    (hstep : ∀ s a t, kind a → Holds s → s.step scene a = some t → Holds t)
    (hpass : ∀ s ms, Holds s → Holds { s with now := s.now + ms })
    (h : Becomes scene kind r t) (hr : Holds r) : Holds t := by
  induction h with
  | refl => exact hr
  | step a _ ha hs ih => exact hstep _ a _ ha ih hs
  | pass ms _ ih => exact hpass _ ms ih

theorem Becomes.trans (h : Becomes scene kind r s) (h' : Becomes scene kind s t) :
    Becomes scene kind r t := by
  induction h' with
  | refl => exact h
  | step a _ ha hs ih => exact .step a ih ha hs
  | pass ms _ ih => exact .pass ms ih

/-- Steps of a kind are steps. -/
theorem Becomes.wide (h : Becomes scene kind r t) : Becomes scene (fun _ => True) r t := by
  induction h with
  | refl => exact .refl _
  | step a _ _ hs ih => exact .step a ih trivial hs
  | pass ms _ ih => exact .pass ms ih

theorem Reaches.becomes (h : Reaches scene r t) : Becomes scene (fun _ => True) r t := by
  induction h with
  | refl => exact .refl _
  | step a _ hs ih => exact .step a ih trivial hs

theorem Reaches.trans (h : Reaches scene r s) (h' : Reaches scene s t) : Reaches scene r t := by
  induction h' with
  | refl => exact h
  | step a _ hs ih => exact .step a ih hs

/-- What every step keeps, a run keeps. -/
theorem Reaches.preserves {Holds : Run → Prop}
    (hstep : ∀ s a t, Holds s → s.step scene a = some t → Holds t)
    (h : Reaches scene r t) (hr : Holds r) : Holds t := by
  induction h with
  | refl => exact hr
  | step a _ hs ih => exact hstep _ a _ ih hs

/-- Takes steps one after the other; none where one of them cannot be taken. -/
def play (scene : Scene) (r : Run) : List Step → Option Run
  | [] => some r
  | a :: rest => (r.step scene a).bind (play scene · rest)

theorem play_cons {a : Step} {rest : List Step} :
    r.play scene (a :: rest) = some t ↔ ∃ s, r.step scene a = some s ∧ s.play scene rest = some t :=
  Option.bind_eq_some_iff

/-- What the steps of a history leave behind, oldest first, where `leaves` tells it of each step. -/
def along {β : Type} (scene : Scene) (leaves : Run → Step → Run → List β) (r : Run) : List Step → List β
  | [] => []
  | a :: rest => (r.step scene a).elim [] fun s => leaves r a s ++ s.along scene leaves rest

theorem reaches_of_play {steps : List Step} (h : r.play scene steps = some t) : Reaches scene r t := by
  induction steps generalizing r with
  | nil =>
    obtain rfl := Option.some.inj h
    exact .refl r
  | cons a rest ih =>
    obtain ⟨s, hs, hrest⟩ := play_cons.mp h
    exact Reaches.trans (.step a (.refl r) hs) (ih hrest)

theorem becomes_of_play {steps : List Step} (hkind : ∀ a ∈ steps, kind a)
    (h : r.play scene steps = some t) : Becomes scene kind r t := by
  induction steps generalizing r with
  | nil =>
    obtain rfl := Option.some.inj h
    exact .refl r
  | cons a rest ih =>
    obtain ⟨s, hs, hrest⟩ := play_cons.mp h
    have hrest' := ih (fun b hb => hkind b (List.mem_cons_of_mem a hb)) hrest
    exact Becomes.trans (.step a (.refl r) (hkind a List.mem_cons_self) hs) hrest'

end Run

end ExchangeLoad
