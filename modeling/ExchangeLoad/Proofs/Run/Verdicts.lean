import ExchangeLoad.Proofs.Run.Veil

/-!
Whether deposits fail makes no difference to a run. Two runs are compared in which everybody behaves
alike who does not know which deposits failed: the investors and their clients, the exchange, the bank
where it registers identities, and whoever calls the controller, submits tasks, aborts the run or waits
for the tasks under way. The two runs take the same steps, and differ in the outcomes of deposits only.
-/

namespace ExchangeLoad

/-- Of a deposit that is decided it is not told that it failed. -/
def Veil.discreet : Veil where
  deposit d := { d with outcome := d.outcome.map fun _ => true }
  shutdowns := id
  verdict _ := true
  undecided _ _ := rfl
  decided _ _ := rfl

/-- What is known of a deposit by somebody who does not know whether it failed. -/
def Deposit.known (d : Deposit) : Identity × Int × Bool := (d.id, d.amount, d.outcome.isSome)

namespace Run

/-- The run as it looks to somebody who does not know which deposits failed. -/
def hushed (r : Run) : Run := Veil.discreet.veiled r

/-- The run after so many turns; none if one of them could not be taken. At each turn `choose` takes a
    step, by the number of the turn and what the run looks like to somebody who does not know which
    deposits failed; `bank` tells for each turn whether a deposit succeeds that is decided then. -/
def conduct (scene : Scene) (choose : Nat → Run → Step) (bank : Nat → Bool) (r : Run) : Nat → Option Run
  | 0 => some r
  | n + 1 => (r.conduct scene choose bank n).bind fun s =>
      s.step scene ((choose n s.hushed).told fun _ => bank n)

variable {scene : Scene} {choose : Nat → Run → Step} {bank bank' : Nat → Bool} {r s t u : Run}

theorem Step.told_told (a : Step) (verdict verdict' : Bool → Bool) :
    (a.told verdict).told verdict' = a.told (verdict' ∘ verdict) := by
  cases a <;> rfl

theorem hushed_hushed (r : Run) : r.hushed.hushed = r.hushed := by
  simp [hushed, Veil.veiled, Veil.discreet, Function.comp_def]

/-- Every step is open to somebody who does not know which deposits failed. -/
theorem step_hushed (scene : Scene) (r : Run) (a : Step) :
    r.hushed.step scene (a.told fun _ => true) = (r.step scene a).map hushed := by
  by_cases hwait : ∃ ms, a = .wait ms
  · obtain ⟨ms, rfl⟩ := hwait
    exact Veil.discreet.ite_veiled rfl rfl
  · cases hwatch : a.watches with
    | false => exact Veil.discreet.step r scene (fun ms h => hwait ⟨ms, h⟩) hwatch
    | true =>
      cases a with
      | shutdown grace => rfl
      | answer k => exact Veil.discreet.bind_veiled r.shutdowns[k]? fun _ => Veil.discreet.ite_veiled rfl rfl
      | _ => cases hwatch

/-- A run that is conducted looks as if every deposit had succeeded. -/
theorem conduct_hushed (bank : Nat → Bool) (n : Nat) : (r.conduct scene choose bank n).map hushed =
    r.hushed.conduct scene choose (fun _ => true) n := by
  induction n with
  | zero => rfl
  | succ n ih =>
    rw [conduct, conduct, ← ih, Option.map_bind, Option.bind_map]
    congr 1
    funext s
    simp only [Function.comp_apply, hushed_hushed, ← step_hushed, Step.told_told]
    rfl

/-- Runs that look alike differ in the outcomes of deposits only. -/
theorem eq_of_hushed_eq (h : u.hushed = t.hushed) : u = { t with deposits := u.deposits } :=
  congrArg (fun s : Run => { s with deposits := u.deposits }) h

theorem known_of_hushed_eq (h : u.hushed = t.hushed) :
    u.deposits.map Deposit.known = t.deposits.map Deposit.known := by
  have hdeposits : u.deposits.map Veil.discreet.deposit = t.deposits.map Veil.discreet.deposit :=
    congrArg Run.deposits h
  have hknown (deposits : Array Deposit) :
      deposits.map Deposit.known = (deposits.map Veil.discreet.deposit).map Deposit.known := by
    simp [Function.comp_def, Deposit.known, Veil.discreet]
  rw [hknown, hdeposits, ← hknown]

/-- Which deposits fail makes no difference to a run. Whatever is done, by steps that may depend on all
    that happened but for the failures of deposits, and whatever the bank makes of each deposit in one run
    and in another: as long as the one run goes on, so does the other. They agree in all but the outcomes
    of deposits: in the time, the registry, the level, the counters, the abort, the work that is held,
    handed out or in execution, the identities taken, and where the timed loop stands or what it ended
    with. The deposits asked for are the same, and so is the report, whatever outcome is reported. -/
theorem deposits_fail_unseen (choose : Nat → Run → Step) (bank bank' : Nat → Bool) {n : Nat}
    (h : r.conduct scene choose bank n = some t) :
    ∃ u, r.conduct scene choose bank' n = some u ∧ u = { t with deposits := u.deposits } ∧
      u.deposits.map Deposit.known = t.deposits.map Deposit.known ∧
      ∀ outcome, u.report? outcome = t.report? outcome := by
  have hlooks : (r.conduct scene choose bank' n).map hushed = some t.hushed := by
    rw [conduct_hushed, ← conduct_hushed bank, h, Option.map_some]
  obtain ⟨u, hu, hsame⟩ := Option.map_eq_some_iff.mp hlooks
  have heq := eq_of_hushed_eq hsame
  refine ⟨u, hu, heq, known_of_hushed_eq hsame, fun outcome => ?_⟩
  rw [heq]
  rfl

/-- The timed loop runs for a second. In one run the deposit of its founding investor and that of the
    investor that its first level brings both fail; the run in which both succeed ends no differently. -/
theorem deposits_fail_unseen_of_timed_loop :
    let scene := Scene.plain 1 1
    let steps : List Step := [.produce, .drive, .proceed 0 none, .booted 0 .done, .decide true,
      .provide 0 none, .funded 0 true, .collect, .score 100, .tick, .proceed 1 none, .decide true,
      .provide 1 none, .collect, .look 0, .look 1, .enrol 1 true, .hear 0 .done, .hear 0 .done,
      .wait 1000, .leave .deadline]
    let choose := fun n (_ : Run) => steps.getD n .signal
    ∃ t u, (fresh 5 10 1 0).conduct scene choose (fun _ => false) steps.length = some t ∧
      t.deposits.toList.map Deposit.outcome = [some false, some false] ∧
      (fresh 5 10 1 0).conduct scene choose (fun _ => true) steps.length = some u ∧
      u.deposits.toList.map Deposit.outcome = [some true, some true] ∧
      u.registry.entries = [0, 1] ∧ u.loop = .ended .completed 1000 ∧
      u.report? .completed = t.report? .completed := by
  intro scene steps choose
  have hfailing : ((fresh 5 10 1 0).conduct scene choose (fun _ => false) steps.length).map (fun t =>
      (t.deposits.toList.map Deposit.outcome, t.registry.entries, t.loop)) =
      some ([some false, some false], [0, 1], .ended .completed 1000) := by decide +kernel
  have hsucceeding : ((fresh 5 10 1 0).conduct scene choose (fun _ => true) steps.length).map (fun u =>
      u.deposits.toList.map Deposit.outcome) = some [some true, some true] := by decide +kernel
  obtain ⟨t, ht, hvalues⟩ := Option.map_eq_some_iff.mp hfailing
  obtain ⟨u, hu, houtcomes⟩ := Option.map_eq_some_iff.mp hsucceeding
  simp only [Prod.mk.injEq] at hvalues
  obtain ⟨hfailed, hentries, hloop⟩ := hvalues
  obtain ⟨u', hu', heq, -, hreport⟩ := deposits_fail_unseen choose (fun _ => false) (fun _ => true) ht
  obtain rfl := Option.some.inj (hu.symm.trans hu')
  refine ⟨t, u, ht, hfailed, hu, houtcomes, ?_, ?_, hreport .completed⟩
  · rw [heq]
    exact hentries
  · rw [heq]
    exact hloop

end Run

end ExchangeLoad
