import ExchangeLoad.Proofs.Investor.Jobs

/-!
Who an investor is: its identity and its parameters. Nothing that an investor does or that is done to
it changes them.
-/

namespace ExchangeLoad.Investor

/-- The identity of an investor, and what it was built from. -/
def card (v : Investor) : Identity × Params := (v.identity, v.params)

variable {v w : Investor} {reply : Reply} {aborted : Bool} {progress : Progress}

theorem card_eq (hidentity : w.identity = v.identity) (hparams : w.params = v.params) : w.card = v.card :=
  Prod.ext hidentity hparams

theorem start_card {number : Nat} : (v.start number).1.card = v.card := rfl

theorem start_price {number : Nat} : (v.start number).1.price = v.price := rfl

/-- Handing out work for a tick makes a trader busy, and changes nothing else. -/
theorem next_eq_some {number : Nat} {draw : Draw} {task : Task} (h : v.next number draw = some (w, task)) :
    w.card = v.card ∧ w.price = v.price ∧ ∃ label delay job, task = .exec label delay job := by
  unfold next at h
  split at h
  · split at h
    · obtain ⟨rfl, rfl⟩ := Prod.mk.inj (Option.some.inj h)
      exact ⟨rfl, rfl, _, _, _, rfl⟩
    · cases h
  · split at h
    · obtain ⟨cue, _, hcue⟩ := Option.map_eq_some_iff.mp h
      obtain ⟨rfl, rfl⟩ := Prod.mk.inj hcue
      exact ⟨rfl, rfl, _, _, _, rfl⟩
    · cases h

theorem free_card : v.free.card = v.card := by
  unfold free
  split <;> rfl

theorem learn_card {m : Market} : (v.learn m).card = v.card := by
  unfold learn
  split <;> rfl

theorem settle_card : v.settle.card = v.card := by
  unfold settle
  split <;> rfl

theorem beginSignIn_card : (v.beginSignIn aborted).1.card = v.card := by
  unfold beginSignIn
  split <;> rfl

theorem beginTrade_card {price : Int} : (v.beginTrade price).1.card = v.card := rfl

theorem resume_card {p : Point} {gain : Int} (h : v.resume p reply aborted = some (w, gain, progress)) :
    w.card = v.card := by
  have hheard : (v.heard p reply).card = v.card := rfl
  cases resumed_of_resume h with
  | trouble => exact hheard
  | setback => exact free_card.trans hheard
  | signedUp => exact hheard
  | signedIn => exact hheard
  | desisted => exact free_card.trans (learn_card.trans hheard)
  | ordered => exact learn_card.trans hheard
  | placed => exact free_card.trans (settle_card.trans hheard)

end ExchangeLoad.Investor
