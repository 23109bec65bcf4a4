import ExchangeLoad.Investor.Jobs

/-!
What the stretches of a trader's job have in common. The stretch after an answer notes the answer
down, earns the points that the answer is worth, and fails where the answer is a failure; no other
stretch hears, earns or fails.
-/

namespace ExchangeLoad

/-- Whether a stretch ended a job with a failure. -/
def Progress.failed : Progress → Bool
  | .ended (some _) => true
  | _ => false

/-- Whether an answer is a failure. -/
def Reply.refused : Reply → Bool
  | failed _ => true
  | _ => false

/-- The points for a request that succeeds. -/
def Request.points : Request → Int
  | boot _ => 0
  | signUp => 1
  | signIn => 1
  | info _ => 1
  | order .. => 5

/-- The points that an answer earns. -/
def earned (answer : Request × Reply) : Int := if answer.2.refused then 0 else answer.1.points

/-- Whether an investor is a trader. -/
def Investor.IsTrader (v : Investor) : Prop := ∃ busy coins cursor, v.manner = .trader busy coins cursor

namespace Investor

variable {v w : Investor} {reply : Reply} {aborted : Bool} {progress : Progress}

@[simp]
theorem free_client : v.free.client = v.client := by
  unfold free
  split <;> rfl

@[simp]
theorem learn_client {m : Market} : (v.learn m).client = v.client := by
  unfold learn
  split <;> rfl

@[simp]
theorem settle_client : v.settle.client = v.client := by
  unfold settle
  split <;> rfl

/-- The trader once its client has noted down the answer at a point of a job. -/
def heard (v : Investor) (p : Point) (reply : Reply) : Investor :=
  { v with client := v.client.hear (v.request p) reply }

/-- What a stretch after an answer comes to: the trader, the points earned, and how far the job came. -/
inductive Resumed (v : Investor) (aborted : Bool) : Point → Reply → Investor → Int → Progress → Prop where
  | trouble (p : Point) (why : Fault) (htrades : p.trades = false) : Resumed v aborted p (.failed why)
      (v.heard p (.failed why)) 0 (.ended (some (why.within (p.context v.params.kind.orderKind))))
  | setback (p : Point) (why : Fault) (htrades : p.trades = true) : Resumed v aborted p (.failed why)
      (v.heard p (.failed why)).free 0 (.ended (some (why.within (p.context v.params.kind.orderKind))))
  | signedUp : Resumed v aborted .signingUp .done ((v.heard .signingUp .done).askAt .signingIn).1 1
      (.waits .signingIn)
  | signedIn : Resumed v aborted .signingIn .done { v.heard .signingIn .done with stage := .signedIn } 1
      (.ended none)
  | desisted (price cursor : Int) (m : Market) (haborted : aborted = true) :
      Resumed v aborted (.asking price cursor) (.market m)
        ((v.heard (.asking price cursor) (.market m)).learn m).free 1 (.ended none)
  | ordered (price cursor : Int) (m : Market) (haborted : aborted = false) :
      Resumed v aborted (.asking price cursor) (.market m)
        (((v.heard (.asking price cursor) (.market m)).learn m).askAt
          (.ordering (bookPrice v.params.kind.orderKind price m))).1 1
        (.waits (.ordering (bookPrice v.params.kind.orderKind price m)))
  | placed (price order : Int) : Resumed v aborted (.ordering price) (.placed order)
      (v.heard (.ordering price) (.placed order)).settle.free 5 (.ended none)

theorem resumed_of_resume {p : Point} {gain : Int} (h : v.resume p reply aborted = some (w, gain, progress)) :
    Resumed v aborted p reply w gain progress := by
  unfold resume at h
  split at h
  · next why =>
    obtain ⟨rfl, rfl, rfl⟩ := by simpa using h
    cases htrades : p.trades with
    | true => exact .setback p why htrades
    | false => exact .trouble p why htrades
  · obtain ⟨rfl, rfl, rfl⟩ := by simpa using h
    exact .signedUp
  · obtain ⟨rfl, rfl, rfl⟩ := by simpa using h
    exact .signedIn
  · simp only at h
    split at h
    · next haborted =>
      obtain ⟨rfl, rfl, rfl⟩ := by simpa using h
      exact .desisted _ _ _ haborted
    · next haborted =>
      obtain ⟨rfl, rfl, rfl⟩ := by simpa using h
      exact .ordered _ _ _ (Bool.eq_false_iff.mpr haborted)
  · obtain ⟨rfl, rfl, rfl⟩ := by simpa using h
    exact .placed _ _
  · cases h

/-- A trader's stretch after an answer: it notes the answer down, earns its points, and fails if the
    answer is a failure. -/
theorem resume_eq_some {p : Point} {gain : Int} (h : v.resume p reply aborted = some (w, gain, progress)) :
    w.client.answers.toList = v.client.answers.toList ++ [(v.request p, reply)] ∧
    gain = earned (v.request p, reply) ∧ progress.failed = reply.refused := by
  have hheard : (v.heard p reply).client.answers.toList =
      v.client.answers.toList ++ [(v.request p, reply)] := by simp [heard, Client.hear]
  cases resumed_of_resume h with
  | trouble => exact ⟨hheard, rfl, rfl⟩
  | setback => exact ⟨by rw [free_client, hheard], rfl, rfl⟩
  | signedUp => exact ⟨hheard, rfl, rfl⟩
  | signedIn => exact ⟨hheard, rfl, rfl⟩
  | desisted => exact ⟨by rw [free_client, learn_client, hheard], rfl, rfl⟩
  | ordered _ _ m =>
    refine ⟨?_, rfl, rfl⟩
    change ((v.heard _ _).learn m).client.answers.toList = _
    rw [learn_client, hheard]
  | placed => exact ⟨by rw [free_client, settle_client, hheard], rfl, rfl⟩

/-- The first stretch of signing in hears nothing and does not fail. -/
theorem beginSignIn_answers (v : Investor) (aborted : Bool) :
    (v.beginSignIn aborted).1.client.answers = v.client.answers ∧
      (v.beginSignIn aborted).2.failed = false := by
  unfold beginSignIn
  split
  · exact ⟨rfl, rfl⟩
  · exact ⟨rfl, rfl⟩

/-- The first stretch of a trade hears nothing and does not fail. -/
theorem beginTrade_answers (v : Investor) (price : Int) :
    (v.beginTrade price).1.client.answers = v.client.answers ∧
      (v.beginTrade price).2.failed = false :=
  ⟨rfl, rfl⟩

namespace IsTrader

variable (hv : v.IsTrader)
include hv

theorem of_manner (hmanner : w.manner = v.manner) : w.IsTrader := by
  obtain ⟨busy, coins, cursor, htrader⟩ := hv
  exact ⟨busy, coins, cursor, hmanner.trans htrader⟩

theorem free : v.free.IsTrader := by
  obtain ⟨busy, coins, cursor, hmanner⟩ := hv
  exact ⟨false, coins, cursor, by simp [Investor.free, hmanner]⟩

theorem learn (m : Market) : (v.learn m).IsTrader := by
  obtain ⟨busy, coins, cursor, hmanner⟩ := hv
  exact ⟨busy, coins, m.cursor, by simp [Investor.learn, hmanner]⟩

theorem settle : v.settle.IsTrader := by
  unfold Investor.settle
  split
  · exact ⟨_, _, _, rfl⟩
  · exact hv

theorem resume {p : Point} {gain : Int} (h : v.resume p reply aborted = some (w, gain, progress)) :
    w.IsTrader := by
  have hheard : (v.heard p reply).IsTrader := hv
  cases resumed_of_resume h with
  | trouble => exact hheard
  | setback => exact hheard.free
  | signedUp => exact hheard
  | signedIn => exact hheard
  | desisted _ _ m => exact (hheard.learn m).free
  | ordered _ _ m => exact hheard.learn m
  | placed => exact hheard.settle.free

theorem beginSignIn (aborted : Bool) : (v.beginSignIn aborted).1.IsTrader := by
  unfold Investor.beginSignIn
  split
  · exact hv
  · exact hv

theorem beginTrade (price : Int) : (v.beginTrade price).1.IsTrader := hv

end IsTrader

end Investor

end ExchangeLoad
