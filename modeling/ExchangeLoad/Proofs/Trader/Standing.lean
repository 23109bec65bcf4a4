import ExchangeLoad.Proofs.Trader.Books
import Mathlib.Data.Multiset.AddSub

/-!
Where a trader stands with its work. At any time at most one task of a trader is neither over nor lost: that
of signing in while the trader is started, and a trade once it has signed in. How far that task has come
goes with what the trader was answered by then; everything that can happen to a trader keeps it so.
-/

namespace ExchangeLoad

/-- Work of a trader that is not over: a task, and the answer that its job waits for once it has begun. -/
structure Duty where
  task : Task
  point : Option Point
deriving DecidableEq

/-- What is left of a task after a stretch of its job. -/
def Progress.duties (task : Task) : Progress → Multiset Duty
  | waits point => {⟨task, some point⟩}
  | ended _ => 0

namespace Investor

/-- The first stretch of a trader's job that a task is. -/
def opening? (v : Investor) (aborted : Bool) : Task → Option (Investor × Progress)
  | .exec _ _ (.signIn _) => some (v.beginSignIn aborted)
  | .exec _ _ (.trade _ price) => some (v.beginTrade price)
  | _ => none

/-- All that the first stretch of a trader's job can come to. -/
inductive Opened (v : Investor) (aborted : Bool) : Task → Investor → Progress → Prop where
  | quit (label : String) (delay i : Nat) (haborted : aborted = true) :
      Opened v aborted (.exec label delay (.signIn i)) v (.ended none)
  | signUp (label : String) (delay i : Nat) (haborted : aborted = false) :
      Opened v aborted (.exec label delay (.signIn i)) (v.askAt .signingUp).1 (.waits .signingUp)
  | look (label : String) (delay i : Nat) (price : Int) :
      Opened v aborted (.exec label delay (.trade i price)) (v.askAt (.asking price v.cursor)).1
        (.waits (.asking price v.cursor))

/-- All that an investor asked has been answered. -/
def Answered (v : Investor) : Prop := v.asked = v.talk.map Prod.fst

/-- An investor has signed in. -/
structure Member (v : Investor) : Prop where
  stage : v.stage = .signedIn
  signedIn : (.signIn, .done) ∈ v.talk

/-- A trade of a trader is under way. -/
structure Trading (v : Investor) : Prop extends Member v where
  busy : v.busy = true
  stock : v.hasStock = true

/-- How far the duty of the trader with number `i` has come. -/
inductive Engaged (i : Nat) (v : Investor) : Duty → Prop where
  | summoned (label : String) (delay : Nat) (hstage : v.stage = .started) (htalk : v.talk = []) :
      Engaged i v ⟨.exec label delay (.signIn i), none⟩
  | signingUp (label : String) (delay : Nat) (hstage : v.stage = .started) (htalk : v.talk = []) :
      Engaged i v ⟨.exec label delay (.signIn i), some .signingUp⟩
  | signingIn (label : String) (delay : Nat) (hstage : v.stage = .started)
      (htalk : v.talk = [(.signUp, .done)]) : Engaged i v ⟨.exec label delay (.signIn i), some .signingIn⟩
  | handed (label : String) (delay : Nat) (price : Int) (htrading : v.Trading) :
      Engaged i v ⟨.exec label delay (.trade i price), none⟩
  | asking (label : String) (delay : Nat) (price aim : Int) (htrading : v.Trading) :
      Engaged i v ⟨.exec label delay (.trade i price), some (.asking aim v.cursor)⟩
  | ordering (label : String) (delay : Nat) (price aim : Int) (earlier : List (Request × Reply)) (cursor : Int)
      (m : Market) (htrading : v.Trading) (hlooked : v.talk = earlier ++ [(.info cursor, .market m)]) :
      Engaged i v ⟨.exec label delay (.trade i price), some (.ordering aim)⟩

/-- Where a trader is while it has no duty. -/
inductive Resting (v : Investor) : Prop where
  | unstarted (hstage : v.stage = .notStarted) (htalk : v.talk = [])
  | outside (hstage : v.stage = .started)
  | idle (hmember : v.Member)

/-- Where the trader with number `i` stands, with its duties: all that it asked has been answered, but for
    what its duty waits for. -/
inductive Standing (i : Nat) (v : Investor) : Multiset Duty → Prop where
  | resting (h : v.Resting) (hasked : v.Answered) : Standing i v 0
  | engaged (d : Duty) (h : v.Engaged i d)
      (hasked : v.asked = v.talk.map Prod.fst ++ d.point.toList.map v.request) : Standing i v {d}

variable {i number : Nat} {v w : Investor} {duties rest lost : Multiset Duty} {d : Duty} {task : Task}
  {p : Point} {reply : Reply} {aborted : Bool} {gain : Int} {progress : Progress} {draw : Draw}

theorem life_eq (hv : v.IsTrader) : v.life = if v.client.retired then .retired else v.stage := by
  obtain ⟨busy, coins, cursor, hmanner⟩ := hv
  simp [life, hmanner]

theorem stage_of_life (hv : v.IsTrader) (hlife : v.life = .signedIn) : v.stage = .signedIn := by
  rw [life_eq hv] at hlife
  split at hlife
  · cases hlife
  · exact hlife

/-- A trader hands out a trade just when it is signed in, has stock, and is not busy; it is busy then. -/
theorem next_trader (hv : v.IsTrader) : v.next number draw =
    if v.life = .signedIn ∧ v.hasStock = true ∧ v.busy = false then
      some ({ v with manner := .trader true v.coins v.cursor },
        .exec "trade" draw.pause.val (.trade number (draw.price v.params.base)))
    else none := by
  obtain ⟨busy, coins, cursor, hmanner⟩ := hv
  simp [next, Investor.busy, Investor.coins, Investor.cursor, hmanner]

theorem traded_of_next (hv : v.IsTrader) (h : v.next number draw = some (w, task)) :
    (v.stage = .signedIn ∧ v.hasStock = true ∧ v.busy = false) ∧
      w = { v with manner := .trader true v.coins v.cursor } ∧
      task = .exec "trade" draw.pause.val (.trade number (draw.price v.params.base)) := by
  rw [next_trader hv] at h
  split at h
  · next hready =>
    obtain ⟨hlife, hstock, hfree⟩ := hready
    obtain ⟨rfl, rfl⟩ := Prod.mk.inj (Option.some.inj h)
    exact ⟨⟨stage_of_life hv hlife, hstock, hfree⟩, rfl, rfl⟩
  · cases h

theorem opened_of_opening (h : v.opening? aborted task = some (w, progress)) :
    Opened v aborted task w progress := by
  unfold opening? at h
  split at h
  · cases aborted with
    | true =>
      obtain ⟨rfl, rfl⟩ := Prod.mk.inj (Option.some.inj h)
      exact .quit _ _ _ rfl
    | false =>
      obtain ⟨rfl, rfl⟩ := Prod.mk.inj (Option.some.inj h)
      exact .signUp _ _ _ rfl
  · obtain ⟨rfl, rfl⟩ := Prod.mk.inj (Option.some.inj h)
    exact .look ..
  · cases h

theorem Answered.of_client (h : v.Answered) (hclient : w.client = v.client) : w.Answered := by
  rwa [Answered, asked, talk, hclient]

theorem Answered.heard (h : v.asked = v.talk.map Prod.fst ++ [v.request p]) : (v.heard p reply).Answered := by
  rw [Answered, talk_heard, List.map_append]
  exact h

theorem Answered.ask (h : v.Answered) (p : Point) :
    (v.askAt p).1.asked = (v.askAt p).1.talk.map Prod.fst ++ [(v.askAt p).1.request p] := by
  rw [asked_askAt, h]
  rfl

theorem Member.of_talk (h : v.Member) (hstage : w.stage = v.stage) (htalk : v.talk ⊆ w.talk) : w.Member :=
  ⟨hstage.trans h.stage, htalk h.signedIn⟩

theorem Member.of_client (h : v.Member) (hstage : w.stage = v.stage) (hclient : w.client = v.client) :
    w.Member :=
  h.of_talk hstage (by rw [talk, talk, hclient]; exact List.Subset.refl _)

theorem talk_subset_heard : v.talk ⊆ (v.heard p reply).talk := by
  rw [talk_heard]
  exact List.subset_append_left ..

theorem hasStock_congr (hparams : w.params = v.params) (hcoins : w.coins = v.coins) :
    w.hasStock = v.hasStock := by
  rw [hasStock, hasStock, hparams, hcoins]

namespace Engaged

theorem stage_ne (h : v.Engaged i d) : v.stage ≠ .notStarted := by
  cases h with
  | summoned _ _ hstage => simp [hstage]
  | signingUp _ _ hstage => simp [hstage]
  | signingIn _ _ hstage => simp [hstage]
  | handed _ _ _ htrading => simp [htrading.stage]
  | asking _ _ _ _ htrading => simp [htrading.stage]
  | ordering _ _ _ _ _ _ _ htrading => simp [htrading.stage]

theorem trading (h : v.Engaged i d) (hstage : v.stage = .signedIn) : v.Trading := by
  cases h with
  | summoned _ _ hstarted => cases hstage.symm.trans hstarted
  | signingUp _ _ hstarted => cases hstage.symm.trans hstarted
  | signingIn _ _ hstarted => cases hstage.symm.trans hstarted
  | handed _ _ _ htrading => exact htrading
  | asking _ _ _ _ htrading => exact htrading
  | ordering _ _ _ _ _ _ _ htrading => exact htrading

/-- A trader that loses its task rests. -/
theorem lose (h : v.Engaged i d) (hpoint : d.point = none) : v.Resting := by
  cases h with
  | summoned _ _ hstage => exact .outside hstage
  | handed _ _ _ htrading => exact .idle htrading.toMember
  | _ => cases hpoint

/-- What is under way is left alone when the client retires. -/
theorem retire (h : v.Engaged i d) : { v with client := v.client.retire : Investor }.Engaged i d := by
  have htrading (h : v.Trading) : { v with client := v.client.retire : Investor }.Trading :=
    ⟨⟨h.stage, h.signedIn⟩, h.busy, h.stock⟩
  cases h with
  | summoned label delay hstage htalk => exact .summoned label delay hstage htalk
  | signingUp label delay hstage htalk => exact .signingUp label delay hstage htalk
  | signingIn label delay hstage htalk => exact .signingIn label delay hstage htalk
  | handed label delay price h => exact .handed label delay price (htrading h)
  | asking label delay price aim h => exact .asking label delay price aim (htrading h)
  | ordering label delay price aim earlier cursor m h hlooked =>
    exact .ordering label delay price aim earlier cursor m (htrading h) hlooked

/-- What is under way allows what its job waits for; an order is placed out of stock. -/
theorem allows (h : v.Engaged i ⟨task, some p⟩) (hv : v.Books) :
    Allows v.params v.talk (v.request p) ∧ (v.hasStock = true ∨ p.trades = false) := by
  cases h with
  | signingUp _ _ _ htalk => exact ⟨.signUp htalk, .inr rfl⟩
  | signingIn _ _ _ htalk => exact ⟨.signIn htalk, .inr rfl⟩
  | asking _ _ _ _ htrading =>
    refine ⟨?_, .inl htrading.stock⟩
    rw [request, hv.cursor]
    exact .info htrading.signedIn
  | ordering _ _ _ _ earlier cursor m htrading hlooked =>
    exact ⟨.order earlier cursor m _ hlooked, .inl htrading.stock⟩

theorem opening (h : v.Engaged i ⟨task, none⟩) (hasked : v.Answered)
    (hopening : v.opening? aborted task = some (w, progress)) : Standing i w (progress.duties task) := by
  cases opened_of_opening hopening with
  | quit =>
    cases h with
    | summoned _ _ hstage => exact .resting (.outside hstage) hasked
  | signUp label delay =>
    cases h with
    | summoned _ _ hstage htalk =>
      exact .engaged _ (.signingUp label delay hstage htalk) (hasked.ask .signingUp)
  | look label delay _ price =>
    cases h with
    | handed _ _ _ htrading =>
      exact .engaged _ (.asking label delay price price ⟨⟨htrading.stage, htrading.signedIn⟩, htrading.busy,
        htrading.stock⟩) (hasked.ask (.asking price v.cursor))

/-- A duty of signing in belongs to a trader that is started, and one of trading to one that trades. -/
theorem of_point (h : v.Engaged i ⟨task, some p⟩) :
    p.trades = false ∧ v.stage = .started ∨ p.trades = true ∧ v.Trading := by
  cases h with
  | signingUp _ _ hstage => exact .inl ⟨rfl, hstage⟩
  | signingIn _ _ hstage => exact .inl ⟨rfl, hstage⟩
  | asking _ _ _ _ htrading => exact .inr ⟨rfl, htrading⟩
  | ordering _ _ _ _ _ _ _ htrading => exact .inr ⟨rfl, htrading⟩

theorem resumed (h : v.Engaged i ⟨task, some p⟩) (hasked : v.asked = v.talk.map Prod.fst ++ [v.request p])
    (hresumed : Resumed v aborted p reply w gain progress) : Standing i w (progress.duties task) := by
  have hheard : (v.heard p reply).Answered := .heard hasked
  have hmember (htrading : v.Trading) : (v.heard p reply).Member :=
    htrading.toMember.of_talk rfl talk_subset_heard
  cases hresumed with
  | trouble p why htrades =>
    obtain ⟨_, hstage⟩ | ⟨htrades', _⟩ := h.of_point
    · exact .resting (.outside hstage) hheard
    · cases htrades.symm.trans htrades'
  | setback p why htrades =>
    obtain ⟨htrades', _⟩ | ⟨_, htrading⟩ := h.of_point
    · cases htrades.symm.trans htrades'
    · exact .resting (.idle ((hmember htrading).of_client (by simp) (by simp))) (hheard.of_client (by simp))
  | signedUp =>
    cases h with
    | signingUp label delay hstage htalk =>
      refine .engaged _ (.signingIn label delay hstage ?_) (hheard.ask .signingIn)
      exact talk_heard.trans (by rw [htalk]; rfl)
  | signedIn =>
    refine .resting (.idle ⟨rfl, ?_⟩) (hheard.of_client rfl)
    exact talk_heard ▸ List.mem_append_right _ (List.mem_singleton_self _)
  | desisted price cursor m =>
    obtain ⟨htrades, _⟩ | ⟨_, htrading⟩ := h.of_point
    · cases htrades
    · exact .resting (.idle ((hmember htrading).of_client (by simp) (by simp))) (hheard.of_client (by simp))
  | ordered price cursor m =>
    cases h with
    | asking label delay base _ htrading =>
      have hlearnt : ((v.heard (.asking price v.cursor) (.market m)).learn m).talk =
          v.talk ++ [(.info v.cursor, .market m)] := by
        rw [talk, learn_client]
        exact talk_heard
      have htrading' : ((v.heard (.asking price v.cursor) (.market m)).learn m).Trading :=
        ⟨(hmember htrading).of_client (by simp) learn_client, by simpa using htrading.busy,
          (hasStock_congr (by simp) (by simp)).trans htrading.stock⟩
      refine .engaged _ (.ordering label delay base _ v.talk v.cursor m
        ⟨⟨htrading'.stage, htrading'.signedIn⟩, htrading'.busy, htrading'.stock⟩ hlearnt) ?_
      exact (hheard.of_client learn_client).ask _
  | placed price order =>
    obtain ⟨htrades, _⟩ | ⟨_, htrading⟩ := h.of_point
    · cases htrades
    · exact .resting (.idle ((hmember htrading).of_client (by simp) (by simp))) (hheard.of_client (by simp))

end Engaged

namespace Standing

/-- The only duty of a trader. -/
theorem engaged_of_add (h : Standing i v (rest + {d})) : rest = 0 ∧ v.Engaged i d ∧
    v.asked = v.talk.map Prod.fst ++ d.point.toList.map v.request := by
  generalize hsum : rest + {d} = duties at h
  have hcard : rest.card + 1 = duties.card := by rw [← hsum, Multiset.card_add, Multiset.card_singleton]
  cases h with
  | resting => cases hcard
  | engaged e he hasked =>
    obtain rfl := Multiset.card_eq_zero.mp (show rest.card = 0 by simpa using hcard)
    obtain rfl : d = e := by simpa using hsum
    exact ⟨rfl, he, hasked⟩

theorem card_le (h : Standing i v duties) : duties.card ≤ 1 := by
  cases h with
  | resting => exact Nat.zero_le 1
  | engaged => exact Nat.le_refl 1

theorem lose (h : Standing i v (rest + lost)) (hlost : ∀ d ∈ lost, d.point = none) : Standing i v rest := by
  -- There is one duty at most, so that all of them are lost or none.
  have hcard := h.card_le
  rw [Multiset.card_add] at hcard
  obtain hzero | hone := Nat.eq_zero_or_pos lost.card
  · obtain rfl := Multiset.card_eq_zero.mp hzero
    rwa [add_zero] at h
  · obtain ⟨d, rfl⟩ := Multiset.card_eq_one.mp (show lost.card = 1 by omega)
    have hpoint := hlost d (Multiset.mem_singleton_self d)
    obtain ⟨rfl, hengaged, hasked⟩ := h.engaged_of_add
    rw [hpoint, Option.toList_none, List.map_nil, List.append_nil] at hasked
    exact .resting (hengaged.lose hpoint) hasked

theorem retire (h : Standing i v duties) : Standing i { v with client := v.client.retire } duties := by
  cases h with
  | resting h hasked =>
    refine .resting ?_ hasked
    cases h with
    | unstarted hstage htalk => exact .unstarted hstage htalk
    | outside hstage => exact .outside hstage
    | idle hmember => exact .idle ⟨hmember.stage, hmember.signedIn⟩
  | engaged d h hasked => exact .engaged d h.retire hasked

theorem start (h : Standing i v duties) (hv : v.IsTrader) (hstage : v.stage = .notStarted) :
    Standing i (v.start i).1 (duties + {⟨(v.start i).2, none⟩}) := by
  obtain ⟨busy, coins, cursor, hmanner⟩ := hv
  have htask : (v.start i).2 = .exec "sign-in" 0 (.signIn i) := by rw [Investor.start, hmanner]
  rw [htask]
  cases h with
  | resting h hasked =>
    cases h with
    | unstarted _ htalk =>
      rw [zero_add]
      refine .engaged _ (.summoned "sign-in" 0 rfl htalk) ?_
      rw [Option.toList_none, List.map_nil, List.append_nil]
      exact hasked
    | outside hstarted => cases hstage.symm.trans hstarted
    | idle hmember => cases hstage.symm.trans hmember.stage
  | engaged d h => exact absurd hstage h.stage_ne

theorem next (h : Standing i v duties) (hv : v.IsTrader) (hnext : v.next i draw = some (w, task)) :
    Standing i w (duties + {⟨task, none⟩}) := by
  obtain ⟨⟨hstage, hstock, hfree⟩, rfl, rfl⟩ := traded_of_next hv hnext
  cases h with
  | resting h hasked =>
    cases h with
    | unstarted hnot => cases hstage.symm.trans hnot
    | outside hnot => cases hstage.symm.trans hnot
    | idle hmember =>
      rw [zero_add]
      refine .engaged _ (.handed "trade" draw.pause.val (draw.price v.params.base)
        ⟨⟨hmember.stage, hmember.signedIn⟩, rfl, hstock⟩) ?_
      rw [Option.toList_none, List.map_nil, List.append_nil]
      exact hasked
  | engaged d h => cases hfree.symm.trans (h.trading hstage).busy

theorem opening (h : Standing i v (rest + {⟨task, none⟩}))
    (hopening : v.opening? aborted task = some (w, progress)) :
    Standing i w (rest + progress.duties task) := by
  obtain ⟨rfl, hengaged, hasked⟩ := h.engaged_of_add
  rw [Option.toList_none, List.map_nil, List.append_nil] at hasked
  rw [zero_add]
  exact hengaged.opening hasked hopening

theorem resumed (h : Standing i v (rest + {⟨task, some p⟩}))
    (hresumed : Resumed v aborted p reply w gain progress) : Standing i w (rest + progress.duties task) := by
  obtain ⟨rfl, hengaged, hasked⟩ := h.engaged_of_add
  rw [zero_add]
  exact hengaged.resumed hasked hresumed

end Standing

end Investor

end ExchangeLoad
