import ExchangeLoad.Proofs.Investor.Card
import ExchangeLoad.Proofs.Run.Stretch

/-!
The census of a run: its level with every look at it, and its investors with their deposits. Only a
look at the level, the building of an investor, a deposit and a registration write to it. Everything
else that the controller does leaves it alone.
-/

namespace ExchangeLoad

/-- The investor that a task enrols, and the credit that it deposits. -/
def Task.enrolment? : Task → Option (Nat × Int)
  | exec .. => none
  | enrol i credit => some (i, credit)

/-- The enrolments among tasks, in order. -/
def enrolments (tasks : List Task) : List (Nat × Int) := tasks.filterMap Task.enrolment?

@[simp] theorem enrolments_nil : enrolments [] = [] := rfl

@[simp] theorem enrolments_append (tasks more : List Task) :
    enrolments (tasks ++ more) = enrolments tasks ++ enrolments more := List.filterMap_append

@[simp] theorem enrolments_exec (label : String) (delay : Nat) (job : Job) (tasks : List Task) :
    enrolments (.exec label delay job :: tasks) = enrolments tasks := rfl

@[simp] theorem enrolments_enrol (i : Nat) (credit : Int) (tasks : List Task) :
    enrolments (.enrol i credit :: tasks) = (i, credit) :: enrolments tasks := rfl

/-- What is on record about the level of a run and about its investors. -/
structure Census where
  level : Nat
  /-- Every look at the level, oldest first. -/
  weighings : List Weighing
  /-- Why each investor was built, in the order of building. -/
  origins : List Origin
  /-- Identity and parameters of each investor, in the order of building. -/
  cards : List (Identity × Params)
  deposits : List Deposit
  /-- The investors in the registry. -/
  entries : List Nat

namespace Census

/-- A look at the level, which rises if the look says so. -/
def weighed (b : Census) (w : Weighing) : Census :=
  { b with weighings := b.weighings ++ [w], level := b.level + if w.rose.isSome then 1 else 0 }

/-- An investor is built. -/
def built (b : Census) (origin : Origin) (card : Identity × Params) : Census :=
  { b with origins := b.origins ++ [origin], cards := b.cards ++ [card] }

/-- A deposit is made, and not decided yet. -/
def deposited (b : Census) (id : Identity) (amount : Int) : Census :=
  { b with deposits := b.deposits ++ [⟨id, amount, none⟩] }

/-- A deposit is decided, and its investor is registered. -/
def registered (b : Census) (i deposit : Nat) (accepted : Bool) : Census :=
  { b with
    deposits := b.deposits.modify deposit fun d => { d with outcome := some accepted }
    entries := b.entries ++ [i] }

end Census

namespace Run

/-- The census of a run. -/
def census (r : Run) : Census where
  level := r.level
  weighings := r.weighings.toList
  origins := r.origins.toList
  cards := r.investors.toList.map Investor.card
  deposits := r.deposits.toList
  entries := r.registry.entries

variable {scene : Scene} {r s t : Run} {c i : Nat}

/-- Records that are no part of the census may change at will. -/
theorem census_of_eq (h : (t.level, t.weighings, t.origins, t.investors, t.deposits, t.registry) =
    (r.level, r.weighings, r.origins, r.investors, r.deposits, r.registry)) : t.census = r.census := by
  simp only [Prod.mk.injEq] at h
  obtain ⟨hlevel, hweighings, horigins, hinvestors, hdeposits, hregistry⟩ := h
  simp only [census, hlevel, hweighings, horigins, hinvestors, hdeposits, hregistry]

theorem getElem?_cards {v : Investor} (hv : r.investors[i]? = some v) :
    r.census.cards[i]? = some v.card := by
  simp [census, hv]

theorem length_cards : r.census.cards.length = r.investors.size := by simp [census]

theorem census_withInvestor {v w : Investor} (hv : r.investors[i]? = some v) (hcard : w.card = v.card) :
    (r.withInvestor i w).census = r.census := by
  obtain ⟨hi, rfl⟩ := Array.getElem?_eq_some_iff.mp hv
  have hcards : (r.investors.toList.map Investor.card).set i w.card =
      r.investors.toList.map Investor.card := by
    have hlength : i < (r.investors.toList.map Investor.card).length := by simpa using hi
    have hsame : (r.investors.toList.map Investor.card)[i] = r.investors[i].card := by simp
    rw [hcard, ← hsame, List.set_getElem_self]
  simp only [census, withInvestor, Array.set!_eq_setIfInBounds, Array.toList_setIfInBounds, List.map_set,
    hcards]

/-- The price of the day is read off the registry and the prices that the investors saw, where one that
    is not there has seen none. -/
theorem marketPrice_congr (hregistry : t.registry = r.registry)
    (hprices : ∀ k : Nat,
      (t.investors[k]?).elim 0 Investor.price = (r.investors[k]?).elim 0 Investor.price) :
    t.marketPrice = r.marketPrice := by
  unfold marketPrice
  rw [hregistry]
  cases r.registry.first? with
  | none => rfl
  | some k =>
    simp only [Option.bind_some]
    rw [hprices k]

theorem marketPrice_withInvestor {v w : Investor} (hv : r.investors[i]? = some v)
    (hprice : w.price = v.price) : (r.withInvestor i w).marketPrice = r.marketPrice := by
  obtain ⟨hi, rfl⟩ := Array.getElem?_eq_some_iff.mp hv
  refine marketPrice_congr rfl fun k => ?_
  by_cases hk : i = k
  · subst hk
    simp [withInvestor, hi, hprice]
  · simp [withInvestor, hk]

theorem census_submitAll (tasks : List Task) : (r.submitAll tasks).census = r.census := by
  induction tasks generalizing r with
  | nil => rfl
  | cons task rest ih => exact (ih (r := r.launch task true)).trans (census_of_eq rfl)

theorem census_endControl (result : Except RunError (List Task)) :
    (r.endControl c result).census = r.census := by
  unfold endControl
  cases result with
  | error e => exact census_of_eq rfl
  | ok tasks =>
    simp only
    split
    · exact (census_submitAll tasks).trans (census_of_eq rfl)
    · exact census_of_eq rfl

theorem census_awaitIdentity (stand : Nat → Stand) : (r.awaitIdentity c stand).census = r.census :=
  census_of_eq rfl

theorem census_toSlot (slot : Nat) (tasks : List Task) :
    (r.toSlot scene c slot tasks).census = r.census := by
  unfold toSlot
  split
  · exact census_awaitIdentity _
  · exact census_endControl _

/-- Starting an investor hands out a job, and shows neither in the census nor in prices. -/
theorem startInvestor_keeps (r : Run) (i : Nat) :
    (r.startInvestor i).1.census = r.census ∧ (r.startInvestor i).1.marketPrice = r.marketPrice ∧
      enrolments (r.startInvestor i).2 = [] := by
  unfold startInvestor
  split
  · exact ⟨rfl, rfl, rfl⟩
  · next v hv =>
    have hv' : { r with starts := r.starts.push i }.investors[i]? = some v := hv
    have hcensus := census_withInvestor (w := (v.start i).1) hv' Investor.start_card
    have hprice := marketPrice_withInvestor (w := (v.start i).1) hv' Investor.start_price
    refine ⟨hcensus.trans (census_of_eq rfl), hprice.trans (marketPrice_congr rfl fun _ => rfl), ?_⟩
    unfold Investor.start
    cases v.manner with
    | trader => rfl
    | scripted part => rfl

theorem startFirst_keeps (r : Run) :
    r.startFirst.1.census = r.census ∧ r.startFirst.1.marketPrice = r.marketPrice ∧
      enrolments r.startFirst.2 = [] := by
  unfold startFirst
  cases r.registry.firstNotStarted? r.life with
  | none => exact ⟨rfl, rfl, rfl⟩
  | some i => exact r.startInvestor_keeps i

theorem collectFrom_keeps (scene : Scene) (r : Run) (i : Nat) {tasks : List Task}
    (htasks : enrolments tasks = []) :
    (collectFrom scene (r, tasks) i).1.census = r.census ∧
      (collectFrom scene (r, tasks) i).1.marketPrice = r.marketPrice ∧
      enrolments (collectFrom scene (r, tasks) i).2 = [] := by
  unfold collectFrom
  split
  · exact ⟨rfl, rfl, htasks⟩
  · next v hv =>
    split
    · exact ⟨rfl, rfl, htasks⟩
    · next w task hnext =>
      obtain ⟨hcard, hprice, hjob⟩ := Investor.next_eq_some hnext
      have hkept := marketPrice_withInvestor hv hprice
      refine ⟨(census_of_eq rfl).trans (census_withInvestor hv hcard),
        (marketPrice_congr rfl fun _ => rfl).trans hkept, ?_⟩
      obtain ⟨label, delay, job, rfl⟩ := hjob
      simp [htasks]

/-- Collecting the work of a tick hands out jobs, and shows neither in the census nor in prices. -/
theorem collectAll_keeps (scene : Scene) (r : Run) :
    (r.collectAll scene).1.census = r.census ∧ (r.collectAll scene).1.marketPrice = r.marketPrice ∧
      enrolments (r.collectAll scene).2 = [] := by
  have hfold (members : List Nat) (tasks : List Task)
      (htasks : enrolments tasks = []) :
      (members.foldl (collectFrom scene) (r, tasks)).1.census = r.census ∧
        (members.foldl (collectFrom scene) (r, tasks)).1.marketPrice = r.marketPrice ∧
        enrolments (members.foldl (collectFrom scene) (r, tasks)).2 = [] := by
    induction members generalizing r tasks with
    | nil => exact ⟨rfl, rfl, htasks⟩
    | cons i rest ih =>
      obtain ⟨hcensus, hprice, hjobs⟩ := collectFrom_keeps scene r i htasks
      obtain ⟨hcensus', hprice', hjobs'⟩ := ih (collectFrom scene (r, tasks) i).1 _ hjobs
      exact ⟨hcensus'.trans hcensus, hprice'.trans hprice, hjobs'⟩
  exact hfold _ [] rfl

/-- Unless no client could be created, building enters the investor under the next number. -/
theorem build_ok {id : Identity} {params : Params} {origin : Origin} {made : Option Fault}
    (h : r.build scene id params origin made = (s, .ok i)) :
    i = r.investors.size ∧ s.census = r.census.built origin (id, params) ∧ s.marketPrice = r.marketPrice ∧
      s.identity i = id := by
  unfold build at h
  cases made with
  | some why => simp at h
  | none =>
    obtain ⟨rfl, hi⟩ := Prod.mk.inj h
    obtain rfl := Except.ok.inj hi
    refine ⟨rfl, ?_, ?_, by simp [Run.identity, Investor.fresh, Investor.identity, Client.identity,
      Client.fresh, Credentials.investor]⟩
    · simp [census, Census.built, Investor.card, Investor.fresh, Investor.identity, Client.identity,
        Client.fresh, Credentials.investor]
    · -- The new investor has seen no trade, so that it makes no price where there was none.
      refine marketPrice_congr rfl fun k => ?_
      by_cases hk : k = r.investors.size
      · subst hk
        simp [Investor.fresh]
      · simp [Array.getElem?_push, hk]

theorem build_error {id : Identity} {params : Params} {origin : Origin} {made : Option Fault} {why : Fault}
    (h : r.build scene id params origin made = (s, .error why)) : s.census = r.census := by
  unfold build at h
  cases made with
  | some why =>
    obtain ⟨rfl, -⟩ := Prod.mk.inj h
    exact census_of_eq rfl
  | none => simp at h

end Run

end ExchangeLoad
