import ExchangeLoad.Proofs.Run.Conservation
import Mathlib.Computability.Language

/-!
What a trader says to the exchange. It signs up, then in, and then looks at the market again and again,
with perhaps an order after a look that succeeded. `Allows` says which request the answers so far leave
open; a conversation in which each request was allowed has the shape of `Service.protocol`, broken off
anywhere.
-/

open scoped Computability

namespace ExchangeLoad

/-- What a look at the market showed, if an answer is that to a look which succeeded. -/
def seen? : Request × Reply → Option Market
  | (.info _, .market m) => some m
  | _ => none

/-- The looks at the market that succeeded, oldest first. -/
def looks (talk : List (Request × Reply)) : List Market := talk.filterMap seen?

/-- What the next look is to be asked with: what the latest look that succeeded said, or zero. -/
def cursorAfter (talk : List (Request × Reply)) : Int := (looks talk).getLast?.elim 0 Market.cursor

/-- The last price of the latest look that reported any trade, or zero. -/
def priceAfter (talk : List (Request × Reply)) : Int :=
  ((looks talk).filterMap Market.latest?).getLast?.getD 0

/-- What a trader may ask when it has been answered so far. -/
inductive Allows (params : Params) (talk : List (Request × Reply)) : Request → Prop where
  | signUp (hfirst : talk = []) : Allows params talk .signUp
  | signIn (hsignedUp : talk = [(.signUp, .done)]) : Allows params talk .signIn
  | info (hsignedIn : (.signIn, .done) ∈ talk) : Allows params talk (.info (cursorAfter talk))
  | order (earlier : List (Request × Reply)) (cursor : Int) (m : Market) (price : Int)
      (hlooked : talk = earlier ++ [(.info cursor, .market m)]) :
      Allows params talk (.order params.kind.orderKind params.unit price)

/-- A conversation in which the answers before each request allowed it. -/
inductive Conversation (params : Params) : List (Request × Reply) → Prop where
  | nil : Conversation params []
  | snoc {talk : List (Request × Reply)} {request : Request} (reply : Reply) (h : Conversation params talk)
      (hallows : Allows params talk request) : Conversation params (talk ++ [(request, reply)])

/-- The services that requests ask for, in order. -/
def services (asked : List Request) : List Service := asked.filterMap Request.service?

/-- A look at the market, with an order after it or without. -/
def Service.round : Language Service := {[.look]} * (1 + {[.order]})

/-- Signing up, signing in, and rounds in any number. -/
def Service.protocol : Language Service := {[.signUp]} * {[.signIn]} * Service.round∗

section Lists

variable {talk : List (Request × Reply)} {request : Request} {reply : Reply} {m : Market} {cursor : Int}

theorem looks_append (talk more : List (Request × Reply)) : looks (talk ++ more) = looks talk ++ looks more :=
  List.filterMap_append

/-- An answer that shows no market changes neither the cursor nor the price. -/
theorem looks_snoc_of_unseen (h : seen? (request, reply) = none) :
    looks (talk ++ [(request, reply)]) = looks talk := by
  rw [looks_append, looks, looks, List.filterMap_cons_none h, List.filterMap_nil, List.append_nil]

theorem looks_snoc_info : looks (talk ++ [(.info cursor, .market m)]) = looks talk ++ [m] := looks_append ..

theorem cursorAfter_snoc_info : cursorAfter (talk ++ [(.info cursor, .market m)]) = m.cursor := by
  simp [cursorAfter, looks_snoc_info]

theorem priceAfter_snoc_info :
    priceAfter (talk ++ [(.info cursor, .market m)]) = m.latest?.getD (priceAfter talk) := by
  rw [priceAfter, priceAfter, looks_snoc_info, List.filterMap_append]
  cases hlatest : m.latest? with
  | none => simp [hlatest]
  | some price => simp [hlatest]

theorem services_append (asked more : List Request) :
    services (asked ++ more) = services asked ++ services more :=
  List.filterMap_append

end Lists

namespace Conversation

variable {params : Params} {talk : List (Request × Reply)} {request : Request} {x : Request × Reply}

/-- How far a conversation has come. -/
inductive Shape (talk : List (Request × Reply)) : Prop where
  | silent (h : talk = [])
  | signedUp (reply : Reply) (h : talk = [(.signUp, reply)])
  | rounds (first second : Reply) (rest : List (Request × Reply))
      (h : talk = (.signUp, first) :: (.signIn, second) :: rest)
      (hrounds : services (rest.map Prod.fst) ∈ Service.round∗)

theorem round_mem_rounds {done round : List Service}
    (hdone : done ∈ Service.round∗) (hround : round ∈ Service.round) :
    done ++ round ∈ Service.round∗ := by
  rw [← Language.one_add_kstar_mul_self_eq_kstar]
  exact .inr (Language.append_mem_mul hdone hround)

theorem look_mem_round : [Service.look] ∈ Service.round :=
  Language.mem_mul.mpr ⟨[.look], rfl, [], .inl rfl, rfl⟩

theorem look_order_mem_round : [Service.look, Service.order] ∈ Service.round :=
  Language.mem_mul.mpr ⟨[.look], rfl, [.order], .inr rfl, rfl⟩

theorem shape_snoc (hshape : Shape talk) (hearlier : ∀ earlier x, talk = earlier ++ [x] → Shape earlier)
    (hallows : Allows params talk request) (reply : Reply) : Shape (talk ++ [(request, reply)]) := by
  cases hallows with
  | signUp hfirst => exact .signedUp reply (by rw [hfirst]; rfl)
  | signIn hsignedUp => exact .rounds .done reply [] (by rw [hsignedUp]; rfl) (Language.nil_mem_kstar _)
  | info hsignedIn =>
    cases hshape with
    | silent h => simp [h] at hsignedIn
    | signedUp first h => simp [h] at hsignedIn
    | rounds first second rest h hrounds =>
      refine .rounds first second (rest ++ [(.info (cursorAfter talk), reply)]) (by simp [h]) ?_
      rw [List.map_append, services_append]
      exact round_mem_rounds hrounds look_mem_round
  | order earlier cursor m price hlooked =>
    cases hearlier earlier _ hlooked with
    | silent h =>
      cases hshape <;> simp_all
    | signedUp first h =>
      cases hshape <;> simp_all
    | rounds first second rest h hrounds =>
      let order := Request.order params.kind.orderKind params.unit price
      refine .rounds first second (rest ++ [(.info cursor, .market m), (order, reply)]) ?_ ?_
      · rw [hlooked, h]
        simp [order]
      · rw [List.map_append, services_append]
        exact round_mem_rounds hrounds look_order_mem_round

/-- Every conversation signs up, signs in, and goes round, as far as it has come. -/
theorem shape (h : Conversation params talk) : Shape talk := by
  -- An order looks back past the look before it, so the shapes of all that came before are carried along.
  suffices hboth : Shape talk ∧ ∀ earlier x, talk = earlier ++ [x] → Shape earlier from hboth.1
  induction h with
  | nil => exact ⟨.silent rfl, by simp⟩
  | snoc reply _ hallows ih =>
    obtain ⟨hshape, hearlier⟩ := ih
    refine ⟨shape_snoc hshape hearlier hallows reply, fun earlier x heq => ?_⟩
    obtain ⟨rfl, _⟩ := List.append_inj' heq rfl
    exact hshape

/-- Each request of a conversation was allowed by the answers before it. -/
theorem allows (h : Conversation params talk) {n : Nat} (hx : talk[n]? = some x) :
    Allows params (talk.take n) x.1 := by
  induction h with
  | nil => simp at hx
  | @snoc talk request reply h hallows ih =>
    by_cases hn : n < talk.length
    · rw [List.getElem?_append_left hn] at hx
      rw [List.take_append_of_le_length (Nat.le_of_lt hn)]
      exact ih hx
    · obtain ⟨hlength, _⟩ := List.getElem?_eq_some_iff.mp hx
      obtain rfl : n = talk.length := by
        simp at hlength
        omega
      obtain rfl : (request, reply) = x := by simpa using hx
      rw [List.take_left]
      exact hallows

/-- What a conversation asks can be completed to the whole protocol. -/
theorem completes (h : Conversation params talk) :
    ∃ rest, services (talk.map Prod.fst) ++ rest ∈ Service.protocol := by
  have hprotocol {rounds : List Service} (h : rounds ∈ Service.round∗) :
      [Service.signUp, Service.signIn] ++ rounds ∈ Service.protocol :=
    have hfirst : [Service.signUp] ++ [Service.signIn] ∈ ({[.signUp]} * {[.signIn]} : Language Service) :=
      Language.append_mem_mul rfl rfl
    Language.append_mem_mul hfirst h
  have hnone := hprotocol (Language.nil_mem_kstar _)
  cases h.shape with
  | silent h => exact ⟨[.signUp, .signIn], by rw [h]; exact hnone⟩
  | signedUp reply h => exact ⟨[.signIn], by rw [h]; exact hnone⟩
  | rounds first second rest h hrounds =>
    refine ⟨[], ?_⟩
    rw [h, List.append_nil]
    exact hprotocol hrounds

end Conversation

end ExchangeLoad
