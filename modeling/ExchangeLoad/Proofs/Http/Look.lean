import ExchangeLoad.Proofs.Http.MarketDocument
import ExchangeLoad.Proofs.Trader.Books
import Mathlib

/-!
Looks at the market that are answered with success, in full and in time. Such a look succeeds where the
answer holds a document about the market, tells what that document says, and shows the trader that looked
the price of its latest trade.
-/

namespace ExchangeLoad

open Json

namespace Market

variable {members : List (String × Json)} {m : Market}

/-- The last order in a document that has a trade has it at a price. -/
def LastTraded (members : List (String × Json)) (price : Int) : Prop :=
  ∃ before order later, ("traded_orders", .arr (before ++ order :: later)) ∈ members ∧ TradedAt order price ∧
    ∀ o ∈ later, ∀ price, ¬ TradedAt o price

/-- No order in a document has a trade. -/
def NoneTraded (members : List (String × Json)) : Prop :=
  ∀ orders, ("traded_orders", .arr orders) ∈ members → ∀ order ∈ orders, ∀ price, ¬ TradedAt order price

/-- The last price belongs to the last order that has a trade. -/
theorem Prices.getLast? {orders : List Json} {prices : List Int} (h : Prices orders prices) :
    (∀ order ∈ orders, ∀ price, ¬ TradedAt order price) ∧ prices.getLast? = none ∨
    ∃ before order later price, orders = before ++ order :: later ∧ TradedAt order price ∧
      (∀ o ∈ later, ∀ price, ¬ TradedAt o price) ∧ prices.getLast? = some price := by
  induction h with
  | nil => exact .inl ⟨List.forall_mem_nil _, rfl⟩
  | @traded order price orders prices hprice _ ih =>
    obtain ⟨hnone, hlast⟩ | ⟨before, last, later, p, rfl, hp, hlater, hlast⟩ := ih
    · refine .inr ⟨[], order, orders, price, rfl, hprice, hnone, ?_⟩
      rw [List.getLast?_eq_none_iff.mp hlast]
      rfl
    · refine .inr ⟨order :: before, last, later, p, rfl, hp, hlater, ?_⟩
      rw [List.getLast?_cons, hlast]
      rfl
  | @untraded order orders prices hnone _ ih =>
    obtain ⟨hrest, hlast⟩ | ⟨before, last, later, p, rfl, hp, hlater, hlast⟩ := ih
    · exact .inl ⟨List.forall_mem_cons.mpr ⟨hnone, hrest⟩, hlast⟩
    · exact .inr ⟨order :: before, last, later, p, rfl, hp, hlater, hlast⟩

theorem Describes.latest? (h : Describes members m) (honce : AtMostOnce members "traded_orders") :
    (NoneTraded members ∧ m.latest? = none) ∨ ∃ price, LastTraded members price ∧ m.latest? = some price := by
  obtain ⟨orders, horders, hprices⟩ | ⟨habsent, hnone⟩ := h.traded
  · obtain ⟨hnone, hlast⟩ | ⟨before, order, later, price, rfl, hprice, hlater, hlast⟩ := hprices.getLast?
    · refine .inl ⟨fun others hothers => ?_, hlast⟩
      cases honce.eq horders hothers
      exact hnone
    · exact .inr ⟨price, ⟨before, order, later, horders, hprice, hlater⟩, hlast⟩
  · exact .inl ⟨fun orders horders => absurd horders (habsent _), by rw [Market.latest?, hnone]; rfl⟩

end Market

/-- A trader that is answered about the market takes the price of the latest trade for its own. -/
theorem Investor.exists_resume_asking {v : Investor} (hv : v.IsTrader) (price cursor : Int) (m : Market)
    (aborted : Bool) : ∃ after points progress,
      v.resume (.asking price cursor) (.market m) aborted = some (after, points, progress) ∧
      after.price = m.latest?.getD v.price := by
  have hlearnt : ((v.heard (.asking price cursor) (.market m)).learn m).price = m.latest?.getD v.price :=
    (learn_knows (v := v.heard (.asking price cursor) (.market m)) hv).2
  cases aborted with
  | true => exact ⟨_, _, _, rfl, free_keeps.2.2.1.trans hlearnt⟩
  | false => exact ⟨_, _, _, rfl, hlearnt⟩

namespace Http.Session

variable {s : Session} {now cursor : Int} {send : Message → Delivery} {members : List (String × Json)}

/-- A look at the market is answered with success, in full and in time, by an object. -/
def Receives (s : Session) (now cursor : Int) (send : Message → Delivery) (members : List (String × Json)) : Prop :=
  ∃ m status setting text, s.message now (.info cursor) = .ok m ∧
    (send m).fate = .answered status setting (.whole text) ∧ isSuccess status = true ∧
    Json.parse text = some (.obj members)

/-- What is said when the answer to a look at the market cannot be read. -/
def unreadable : Fault := .plain "Failed to parse /info response"

theorem Receives.reply_eq (h : s.Receives now cursor send members) : (s.ask now (.info cursor) send).2 =
    (Market.ofJson? (.obj members)).elim (.failed unreadable) .market := by
  obtain ⟨m, status, setting, text, hmessage, hfate, hsuccess, hparse⟩ := h
  rw [ask, hmessage]
  simp only [reply, hfate, hsuccess, if_true, read, document?, hparse, Option.bind_some]
  cases Market.ofJson? (.obj members) <;> rfl

/-- A look at the market that is answered with success, in full and in time, by an object whose orders and
    trades are written with keys. It succeeds if and only if the object is a document about the market, and
    fails as unreadable otherwise. What it tells is what the document says; two answers that differ in
    members that nobody asks for, at any depth, are told alike. And the trader that looked takes the price
    of the last order with a trade for the latest price, or keeps the one it had where there is none. -/
theorem look_reads_document (hreceives : s.Receives now cursor send members) (hkeyed : Market.Keyed members) :
    let reply := (s.ask now (.info cursor) send).2
    ((∃ m, reply = .market m) ↔ Market.Document members) ∧
    (¬ Market.Document members → reply = .failed unreadable) ∧
    (∀ m, reply = .market m → Market.Describes members m) ∧
    (∀ (s' : Session) now' cursor' send' members', s'.Receives now' cursor' send' members' →
      Market.essence members' = Market.essence members → (s'.ask now' (.info cursor') send').2 = reply) ∧
    ∀ m, reply = .market m → ∀ v : Investor, v.IsTrader → ∀ price aborted, ∃ after points progress,
      v.resume (.asking price cursor) reply aborted = some (after, points, progress) ∧
      (Market.LastTraded members after.price ∨ Market.NoneTraded members ∧ after.price = v.price) := by
  intro reply
  have hreply : reply = (Market.ofJson? (.obj members)).elim (.failed unreadable) .market := hreceives.reply_eq
  have hread : ∀ m, reply = .market m ↔ Market.ofJson? (.obj members) = some m := by
    intro m
    rw [hreply]
    cases Market.ofJson? (.obj members) <;> simp
  have hmarket : ∀ m, reply = .market m → Market.Document members ∧ Market.Describes members m :=
    fun m hm => (Market.ofJson?_eq_some_iff hkeyed).mp ((hread m).mp hm)
  refine ⟨⟨fun ⟨m, hm⟩ => (hmarket m hm).1, fun hdocument => ?_⟩, fun hspoilt => ?_, fun m hm => (hmarket m hm).2,
    ?_, ?_⟩
  · obtain ⟨m, hm⟩ := hdocument.exists_ofJson? hkeyed
    exact ⟨m, (hread m).mpr hm⟩
  · have hnone : Market.ofJson? (.obj members) = none := Option.eq_none_iff_forall_ne_some.mpr
      fun m hm => hspoilt (hmarket m ((hread m).mpr hm)).1
    rw [hreply, hnone]
    rfl
  · intro s' now' cursor' send' members' hreceives' hessence
    rw [hreceives'.reply_eq, hreply, ← Market.ofJson?_essence members', hessence, Market.ofJson?_essence]
  · intro m hm v hv price aborted
    obtain ⟨hdocument, hdescribes⟩ := hmarket m hm
    obtain ⟨after, points, progress, hresume, hprice⟩ := Investor.exists_resume_asking hv price cursor m aborted
    refine ⟨after, points, progress, by rw [hm, hresume], ?_⟩
    rw [hprice]
    obtain ⟨hnone, hlatest⟩ | ⟨p, hp, hlatest⟩ := hdescribes.latest? (hdocument.once _ (by decide))
    · exact .inr ⟨hnone, by rw [hlatest]; rfl⟩
    · exact .inl (by rw [hlatest]; exact hp)

/-- A document with a quote, two orders of which the first has a trade, and a key that nobody asks for. -/
def sale : List (String × Json) :=
  [("share", .int 1), ("lowest_sell_price", .int 105),
    ("traded_orders", .arr [.obj [("trade", .obj [("price", .int 101)])], .obj []])]

/-- A guest is told of the sale; there is no bid. -/
theorem look_reads_document_of_sale :
    let s := fresh "http://localhost" .guest ⟨300, 100⟩
    let text := "\x7b\"share\":1,\"lowest_sell_price\":105,\"traded_orders\":[\x7b\"trade\":\x7b\"price\":101\x7d\x7d,\x7b\x7d]\x7d"
    s.Receives 0 7 (fun _ => ⟨.answered 200 [] (.whole text), 20⟩) sale ∧ Market.Keyed sale ∧
    ∃ m, (s.ask 0 (.info 7) fun _ => ⟨.answered 200 [] (.whole text), 20⟩).2 = .market m ∧
      m.lowestAsk = some 105 ∧ m.highestBid = none := by
  intro s text
  have hparse : Json.parse text = some (.obj sale) := by
    unfold text
    cbv
  have hreceives : s.Receives 0 7 (fun _ => ⟨.answered 200 [] (.whole text), 20⟩) sale :=
    ⟨_, 200, [], text, rfl, rfl, rfl, hparse⟩
  have hkeyed : Market.Keyed sale := by simp [Market.Keyed, sale]
  have hdocument : Market.Document sale := by
    have hprice : Word.Fits 101 := by decide
    have hquote : Word.Fits 105 := by decide
    have hprices : AtMostOnce [("price", .int 101)] "price" := by decide
    have htrades : AtMostOnce [("trade", .obj [("price", .int 101)])] "trade" := by decide
    have hnone : AtMostOnce [] "trade" := by decide
    refine ⟨by decide, ?_, ?_, ?_, ?_⟩ <;>
      simp [sale, Market.WordDocument, hprice, hquote, hprices, htrades, hnone]
  obtain ⟨hsucceeds, -, hdescribes, -⟩ := look_reads_document hreceives hkeyed
  obtain ⟨m, hm⟩ := hsucceeds.mpr hdocument
  obtain ⟨-, hask, hbid, -⟩ := hdescribes m hm
  refine ⟨hreceives, hkeyed, m, hm, (hask 105).mpr (by simp [sale]), ?_⟩
  exact Option.eq_none_iff_forall_ne_some.mpr fun n hn => absurd ((hbid n).mp hn) (by simp [sale])

end Http.Session

end ExchangeLoad
