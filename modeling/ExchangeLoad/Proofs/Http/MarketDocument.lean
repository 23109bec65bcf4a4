import ExchangeLoad.Proofs.Json.Record
import ExchangeLoad.Http.Session

/-!
What a look at the market reads out of the document that answers it. A cursor, quotes and orders may be
missing, and each order may have a trade; one value of the wrong kind at any depth spoils the document, and
so does a key that occurs twice where it is asked for. Nothing else in the document matters.
-/

namespace ExchangeLoad

open Json

namespace Market

variable {members : List (String × Json)} {order v : Json} {m : Market}

/-- The document of a trade at a price. -/
def TradeDocument (trade : Json) (price : Int) : Prop :=
  ∃ members, trade = .obj members ∧ AtMostOnce members "price" ∧ ("price", .int price) ∈ members ∧ Word.Fits price

/-- The document of an order, whose trade may be missing or null. -/
def OrderDocument (order : Json) : Prop :=
  ∃ members, order = .obj members ∧ AtMostOnce members "trade" ∧
    ∀ trade, ("trade", trade) ∈ members → trade = .null ∨ ∃ price, TradeDocument trade price

/-- An order has a trade at a price. -/
def TradedAt (order : Json) (price : Int) : Prop :=
  ∃ members trade, order = .obj members ∧ ("trade", .obj trade) ∈ members ∧ ("price", .int price) ∈ trade

/-- The prices of the orders that have a trade, in the order of the list. -/
inductive Prices : List Json → List Int → Prop
  | nil : Prices [] []
  | traded {order price orders prices} : TradedAt order price → Prices orders prices →
      Prices (order :: orders) (price :: prices)
  | untraded {order orders prices} : (∀ price, ¬ TradedAt order price) → Prices orders prices →
      Prices (order :: orders) prices

/-- A whole number in the range of a counter. -/
def WordDocument (v : Json) : Prop := ∃ n, v = .int n ∧ Word.Fits n

/-- A document about the market that can be read. -/
structure Document (members : List (String × Json)) : Prop where
  once : ∀ key ∈ keys, AtMostOnce members key
  cursor : ∀ v, ("cursor", v) ∈ members → WordDocument v
  ask : ∀ v, ("lowest_sell_price", v) ∈ members → v = .null ∨ WordDocument v
  bid : ∀ v, ("highest_buy_price", v) ∈ members → v = .null ∨ WordDocument v
  orders : ∀ v, ("traded_orders", v) ∈ members → ∃ orders, v = .arr orders ∧ ∀ order ∈ orders, OrderDocument order

/-- What a document says about the market. -/
structure Describes (members : List (String × Json)) (m : Market) : Prop where
  cursor : ("cursor", .int m.cursor) ∈ members ∨ (∀ v, ("cursor", v) ∉ members) ∧ m.cursor = 0
  ask : ∀ n, m.lowestAsk = some n ↔ ("lowest_sell_price", .int n) ∈ members
  bid : ∀ n, m.highestBid = some n ↔ ("highest_buy_price", .int n) ∈ members
  traded : (∃ orders, ("traded_orders", .arr orders) ∈ members ∧ Prices orders m.traded) ∨
    (∀ v, ("traded_orders", v) ∉ members) ∧ m.traded = []

/-- Neither an order nor its trade is written as an array of its values. -/
def KeyedOrder (order : Json) : Prop :=
  (∀ items, order ≠ .arr items) ∧
    ∀ members trade, order = .obj members → ("trade", trade) ∈ members → ∀ items, trade ≠ .arr items

/-- All orders are written with keys. -/
def Keyed (members : List (String × Json)) : Prop :=
  ∀ orders, ("traded_orders", .arr orders) ∈ members → ∀ order ∈ orders, KeyedOrder order

@[simp]
theorem tradeDocument_obj {price : Int} : TradeDocument (.obj members) price ↔
    AtMostOnce members "price" ∧ ("price", .int price) ∈ members ∧ Word.Fits price := by
  constructor
  · rintro ⟨_, ⟨⟩, h⟩
    exact h
  · exact fun h => ⟨members, rfl, h⟩

@[simp]
theorem orderDocument_obj : OrderDocument (.obj members) ↔ AtMostOnce members "trade" ∧
    ∀ trade, ("trade", trade) ∈ members → trade = .null ∨ ∃ price, TradeDocument trade price := by
  constructor
  · rintro ⟨_, ⟨⟩, h⟩
    exact h
  · exact fun h => ⟨members, rfl, h⟩

@[simp]
theorem keyedOrder_obj : KeyedOrder (.obj members) ↔
    ∀ trade, ("trade", trade) ∈ members → ∀ items, trade ≠ .arr items := by
  constructor
  · exact fun h trade => h.2 members trade rfl
  · refine fun h => ⟨fun _ => (nomatch ·), ?_⟩
    rintro _ trade ⟨⟩
    exact h trade

theorem tradePrice?_obj : tradePrice? (.obj members) =
    (once? members "price").bind fun found => found.bind word? := by
  rw [tradePrice?, record?_singleton]
  cases once? members "price" with
  | none => rfl
  | some found => cases found <;> rfl

theorem tradePrice?_eq_some_iff {price : Int} (hkeyed : ∀ items, v ≠ .arr items) :
    tradePrice? v = some price ↔ TradeDocument v price := by
  constructor
  · intro h
    obtain ⟨fields, hfields, -⟩ := Option.bind_eq_some_iff.mp h
    obtain ⟨members, rfl⟩ := exists_obj_of_record? hkeyed hfields
    rw [tradePrice?_obj] at h
    obtain ⟨found, hfound, h⟩ := Option.bind_eq_some_iff.mp h
    obtain ⟨w, rfl, hw⟩ := Option.bind_eq_some_iff.mp h
    obtain ⟨rfl, hfits⟩ := word?_eq_some_iff.mp hw
    obtain ⟨honce, hmem⟩ := once?_eq_some_iff.mp hfound
    exact ⟨members, rfl, honce, (hmem _).mp rfl, hfits⟩
  · rintro ⟨members, rfl, honce, hmem, hfits⟩
    obtain ⟨found, hfound⟩ := honce.exists_once?
    obtain rfl := ((once?_eq_some_iff.mp hfound).2 _).mpr hmem
    rw [tradePrice?_obj, hfound]
    exact word?_eq_some_iff.mpr ⟨rfl, hfits⟩

theorem orderPrice?_obj : orderPrice? (.obj members) =
    (once? members "trade").bind (optional? tradePrice?) := by
  rw [orderPrice?, record?_singleton]
  cases once? members "trade" with
  | none => rfl
  | some found =>
    cases found with
    | none => rfl
    | some trade =>
      cases trade with
      | null => rfl
      | _ =>
        simp only [Option.map_some, Option.bind_eq_bind, Option.bind_some, optional?]
        exact Option.map_eq_bind.symm

theorem tradedAt_iff {price : Int}
    (htrades : ∀ trade, ("trade", trade) ∈ members → trade = .null ∨ ∃ price, TradeDocument trade price) :
    TradedAt (.obj members) price ↔ ∃ trade, ("trade", trade) ∈ members ∧ TradeDocument trade price := by
  constructor
  · rintro ⟨outer, trade, houter, htrade, hprice⟩
    cases houter
    obtain ⟨said, inner, hinner, honce, hsaid, hfits⟩ := (htrades _ htrade).resolve_left (nomatch ·)
    cases hinner
    cases honce.eq hprice hsaid
    exact ⟨_, htrade, _, rfl, honce, hprice, hfits⟩
  · rintro ⟨trade, htrade, inner, rfl, -, hprice, -⟩
    exact ⟨members, inner, rfl, htrade, hprice⟩

/-- An order can be read where its document is one; what was read is the price of its trade. -/
theorem orderPrice?_eq_some_iff {said : Option Int} (hkeyed : KeyedOrder order) :
    orderPrice? order = some said ↔ OrderDocument order ∧ ∀ price, said = some price ↔ TradedAt order price := by
  obtain ⟨hplain, htrades⟩ := hkeyed
  constructor
  · intro h
    obtain ⟨fields, hfields, -⟩ := Option.bind_eq_some_iff.mp h
    obtain ⟨members, rfl⟩ := exists_obj_of_record? hplain hfields
    have hread : ∀ trade, ("trade", trade) ∈ members → ∀ price, tradePrice? trade = some price ↔ _ :=
      fun trade htrade price => tradePrice?_eq_some_iff (htrades members trade rfl htrade)
    rw [orderPrice?_obj, once?_bind_optional?_eq_some_iff rfl] at h
    obtain ⟨honce, hvalues, hsaid⟩ := h
    have hdocuments : ∀ trade, ("trade", trade) ∈ members → trade = .null ∨ ∃ price, TradeDocument trade price :=
      fun trade htrade => (hvalues trade htrade).imp_right fun ⟨price, hprice⟩ =>
        ⟨price, (hread trade htrade price).mp hprice⟩
    refine ⟨⟨members, rfl, honce, hdocuments⟩, fun price => ?_⟩
    rw [hsaid, tradedAt_iff hdocuments]
    exact exists_congr fun trade => and_congr_right fun htrade => hread trade htrade price
  · rintro ⟨⟨members, rfl, honce, hdocuments⟩, hsaid⟩
    have hread : ∀ trade, ("trade", trade) ∈ members → ∀ price, tradePrice? trade = some price ↔ _ :=
      fun trade htrade price => tradePrice?_eq_some_iff (htrades members trade rfl htrade)
    rw [orderPrice?_obj, once?_bind_optional?_eq_some_iff rfl]
    refine ⟨honce, fun trade htrade => (hdocuments trade htrade).imp_right fun ⟨price, hprice⟩ =>
      ⟨price, (hread trade htrade price).mpr hprice⟩, fun price => ?_⟩
    rw [hsaid, tradedAt_iff hdocuments]
    exact exists_congr fun trade => and_congr_right fun htrade => (hread trade htrade price).symm

theorem OrderDocument.exists_orderPrice? (h : OrderDocument order) (hkeyed : KeyedOrder order) :
    ∃ said, orderPrice? order = some said := by
  obtain ⟨members, rfl, honce, hdocuments⟩ := h
  rw [orderPrice?_obj]
  refine exists_once?_bind_optional? honce fun trade htrade => (hdocuments trade htrade).imp_right ?_
  rintro ⟨price, hprice⟩
  exact ⟨price, (tradePrice?_eq_some_iff (hkeyed.2 members trade rfl htrade)).mpr hprice⟩

/-- The prices of the orders in an array. -/
def pricesOf? : Json → Option (List Int)
  | .arr orders => (orders.mapM orderPrice?).map fun prices => prices.filterMap id
  | _ => none

theorem tradedPrices?_eq : tradedPrices? = fun found => found.elim (some []) pricesOf? := by
  funext found
  cases found with
  | none => rfl
  | some v => cases v <;> rfl

theorem pricesOf?_cons {orders : List Json} : pricesOf? (.arr (order :: orders)) =
    (orderPrice? order).bind fun said => (pricesOf? (.arr orders)).map fun prices => said.toList ++ prices := by
  rw [pricesOf?, pricesOf?, List.mapM_cons]
  cases orderPrice? order with
  | none => rfl
  | some said => cases orders.mapM orderPrice? <;> cases said <;> rfl

/-- Orders can be read if every one of them can, and what was read is the list of the prices of those that
    have a trade. -/
theorem pricesOf?_eq_some_iff {orders : List Json} {prices : List Int} (hkeyed : ∀ order ∈ orders, KeyedOrder order) :
    pricesOf? (.arr orders) = some prices ↔ (∀ order ∈ orders, OrderDocument order) ∧ Prices orders prices := by
  induction orders generalizing prices with
  | nil =>
    constructor
    · rintro ⟨⟩
      exact ⟨List.forall_mem_nil _, .nil⟩
    · rintro ⟨-, ⟨⟩⟩
      rfl
  | cons order orders ih =>
    obtain ⟨horder, hrest⟩ := List.forall_mem_cons.mp hkeyed
    rw [pricesOf?_cons, Option.bind_eq_some_iff, List.forall_mem_cons]
    constructor
    · rintro ⟨said, hsaid, h⟩
      obtain ⟨rest, hprices, rfl⟩ := Option.map_eq_some_iff.mp h
      obtain ⟨hdocument, htraded⟩ := (orderPrice?_eq_some_iff horder).mp hsaid
      obtain ⟨hdocuments, hprices⟩ := (ih hrest).mp hprices
      refine ⟨⟨hdocument, hdocuments⟩, ?_⟩
      cases said with
      | none => exact .untraded (fun price hprice => nomatch (htraded price).mpr hprice) hprices
      | some price => exact .traded ((htraded price).mp rfl) hprices
    · rintro ⟨⟨hdocument, hdocuments⟩, hprices⟩
      obtain ⟨said, hsaid⟩ := hdocument.exists_orderPrice? horder
      obtain ⟨-, htraded⟩ := (orderPrice?_eq_some_iff horder).mp hsaid
      refine ⟨said, hsaid, Option.map_eq_some_iff.mpr ?_⟩
      cases hprices with
      | traded hprice hprices =>
        obtain rfl := (htraded _).mpr hprice
        exact ⟨_, (ih hrest).mpr ⟨hdocuments, hprices⟩, rfl⟩
      | untraded hnone hprices =>
        obtain rfl : said = none := Option.eq_none_iff_forall_ne_some.mpr
          fun price hprice => hnone price ((htraded price).mp hprice)
        exact ⟨_, (ih hrest).mpr ⟨hdocuments, hprices⟩, rfl⟩

theorem exists_pricesOf? {orders : List Json} (hkeyed : ∀ order ∈ orders, KeyedOrder order)
    (hdocuments : ∀ order ∈ orders, OrderDocument order) : ∃ prices, pricesOf? (.arr orders) = some prices := by
  induction orders with
  | nil => exact ⟨[], rfl⟩
  | cons order orders ih =>
    obtain ⟨horder, hrest⟩ := List.forall_mem_cons.mp hkeyed
    obtain ⟨hdocument, hdocuments⟩ := List.forall_mem_cons.mp hdocuments
    obtain ⟨said, hsaid⟩ := hdocument.exists_orderPrice? horder
    obtain ⟨prices, hprices⟩ := ih hrest hdocuments
    exact ⟨said.toList ++ prices, by rw [pricesOf?_cons, hsaid, hprices]; rfl⟩

theorem quote?_eq : quote? = optional? word? := by
  funext found
  cases found with
  | none => rfl
  | some v => cases v <;> rfl

theorem record?_keys {fields : List (Option Json)} : (obj members).record? keys = some fields ↔
    ∃ cursor ask bid orders, fields = [cursor, ask, bid, orders] ∧ once? members "cursor" = some cursor ∧
      once? members "lowest_sell_price" = some ask ∧ once? members "highest_buy_price" = some bid ∧
      once? members "traded_orders" = some orders := by
  simp only [record?, keys, List.mapM_cons, List.mapM_nil, Option.bind_eq_bind, Option.pure_def,
    Option.bind_eq_some_iff, Option.some.injEq]
  constructor
  · rintro ⟨cursor, hcursor, _, ⟨ask, hask, _, ⟨bid, hbid, _, ⟨orders, horders, _, rfl, rfl⟩, rfl⟩, rfl⟩, rfl⟩
    exact ⟨cursor, ask, bid, orders, rfl, hcursor, hask, hbid, horders⟩
  · rintro ⟨cursor, ask, bid, orders, rfl, hcursor, hask, hbid, horders⟩
    exact ⟨cursor, hcursor, _, ⟨ask, hask, _, ⟨bid, hbid, _, ⟨orders, horders, _, rfl, rfl⟩, rfl⟩, rfl⟩, rfl⟩

/-- The four fields of a document are read one by one. -/
theorem ofJson?_obj_eq_some_iff : ofJson? (.obj members) = some m ↔
    ((once? members "cursor").bind fun found => found.elim (some 0) word?) = some m.cursor ∧
    (once? members "lowest_sell_price").bind (optional? word?) = some m.lowestAsk ∧
    (once? members "highest_buy_price").bind (optional? word?) = some m.highestBid ∧
    ((once? members "traded_orders").bind fun found => found.elim (some []) pricesOf?) = some m.traded := by
  obtain ⟨cursor, ask, bid, traded⟩ := m
  simp only [ofJson?, quote?_eq, tradedPrices?_eq, Option.bind_eq_bind, Option.pure_def, Option.bind_eq_some_iff,
    record?_keys]
  constructor
  · rintro ⟨_, ⟨cursor?, ask?, bid?, orders?, rfl, hcursor, hask, hbid, horders⟩, h⟩
    simp only [Option.bind_eq_some_iff, Option.some.injEq, mk.injEq] at h
    obtain ⟨_, hreadCursor, _, hreadAsk, _, hreadBid, _, hreadOrders, rfl, rfl, rfl, rfl⟩ := h
    exact ⟨⟨_, hcursor, hreadCursor⟩, ⟨_, hask, hreadAsk⟩, ⟨_, hbid, hreadBid⟩, ⟨_, horders, hreadOrders⟩⟩
  · rintro ⟨⟨cursor?, hcursor, hreadCursor⟩, ⟨ask?, hask, hreadAsk⟩, ⟨bid?, hbid, hreadBid⟩,
      ⟨orders?, horders, hreadOrders⟩⟩
    refine ⟨_, ⟨cursor?, ask?, bid?, orders?, rfl, hcursor, hask, hbid, horders⟩, ?_⟩
    simp only [hreadCursor, hreadAsk, hreadBid, hreadOrders, Option.bind_some]

theorem quoteField_eq_some_iff {key : String} {said : Option Int} :
    (once? members key).bind (optional? word?) = some said ↔ AtMostOnce members key ∧
      (∀ v, (key, v) ∈ members → v = .null ∨ WordDocument v) ∧ ∀ n, said = some n ↔ (key, .int n) ∈ members := by
  rw [once?_bind_optional?_eq_some_iff rfl]
  simp only [word?_eq_some_iff]
  refine and_congr_right fun _ => and_congr_right fun hvalues => forall_congr' fun n => ?_
  have hword : (∃ v, (key, v) ∈ members ∧ v = .int n ∧ Word.Fits n) ↔ (key, .int n) ∈ members := by
    constructor
    · rintro ⟨v, hv, rfl, -⟩
      exact hv
    · intro hv
      obtain ⟨_, ⟨⟩, hfits⟩ := (hvalues _ hv).resolve_left (nomatch ·)
      exact ⟨_, hv, rfl, hfits⟩
  rw [hword]

theorem cursorField_eq_some_iff {key : String} {n : Int} :
    ((once? members key).bind fun found => found.elim (some 0) word?) = some n ↔ AtMostOnce members key ∧
      (∀ v, (key, v) ∈ members → WordDocument v) ∧
      ((key, .int n) ∈ members ∨ (∀ v, (key, v) ∉ members) ∧ n = 0) := by
  rw [once?_bind_elim_eq_some_iff]
  simp only [word?_eq_some_iff]
  refine and_congr_right fun honce => ⟨?_, ?_⟩
  · rintro (⟨v, hv, rfl, hfits⟩ | ⟨habsent, rfl⟩)
    · exact ⟨fun w hw => honce.eq hv hw ▸ ⟨n, rfl, hfits⟩, .inl hv⟩
    · exact ⟨fun w hw => absurd hw (habsent w), .inr ⟨habsent, rfl⟩⟩
  · rintro ⟨hvalues, hv | habsent⟩
    · obtain ⟨_, ⟨⟩, hfits⟩ := hvalues _ hv
      exact .inl ⟨_, hv, rfl, hfits⟩
    · exact .inr habsent

theorem ordersField_eq_some_iff {prices : List Int} (hkeyed : Keyed members) :
    ((once? members "traded_orders").bind fun found => found.elim (some []) pricesOf?) = some prices ↔
      AtMostOnce members "traded_orders" ∧
      (∀ v, ("traded_orders", v) ∈ members →
        ∃ orders, v = .arr orders ∧ ∀ order ∈ orders, OrderDocument order) ∧
      ((∃ orders, ("traded_orders", .arr orders) ∈ members ∧ Prices orders prices) ∨
        (∀ v, ("traded_orders", v) ∉ members) ∧ prices = []) := by
  rw [once?_bind_elim_eq_some_iff]
  refine and_congr_right fun honce => ⟨?_, ?_⟩
  · rintro (⟨v, hv, hread⟩ | ⟨habsent, rfl⟩)
    · cases v with
      | arr orders =>
        obtain ⟨hdocuments, hprices⟩ := (pricesOf?_eq_some_iff (hkeyed orders hv)).mp hread
        exact ⟨fun w hw => ⟨orders, (honce.eq hv hw).symm, hdocuments⟩, .inl ⟨orders, hv, hprices⟩⟩
      | _ => cases hread
    · exact ⟨fun w hw => absurd hw (habsent w), .inr ⟨habsent, rfl⟩⟩
  · rintro ⟨hvalues, ⟨orders, hv, hprices⟩ | habsent⟩
    · obtain ⟨_, ⟨⟩, hdocuments⟩ := hvalues _ hv
      exact .inl ⟨_, hv, (pricesOf?_eq_some_iff (hkeyed orders hv)).mpr ⟨hdocuments, hprices⟩⟩
    · exact .inr habsent

/-- What is read is what the document says, if it can be read. -/
theorem ofJson?_eq_some_iff (hkeyed : Keyed members) :
    ofJson? (.obj members) = some m ↔ Document members ∧ Describes members m := by
  rw [ofJson?_obj_eq_some_iff, cursorField_eq_some_iff, quoteField_eq_some_iff, quoteField_eq_some_iff,
    ordersField_eq_some_iff hkeyed]
  constructor
  · rintro ⟨⟨hc, hcursor, hsaid⟩, ⟨ha, hask, haskSaid⟩, ⟨hb, hbid, hbidSaid⟩, ho, horders, hprices⟩
    refine ⟨⟨?_, hcursor, hask, hbid, horders⟩, hsaid, haskSaid, hbidSaid, hprices⟩
    simp only [keys, List.forall_mem_cons]
    exact ⟨hc, ha, hb, ho, List.forall_mem_nil _⟩
  · rintro ⟨⟨honce, hcursor, hask, hbid, horders⟩, hsaid, haskSaid, hbidSaid, hprices⟩
    simp only [keys, List.forall_mem_cons] at honce
    obtain ⟨hc, ha, hb, ho, -⟩ := honce
    exact ⟨⟨hc, hcursor, hsaid⟩, ⟨ha, hask, haskSaid⟩, ⟨hb, hbid, hbidSaid⟩, ho, horders, hprices⟩

theorem Document.exists_ofJson? (h : Document members) (hkeyed : Keyed members) :
    ∃ m, ofJson? (.obj members) = some m := by
  obtain ⟨honce, hcursor, hask, hbid, horders⟩ := h
  simp only [keys, List.forall_mem_cons] at honce
  obtain ⟨hc, ha, hb, ho, -⟩ := honce
  have hword : ∀ v, WordDocument v → ∃ n, v.word? = some n :=
    fun v ⟨n, hn⟩ => ⟨n, word?_eq_some_iff.mpr hn⟩
  obtain ⟨cursor, hcursor⟩ := exists_once?_bind_elim word? 0 hc fun v hv => hword v (hcursor v hv)
  obtain ⟨ask, hask⟩ := exists_once?_bind_optional? ha fun v hv => (hask v hv).imp_right (hword v)
  obtain ⟨bid, hbid⟩ := exists_once?_bind_optional? hb fun v hv => (hbid v hv).imp_right (hword v)
  have hprices : ∀ v, ("traded_orders", v) ∈ members → ∃ prices, pricesOf? v = some prices := by
    intro v hv
    obtain ⟨orders, rfl, hdocuments⟩ := horders v hv
    exact exists_pricesOf? (hkeyed orders hv) hdocuments
  obtain ⟨traded, htraded⟩ := exists_once?_bind_elim pricesOf? [] ho hprices
  exact ⟨⟨cursor, ask, bid, traded⟩, ofJson?_obj_eq_some_iff.mpr ⟨hcursor, hask, hbid, htraded⟩⟩

/-- An object without the members that nobody asks for. -/
def keepOnly (keys : List String) : Json → Json
  | .obj members => .obj (members.filter fun m => keys.contains m.1)
  | v => v

/-- What is read of an order. -/
def essentialOrder : Json → Json
  | .obj members =>
    .obj ((members.filter fun m => ["trade"].contains m.1).map fun m => (m.1, keepOnly ["price"] m.2))
  | v => v

/-- What is read of the value of a key. -/
def essentialValue (key : String) (v : Json) : Json :=
  match v with
  | .arr orders => if key = "traded_orders" then .arr (orders.map essentialOrder) else v
  | _ => v

/-- What is read of a document about the market. -/
def essence (members : List (String × Json)) : List (String × Json) :=
  (members.filter fun m => keys.contains m.1).map fun m => (m.1, essentialValue m.1 m.2)

theorem tradePrice?_keepOnly (trade : Json) : tradePrice? (keepOnly ["price"] trade) = tradePrice? trade := by
  cases trade with
  | obj members => rw [keepOnly, tradePrice?_obj, tradePrice?_obj, once?_filter rfl]
  | _ => rfl

theorem keepOnly_eq_null {keys : List String} : keepOnly keys v = .null ↔ v = .null := by
  cases v <;> simp [keepOnly]

theorem orderPrice?_essentialOrder (order : Json) : orderPrice? (essentialOrder order) = orderPrice? order := by
  cases order with
  | obj members =>
    rw [essentialOrder, orderPrice?_obj, orderPrice?_obj, once?_map fun _ => keepOnly ["price"], once?_filter rfl,
      Option.bind_map]
    congr 1
    exact funext (optional?_map (fun _ => keepOnly_eq_null) tradePrice?_keepOnly)
  | _ => rfl

theorem pricesOf?_essentialValue (v : Json) : pricesOf? (essentialValue "traded_orders" v) = pricesOf? v := by
  cases v with
  | arr orders =>
    have hsame : ∀ orders : List Json, (orders.map essentialOrder).mapM orderPrice? = orders.mapM orderPrice? := by
      intro orders
      induction orders with
      | nil => rfl
      | cons order orders ih => rw [List.map_cons, List.mapM_cons, List.mapM_cons, ih, orderPrice?_essentialOrder]
    rw [essentialValue, if_pos rfl, pricesOf?, pricesOf?, hsame]
  | _ => rfl

theorem once?_essence {key : String} (h : keys.contains key = true) :
    once? (essence members) key = (once? members key).map (Option.map (essentialValue key)) := by
  rw [essence, once?_map essentialValue, once?_filter h]

theorem once?_essence_of_ne {key : String} (h : keys.contains key = true) (hne : key ≠ "traded_orders") :
    once? (essence members) key = once? members key := by
  have hsame : essentialValue key = id := by
    funext v
    cases v <;> simp [essentialValue, hne]
  rw [once?_essence h, hsame, Option.map_id, Option.map_id]
  rfl

/-- Keys that nobody asks for make no difference, in the document, in an order or in a trade. -/
theorem ofJson?_essence (members : List (String × Json)) :
    ofJson? (.obj (essence members)) = ofJson? (.obj members) := by
  have horders : ((once? (essence members) "traded_orders").bind fun found => found.elim (some []) pricesOf?) =
      (once? members "traded_orders").bind fun found => found.elim (some []) pricesOf? := by
    rw [once?_essence rfl, Option.bind_map]
    congr 1
    funext found
    cases found with
    | none => rfl
    | some v => exact pricesOf?_essentialValue v
  refine Option.ext fun m => ?_
  rw [ofJson?_obj_eq_some_iff, ofJson?_obj_eq_some_iff, horders, once?_essence_of_ne rfl (by decide),
    once?_essence_of_ne rfl (by decide), once?_essence_of_ne rfl (by decide)]

end Market

end ExchangeLoad
