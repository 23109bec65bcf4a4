import ExchangeLoad.Identity
import ExchangeLoad.Json.Value
import ExchangeLoad.Lifecycle
import ExchangeLoad.Params
import ExchangeLoad.Word

/-!
Reading domain values from JSON documents, and their documents.

A record may be an object, in any order and with keys nobody asked for, or an array of its fields in
their order. A name from a fixed list may stand alone or as the only key of an object whose value is
null. A key that is asked for may occur once.
-/

namespace ExchangeLoad.Json

/-- The text that a document is. -/
def text? : Json → Option String
  | str s => some s
  | _ => none

/-- The counter value that a document is. -/
def word? : Json → Option Int
  | int n => if Word.Fits n then some n else none
  | _ => none

/-- The name that a document is. -/
def name? : Json → Option String
  | str s => some s
  | obj [(s, null)] => some s
  | _ => none

/-- The member of a list that bears the name that a document is. -/
def named? {α : Type} (name : α → String) (all : List α) (v : Json) : Option α := do
  let s ← v.name?
  all.find? (name · == s)

/-- The one value of a key: none inside where the key is absent, none where it occurs twice. -/
def once? (members : List (String × Json)) (key : String) : Option (Option Json) :=
  match members.filter (·.1 == key) with
  | [] => some none
  | [(_, v)] => some (some v)
  | _ => none

/-- The fields of a record in the order of their keys: none inside for each that is absent. -/
def record? (keys : List String) : Json → Option (List (Option Json))
  | obj members => keys.mapM (once? members)
  | arr items =>
    if items.length ≤ keys.length then
      some (items.map some ++ List.replicate (keys.length - items.length) none)
    else none
  | _ => none

end ExchangeLoad.Json

namespace ExchangeLoad

open Json

/-- The document of an identity. -/
def Identity.toJson (id : Identity) : Json := .str id.token

/-- The identity that a document is. -/
def Identity.ofJson? (v : Json) : Option Identity := v.text?.map Identity.mk

/-- The document of a state. -/
def Lifecycle.toJson (a : Lifecycle) : Json := .str a.name

/-- The state that a document is. -/
def Lifecycle.ofJson? (v : Json) : Option Lifecycle := v.named? Lifecycle.name Lifecycle.all

/-- The document of a strategy. -/
def StrategyKind.toJson (k : StrategyKind) : Json := .str k.name

/-- The strategy that a document is. -/
def StrategyKind.ofJson? (v : Json) : Option StrategyKind :=
  v.named? StrategyKind.name [.creditHeavy, .coinHeavy]

/-- The document of an order's side. -/
def OrderKind.toJson (k : OrderKind) : Json := .str k.text

/-- The side of an order that a document is. -/
def OrderKind.ofJson? (v : Json) : Option OrderKind := v.named? OrderKind.text [.buy, .sell]

namespace Params

/-- The keys of the document, in order. -/
def keys : List String := ["kind", "credit", "coins", "unit_amount", "base_price"]

/-- The document of an investor's parameters. -/
def toJson (p : Params) : Json :=
  .obj [("kind", p.kind.toJson), ("credit", .int p.credit), ("coins", .int p.coins),
    ("unit_amount", .int p.unit), ("base_price", .int p.base)]

/-- The parameters that a document holds; every one of them has to be there. -/
def ofJson? (v : Json) : Option Params := do
  match ← v.record? keys with
  | [some kind, some credit, some coins, some unit, some base] =>
    return ⟨← StrategyKind.ofJson? kind, ← credit.word?, ← coins.word?, ← unit.word?, ← base.word?⟩
  | _ => none

end Params

end ExchangeLoad
