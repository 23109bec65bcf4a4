import ExchangeLoad.Config.Basic
import ExchangeLoad.Toml.Parser

/-!
Configurations from TOML documents. What a document says is laid over the defaults, key by key; keys
and sections that nobody knows are passed over, and a known key with a value of the wrong kind spoils
the document. A section may also be an array of its values in order.
-/

namespace ExchangeLoad

namespace Toml

/-- The text that a value is. -/
def text? : Toml → Option String
  | str s => some s
  | _ => none

/-- The integer that a value is. -/
def word? : Toml → Option Int
  | int n => some n
  | _ => none

/-- The count that a value is. -/
def count? : Toml → Option Nat
  | int n => if 0 ≤ n then some n.toNat else none
  | _ => none

/-- A section's values in the order of its keys, none inside for each that is absent. -/
def fields? (keys : List String) : Toml → Option (List (Option Toml))
  | table _ members => some (keys.map fun key => members.lookup key)
  | arr items => some ((List.range keys.length).map (items[·]?))
  | tables items => some ((List.range keys.length).map fun i => (items[i]?).map (table .headed))
  | _ => none

/-- The values of a section that a document may lack. -/
def section? (members : Members) (name : String) (keys : List String) :
    Option (List (Option Toml)) :=
  match members.lookup name with
  | none => some (keys.map fun _ => none)
  | some v => v.fields? keys

/-- What a value says, or the default where there is none; none where it says something else. -/
def readOr {α : Type} (read : Toml → Option α) (v : Option Toml) (default : α) : Option α :=
  match v with
  | none => some default
  | some v => read v

end Toml

namespace Config

open Toml

/-- The keys of the section on targets, in order. -/
def Target.keys : List String :=
  ["app_endpoint", "bank_endpoint", "log_endpoint", "internal_bank_endpoint"]

/-- The keys of the section on limits, in order. -/
def Limits.keys : List String := ["allow_error_min", "allow_error_max", "add_workers_by_level"]

/-- The keys of the section on waits, in order. -/
def Waits.keys : List String := ["client_timeout_ms", "retire_timeout_ms", "init_timeout_ms"]

/-- The keys of the section on prefetching, in order. -/
def Prefetch.keys : List String := ["capacity", "retry_delay_ms"]

/-- The keys of the section on times, in order. -/
def Schedule.keys : List String := ["duration_secs", "tick_interval_ms", "shutdown_grace_ms"]

/-- The targets that a section names. -/
def Target.ofFields? : List (Option Toml) → Option Target
  | [app, bank, log, internalBank] => do
    let d := Target.default
    return ⟨← readOr text? app d.app, ← readOr text? bank d.bank, ← readOr text? log d.log,
      ← readOr text? internalBank d.internalBank⟩
  | _ => none

/-- The limits that a section names. -/
def Limits.ofFields? : List (Option Toml) → Option Limits
  | [errorMin, errorMax, workers] => do
    let d := Limits.default
    return ⟨← readOr word? errorMin d.errorMin, ← readOr word? errorMax d.errorMax,
      ← readOr count? workers d.workers⟩
  | _ => none

/-- The waits that a section names. -/
def Waits.ofFields? : List (Option Toml) → Option Waits
  | [client, retire, init] => do
    let d := Waits.default
    return ⟨← readOr count? client d.client, ← readOr count? retire d.retire, ← readOr count? init d.init⟩
  | _ => none

/-- The prefetching that a section names. -/
def Prefetch.ofFields? : List (Option Toml) → Option Prefetch
  | [capacity, retryDelay] => do
    let d := Prefetch.default
    return ⟨← readOr count? capacity d.capacity, ← readOr count? retryDelay d.retryDelay⟩
  | _ => none

/-- The times that a section names. -/
def Schedule.ofFields? : List (Option Toml) → Option Schedule
  | [duration, tickInterval, shutdownGrace] => do
    let d := Schedule.default
    return ⟨← readOr count? duration d.duration, ← readOr count? tickInterval d.tickInterval,
      ← readOr count? shutdownGrace d.shutdownGrace⟩
  | _ => none

/-- The configuration that a document describes, whether it can be run with or not. -/
def ofToml? (doc : Members) : Option Config := do
  return {
    target := ← Target.ofFields? (← section? doc "target" Target.keys)
    limits := ← Limits.ofFields? (← section? doc "limits" Limits.keys)
    waits := ← Waits.ofFields? (← section? doc "timeouts" Waits.keys)
    prefetch := ← Prefetch.ofFields? (← section? doc "prefetch" Prefetch.keys)
    schedule := ← Schedule.ofFields? (← section? doc "run" Schedule.keys) }

/-- Why there is no configuration. -/
inductive Refusal where
  /-- The file is missing or holds no text. -/
  | unreadable (path : String)
  /-- The text is no document, or a known key has a value of the wrong kind. -/
  | malformed
  | violation (v : Violation)
  /-- The file was read, and refused. -/
  | invalid (path : String) (why : Refusal)
deriving DecidableEq, Repr, Inhabited

/-- What is said of a refusal, outermost first. -/
def Refusal.messages : Refusal → List String
  | unreadable path => [s!"Failed to read config file: {path}"]
  | malformed => ["Failed to parse configuration"]
  | violation v => [(RunError.config v.text).message]
  | invalid path why => s!"Invalid config file: {path}" :: why.messages

/-- The configuration that a document describes, if it can be run with. -/
def ofMembers (doc : Members) : Except Refusal Config :=
  match ofToml? doc with
  | none => .error .malformed
  | some c =>
    match c.violation? with
    | some v => .error (.violation v)
    | none => .ok c

/-- The configuration that a text describes, if it can be run with. -/
def ofText (text : String) : Except Refusal Config :=
  match Toml.parse text with
  | none => .error .malformed
  | some doc => ofMembers doc

/-- The configuration in a file, of which `contents` are the bytes if it could be read. -/
def ofFile (path : String) (contents : Option ByteArray) : Except Refusal Config :=
  match contents.bind String.fromUTF8? with
  | none => .error (.unreadable path)
  | some text => (ofText text).mapError (.invalid path)

end Config

end ExchangeLoad
