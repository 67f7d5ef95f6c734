import BlockWorld.Config.Basic
import BlockWorld.Toml.Document

/-!
# Configurations from TOML

Each section is a table, or an array of its fields in their order. Unknown keys are ignored, missing
ones have their defaults, and a date in the place of a section is a section without known keys.

* `Toml.Fields`: the fields of a section.
* `Config.ofValue?`, `Config.ofText`, `Config.ofContents`: from a document, a text, a file. -/

namespace BlockWorld

namespace Toml

/-- The fields of a value that is read as a section. -/
inductive Fields where
  | named (entries : Entries)
  | positional (items : List Value)

def Value.fields? : Value → Option Fields
  | .table _ entries => some (.named entries)
  | .array _ items => some (.positional items)
  | .moment => some (.named [])
  | _ => none

namespace Fields

def get? (fields : Fields) (position : Nat) (name : String) : Option Value :=
  match fields with
  | .named entries => entries.lookup name
  | .positional items => items[position]?

variable {α : Type}

def required (fields : Fields) (position : Nat) (name : String) (decode : Value → Option α) :
    Option α := do
  decode (← fields.get? position name)

/-- A field that may be missing. -/
def withDefault (fields : Fields) (position : Nat) (name : String) (decode : Value → Option α)
    (default : α) : Option α :=
  match fields.get? position name with
  | some v => decode v
  | none => some default

end Fields

namespace Value

def string? : Value → Option String
  | .string s => some s
  | _ => none

/-- A non-negative integer below `bound`. -/
def nat? (bound : Nat) : Value → Option Nat
  | .integer n => if 0 ≤ n.toInt ∧ n.toInt < bound then some n.toInt.toNat else none
  | _ => none

def uint32? (v : Value) : Option UInt32 := (v.nat? UInt32.size).map UInt32.ofNat

def uint64? (v : Value) : Option UInt64 := (v.nat? UInt64.size).map UInt64.ofNat

/-- A float or an integer, rounded once to 32 bits. -/
def float32? : Value → Option Float32
  | .float x => some x.toFloat32
  | .integer n => some n.toFloat32
  | _ => none

def list? {α : Type} (decode : Value → Option α) : Value → Option (List α)
  | .array _ items => items.mapM decode
  | _ => none

/-- The first three items of an array. -/
def vec3? : Value → Option Vec3
  | .array _ (x :: y :: z :: _) => do return ⟨← x.float32?, ← y.float32?, ← z.float32?⟩
  | _ => none

end Value

end Toml

open Toml

def GroupDefinition.ofValue? (v : Value) : Option GroupDefinition := do
  let fields ← v.fields?
  let name ← fields.required 0 "name" Value.string?
  let permissions ← fields.withDefault 1 "permissions" (Value.list? Value.string?) []
  let inherits ← fields.withDefault 2 "inherits" (fun v => some <$> v.string?) none
  return { name, permissions, inherits }

def GroupSettings.ofValue? (v : Value) : Option GroupSettings := do
  let fields ← v.fields?
  let unset : GroupSettings := {}
  let defaultGroup ← fields.withDefault 0 "default_group" Value.string? unset.defaultGroup
  let groups ← fields.withDefault 1 "groups" (Value.list? GroupDefinition.ofValue?) unset.groups
  return { defaultGroup, groups }

def WorldSettings.ofValue? (v : Value) : Option WorldSettings := do
  let fields ← v.fields?
  let unset : WorldSettings := {}
  let defaultViewDistance ←
    fields.withDefault 0 "default_view_distance" Value.uint32? unset.defaultViewDistance
  let maxViewDistance ←
    fields.withDefault 1 "max_view_distance" Value.uint32? unset.maxViewDistance
  let tickInterval ← fields.withDefault 2 "tick_interval_ms" Value.uint64? unset.tickInterval
  let attributeSyncInterval ←
    fields.withDefault 3 "attribute_sync_interval" Value.uint64? unset.attributeSyncInterval
  let spawn ← fields.withDefault 4 "spawn" Value.vec3? unset.spawn
  return { defaultViewDistance, maxViewDistance, tickInterval, attributeSyncInterval, spawn }

namespace Config

def maxPlayersOfValue? (v : Value) : Option UInt64 := do
  let fields ← v.fields?
  let unset : Config := {}
  fields.withDefault 0 "max_players" Value.uint64? unset.maxPlayers

def logLevelOfValue? (v : Value) : Option String := do
  let fields ← v.fields?
  let unset : Config := {}
  fields.withDefault 0 "level" Value.string? unset.logLevel

def ofValue? (v : Value) : Option Config := do
  let fields ← v.fields?
  let unset : Config := {}
  let maxPlayers ← fields.withDefault 0 "server" maxPlayersOfValue? unset.maxPlayers
  let world ← fields.withDefault 1 "world" WorldSettings.ofValue? unset.world
  let permissions ← fields.withDefault 2 "permissions" GroupSettings.ofValue? unset.permissions
  let logLevel ← fields.withDefault 3 "logging" logLevelOfValue? unset.logLevel
  return { maxPlayers, world, permissions, logLevel }

/-- The configuration that a text writes, if it is one that holds. -/
def ofText (s : String) : Except ConfigError Config :=
  match Value.ofText? s >>= ofValue? with
  | none => .error .malformed
  | some c => do
    c.validate
    return c

/-- The configuration in a file with these contents; `none` stands for no file. -/
def ofContents (contents : Option ByteArray) : Except ConfigError Config :=
  match contents >>= String.fromUTF8? with
  | none => .error .unreadable
  | some s => ofText s

end Config

end BlockWorld
