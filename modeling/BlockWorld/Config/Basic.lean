import BlockWorld.Permission.Group
import BlockWorld.Vec3
import BlockWorld.ViewDisc

/-!
# The configuration

* `Config`: what can be configured, with the values that hold when nothing is said.
* `Config.validate`: the first rule that a configuration breaks, if any.
* `ConfigError`: why a configuration could not be had, and how that reads. -/

namespace BlockWorld

structure WorldSettings where
  defaultViewDistance : UInt32 := 4
  maxViewDistance : UInt32 := 8
  /-- Milliseconds between two ticks. -/
  tickInterval : UInt64 := 50
  /-- Attributes are sent every so many ticks; never, if it is zero. -/
  attributeSyncInterval : UInt64 := 20
  spawn : Vec3 := ⟨0.5, 5.62, 0.5⟩
deriving DecidableEq

structure Config where
  /-- Zero stands for no limit. -/
  maxPlayers : UInt64 := 20
  world : WorldSettings := {}
  permissions : GroupSettings := {}
  logLevel : String := "info"
deriving DecidableEq

instance : Inhabited Config := ⟨{}⟩

/-- A rule that a configuration breaks. -/
inductive InvalidConfig where
  | maxBelowDefault (max default : UInt32)
  | maxTooLarge (max : UInt32)
  | noTickInterval
  | undefinedDefault (group : String)
  | undefinedParent (group parent : String)
deriving DecidableEq, Repr

def InvalidConfig.message : InvalidConfig → String
  | .maxBelowDefault max default =>
    "max_view_distance (" ++ toString max ++ ") is below default_view_distance (" ++
      toString default ++ ")"
  | .maxTooLarge max =>
    "max_view_distance (" ++ toString max ++ ") exceeds " ++ toString maxViewDistance
  | .noTickInterval => "tick_interval_ms must be positive"
  | .undefinedDefault group => "default_group " ++ group ++ " is not defined"
  | .undefinedParent group parent => "group " ++ group ++ " inherits unknown group " ++ parent

inductive ConfigError where
  /-- There is no text: no file, or not UTF-8. -/
  | unreadable
  /-- The text is not TOML, or its values do not have the right types. -/
  | malformed
  | invalid (reason : InvalidConfig)
deriving DecidableEq, Repr

/-- The text of an error; what makes a text unreadable or malformed is not told. -/
def ConfigError.message : ConfigError → String
  | .unreadable => "unreadable config"
  | .malformed => "malformed config"
  | .invalid reason => "invalid config: " ++ reason.message

namespace GroupSettings

def defines (s : GroupSettings) (name : String) : Bool := s.groups.any (·.name == name)

/-- The first group whose parent is not defined, with that parent. -/
def undefinedParent? (s : GroupSettings) : Option (String × String) :=
  s.groups.findSome? fun g =>
    match g.inherits with
    | some parent => if s.defines parent then none else some (g.name, parent)
    | none => none

end GroupSettings

namespace Config

/-- The first broken rule. -/
def invalid? (c : Config) : Option InvalidConfig :=
  if c.world.maxViewDistance < c.world.defaultViewDistance then
    some (.maxBelowDefault c.world.maxViewDistance c.world.defaultViewDistance)
  else if maxViewDistance < c.world.maxViewDistance then some (.maxTooLarge c.world.maxViewDistance)
  else if c.world.tickInterval = 0 then some .noTickInterval
  else if !c.permissions.groups.isEmpty && !c.permissions.defines c.permissions.defaultGroup then
    some (.undefinedDefault c.permissions.defaultGroup)
  else c.permissions.undefinedParent?.map fun (group, parent) => .undefinedParent group parent

def validate (c : Config) : Except ConfigError Unit :=
  match c.invalid? with
  | some reason => .error (.invalid reason)
  | none => .ok ()

/-- How many players there may be: a limit of zero is the greatest count there is. -/
def capacity (c : Config) : UInt64 :=
  if c.maxPlayers = 0 then 18446744073709551615 else c.maxPlayers

end Config

end BlockWorld
