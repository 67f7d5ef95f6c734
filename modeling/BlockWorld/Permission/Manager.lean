import BlockWorld.Notice
import BlockWorld.Permission.Lineage

/-!
# The group manager

The groups that players can be put into, found by name, with a default among them.

A group is an object of its own: two groups with the same name and grants are still two. Each object
gets a serial number when it is put under the manager, so being the very same object is having the
same serial.

* `GroupManager.named`: only a default group without grants.
* `GroupManager.ofSettings`: the configured groups, resolved, with notices on what was amiss.
* `GroupManager.addGroup`: adds a group or replaces the one of that name, the default included. -/

namespace BlockWorld

open Std

/-- A group object. -/
structure SerialGroup where
  serial : Nat
  group : Group
deriving DecidableEq

structure GroupManager where
  /-- The serial of the next object. -/
  nextSerial : Nat
  groups : ExtTreeMap String SerialGroup
  defaultGroup : SerialGroup
deriving DecidableEq

namespace GroupManager

def group? (m : GroupManager) (name : String) : Option SerialGroup := m.groups[name]?

def named (defaultGroup : String) : GroupManager :=
  let object : SerialGroup := ⟨0, Group.empty defaultGroup⟩
  ⟨1, (∅ : ExtTreeMap String SerialGroup).insert defaultGroup object, object⟩

instance : Inhabited GroupManager := ⟨named ""⟩

def addGroup (m : GroupManager) (g : Group) : GroupManager :=
  let object : SerialGroup := ⟨m.nextSerial, g⟩
  { nextSerial := m.nextSerial + 1
    groups := m.groups.insert g.name object
    defaultGroup := if g.name = m.defaultGroup.group.name then object else m.defaultGroup }

/-! ## From the configuration -/

/-- What there is to say about the lineage of `g`. -/
def lineageNotices (defs : ExtTreeMap String GroupDefinition) (g : GroupDefinition) : List Notice :=
  match (lineage defs g).2 with
  | .root => []
  | .cycle => [.inheritanceCycle g.name]
  | .unknown parent => [.unknownParent g.name parent]

/-- The definitions as group objects in their order; of several with one name the last stays. -/
def resolveAll (groups : List GroupDefinition) : Nat × ExtTreeMap String SerialGroup :=
  groups.foldl
    (fun (serial, objects) g =>
      (serial + 1, objects.insert g.name ⟨serial, g.resolve (definitions groups)⟩))
    (0, ∅)

/-- The manager of the configured groups. A default group that is not defined becomes one without
grants. -/
def ofSettings (settings : GroupSettings) : GroupManager × List Notice :=
  let (serial, objects) := resolveAll settings.groups
  let notices := settings.groups.flatMap (lineageNotices (definitions settings.groups))
  match objects[settings.defaultGroup]? with
  | some object => (⟨serial, objects, object⟩, notices)
  | none =>
    let object : SerialGroup := ⟨serial, Group.empty settings.defaultGroup⟩
    (⟨serial + 1, objects.insert settings.defaultGroup object, object⟩,
      notices ++ [.defaultGroupMissing settings.defaultGroup])

end GroupManager

end BlockWorld
