import Std.Data.ExtTreeSet

/-!
# Permission groups

A group has a name and grants a set of permissions.

* `GroupDefinition`: a group as configured, with the name of the group it inherits from.
* `Group`, `Group.ofList`, `Group.inherit`: a group with all its grants.
* `GroupSettings`: the configured groups and the name of the default one. -/

namespace BlockWorld

open Std

structure GroupDefinition where
  name : String
  permissions : List String := []
  inherits : Option String := none
deriving DecidableEq, Repr

structure GroupSettings where
  defaultGroup : String := "member"
  groups : List GroupDefinition := []
deriving DecidableEq, Repr

structure Group where
  name : String
  grants : ExtTreeSet String
deriving DecidableEq

namespace Group

def ofList (name : String) (grants : List String) : Group := ⟨name, ExtTreeSet.ofList grants⟩

def empty (name : String) : Group := ⟨name, ∅⟩

instance : Inhabited Group := ⟨empty ""⟩

def has (g : Group) (permission : String) : Bool := g.grants.contains permission

/-- The group with all grants of `parent` added. -/
def inherit (g parent : Group) : Group := { g with grants := g.grants ∪ parent.grants }

end Group

end BlockWorld
