import Std.Data.ExtTreeMap
import BlockWorld.Permission.Group

/-!
# Permissions of one player

A player has what the group grants and what an explicit override grants. A denying override takes
nothing away that the group grants.

* `Permission`: an override, granting or denying.
* `PermissionSet.has`: whether a permission is resolved to granted.
* `PermissionSet.add`, `PermissionSet.remove`, `PermissionSet.setGroup`: the changes. -/

namespace BlockWorld

open Std

structure Permission where
  name : String
  granted : Bool
deriving DecidableEq, Repr

def Permission.grant (name : String) : Permission := ⟨name, true⟩

def Permission.deny (name : String) : Permission := ⟨name, false⟩

structure PermissionSet where
  group : Group
  overrides : ExtTreeMap String Permission
deriving DecidableEq

namespace PermissionSet

def ofGroup (group : Group) : PermissionSet := ⟨group, ∅⟩

instance : Inhabited PermissionSet := ⟨ofGroup default⟩

def override? (s : PermissionSet) (name : String) : Option Permission := s.overrides[name]?

def has (s : PermissionSet) (name : String) : Bool :=
  s.group.has name || (s.override? name).any Permission.granted

/-- Stores an override; says whether there was one of that name before. -/
def add (s : PermissionSet) (p : Permission) : Bool × PermissionSet :=
  (s.overrides.contains p.name, { s with overrides := s.overrides.insert p.name p })

/-- Removes the override of `name`, provided there is one and the permission is granted now; says
whether it did. -/
def remove (s : PermissionSet) (name : String) : Bool × PermissionSet :=
  if s.overrides.contains name && s.has name then
    (true, { s with overrides := s.overrides.erase name })
  else (false, s)

def setGroup (s : PermissionSet) (group : Group) : PermissionSet := { s with group }

end PermissionSet

end BlockWorld
