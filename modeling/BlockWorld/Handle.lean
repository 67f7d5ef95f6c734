import Std.Data.ExtTreeMap

/-!
# Handles

A client's connection and a viewer of a column are known by a number each. Both are ordered by it.

* `Handle`: a connection, written `session#7`.
* `ViewerId`: a viewer, written `viewer#7`. -/

namespace BlockWorld

open Std

/-- A connection of the transport. -/
structure Handle where
  id : UInt64
deriving DecidableEq, Repr, Inhabited

namespace Handle

instance : Ord Handle := ⟨compareOn Handle.id⟩

instance : TransOrd Handle := inferInstanceAs (TransCmp (compareOn Handle.id))

instance : LawfulEqOrd Handle where
  eq_of_compare {a b} h := by
    have : a.id = b.id := LawfulEqOrd.eq_of_compare h
    cases a; cases b; simp_all

def display (h : Handle) : String := "session#" ++ toString h.id

end Handle

/-- Someone who watches columns. -/
structure ViewerId where
  id : UInt64
deriving DecidableEq, Repr, Inhabited

namespace ViewerId

instance : Ord ViewerId := ⟨compareOn ViewerId.id⟩

instance : TransOrd ViewerId := inferInstanceAs (TransCmp (compareOn ViewerId.id))

instance : LawfulEqOrd ViewerId where
  eq_of_compare {a b} h := by
    have : a.id = b.id := LawfulEqOrd.eq_of_compare h
    cases a; cases b; simp_all

def display (v : ViewerId) : String := "viewer#" ++ toString v.id

end ViewerId

end BlockWorld
