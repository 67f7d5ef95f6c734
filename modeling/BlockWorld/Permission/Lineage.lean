import Std.Data.ExtTreeMap
import BlockWorld.Permission.Group

/-!
# Lineages of groups

A configured group inherits from its parent, from the parent of that, and so on, until a group has
no parent, the parent has no definition, or a name comes up a second time.

* `definitions`: the definition of each name; of several the last counts.
* `lineage`: the ancestors of a group and how their line ends.
* `GroupDefinition.resolve`: the group with everything it inherits. -/

namespace BlockWorld

open Std

/-- The definition that each name stands for. -/
def definitions (groups : List GroupDefinition) : ExtTreeMap String GroupDefinition :=
  groups.foldl (fun defs g => defs.insert g.name g) ∅

/-- How a line of ancestors ends. -/
inductive LineageEnd where
  /-- The last ancestor has no parent. -/
  | root
  /-- The parent is already in the line. -/
  | cycle
  /-- The parent has no definition. -/
  | unknown (parent : String)
deriving DecidableEq, Repr

/-- The ancestors from `parent` upwards that are not among the names `seen`. No line is longer than
the number of definitions, so that many steps reach its end. -/
def ancestors (defs : ExtTreeMap String GroupDefinition) :
    (steps : Nat) → (seen : List String) → (parent : Option String) →
      List GroupDefinition × LineageEnd
  | _, _, none => ([], .root)
  | 0, _, some _ => ([], .cycle)
  | steps + 1, seen, some parent =>
    if parent ∈ seen then ([], .cycle)
    else
      match defs[parent]? with
      | none => ([], .unknown parent)
      | some g =>
        let (line, ending) := ancestors defs steps (parent :: seen) g.inherits
        (g :: line, ending)

/-- The ancestors of `g`, itself not included. -/
def lineage (defs : ExtTreeMap String GroupDefinition) (g : GroupDefinition) :
    List GroupDefinition × LineageEnd :=
  ancestors defs (defs.size + 1) [g.name] g.inherits

namespace GroupDefinition

/-- The group as defined, without what it inherits. -/
def own (g : GroupDefinition) : Group := Group.ofList g.name g.permissions

/-- The group with the grants of its ancestors. -/
def resolve (defs : ExtTreeMap String GroupDefinition) (g : GroupDefinition) : Group :=
  (lineage defs g).1.foldl (fun group ancestor => group.inherit ancestor.own) g.own

end GroupDefinition

end BlockWorld
