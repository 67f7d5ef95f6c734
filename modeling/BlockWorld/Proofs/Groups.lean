import BlockWorld.Permission.Manager
import BlockWorld.Proofs.Lineage

/-! # The groups of a manager

A manager made from the configuration has one group for every defined name, resolved from the
definition that counts, and the default group among them.

* `group_resolveAll`: which group is filed under a name.
* `ofSettings_built`: the groups of a manager.
* `groups_reach`: they have what is listed for the names they reach, and nothing else. -/

namespace BlockWorld

open Std Relation

/-- Groups that are filed one after the other: under a name stays the last one with that name. -/
theorem group_foldl_insert (resolve : GroupDefinition → Group) (groups : List GroupDefinition)
    (name : String) :
    ((groups.foldl (fun (serial, objects) g => (serial + 1, objects.insert g.name ⟨serial, resolve g⟩))
      ((0, ∅) : Nat × ExtTreeMap String SerialGroup)).2[name]?).map SerialGroup.group =
        (definition? groups name).map resolve := by
  induction groups using List.reverseRecOn with
  | nil => simp [definition?]
  | append_singleton groups g ih =>
    rw [definition?_concat, List.foldl_concat, ExtTreeMap.getElem?_insert]
    simp only [Std.compare_eq_iff_eq]
    split
    · rfl
    · exact ih

namespace GroupManager

/-- Under a name stands the group of the definition that counts for it. -/
theorem group_resolveAll (groups : List GroupDefinition) (name : String) :
    ((resolveAll groups).2[name]?).map SerialGroup.group =
      (definition? groups name).map (GroupDefinition.resolve (definitions groups)) :=
  group_foldl_insert _ groups name

/-- What a manager made from `settings` finds under each name, and which group is the default. -/
structure Built (settings : GroupSettings) (m : GroupManager) : Prop where
  defined : ∀ {name g}, definition? settings.groups name = some g →
    ∃ object, m.group? name = some object ∧
      object.group = g.resolve (definitions settings.groups)
  undefined : ∀ {name}, definition? settings.groups name = none → name ≠ settings.defaultGroup →
    m.group? name = none
  missing : definition? settings.groups settings.defaultGroup = none →
    m.defaultGroup.group = Group.empty settings.defaultGroup
  default : m.group? settings.defaultGroup = some m.defaultGroup

theorem ofSettings_built (settings : GroupSettings) : Built settings (ofSettings settings).1 := by
  have filed := group_resolveAll settings.groups
  unfold ofSettings
  generalize resolveAll settings.groups = filing at filed ⊢
  obtain ⟨serial, objects⟩ := filing
  have known : ∀ {name g}, definition? settings.groups name = some g → ∃ object,
      objects[name]? = some object ∧ object.group = g.resolve (definitions settings.groups) := by
    intro name g defined
    have found := filed name
    rw [defined] at found
    exact Option.map_eq_some_iff.mp found
  have unknown : ∀ {name}, definition? settings.groups name = none → objects[name]? = none := by
    intro name undefined
    have found := filed name
    rw [undefined] at found
    exact Option.map_eq_none_iff.mp found
  dsimp only
  split
  · rename_i object found
    refine ⟨known, fun undefined _ => unknown undefined, fun undefined => ?_, found⟩
    rw [unknown undefined] at found
    cases found
  · rename_i missing
    refine ⟨fun {name g} defined => ?_, fun {name} undefined other => ?_, fun _ => rfl, ?_⟩
    · obtain ⟨object, found, resolved⟩ := known defined
      refine ⟨object, ?_, resolved⟩
      have other : settings.defaultGroup ≠ name := by
        rintro rfl
        rw [missing] at found
        cases found
      simp [group?, ExtTreeMap.getElem?_insert, other, found]
    · simp [group?, ExtTreeMap.getElem?_insert, other.symm, unknown undefined]
    · simp [group?]

end GroupManager

theorem GroupDefinition.resolve_name (defs : ExtTreeMap String GroupDefinition) (g : GroupDefinition) :
    (g.resolve defs).name = g.name := by
  have kept : ∀ (line : List GroupDefinition) (group : Group),
      (line.foldl (fun group ancestor => group.inherit ancestor.own) group).name = group.name := by
    intro line
    induction line with
    | nil => intro group; rfl
    | cons d line ih => intro group; exact ih _
  exact kept _ _

theorem Group.has_empty (name permission : String) : (Group.empty name).has permission = false := by
  simp [Group.has, Group.empty]

/-- **Groups inherit from exactly what they reach.** However many groups are configured, with names
given several times, groups that inherit from themselves, cycles and parents that are not defined: the
walk over the ancestors of each comes to an end, the one that `lineage` gives; every defined name has a
group with exactly the permissions that are listed for a name it reaches, by any number of steps from a
defined name to the defined name it inherits from; no other name has a group, but for the default one,
which then grants nothing; and the default group is the one found under its name. -/
theorem groups_reach (settings : GroupSettings) :
    let m := (GroupManager.ofSettings settings).1
    (∀ g ∈ settings.groups, ∀ line ending, Climb settings.groups [g.name] g.inherits line ending ↔
      lineage (definitions settings.groups) g = (line, ending)) ∧
    (∀ name g, definition? settings.groups name = some g → ∃ object, m.group? name = some object ∧
      object.group.name = name ∧ ∀ permission, object.group.has permission = true ↔
        ∃ ancestor d, ReflTransGen (Inherits settings.groups) name ancestor ∧
          definition? settings.groups ancestor = some d ∧ permission ∈ d.permissions) ∧
    (∀ name, definition? settings.groups name = none → name ≠ settings.defaultGroup →
      m.group? name = none) ∧
    (definition? settings.groups settings.defaultGroup = none →
      ∀ permission, m.defaultGroup.group.has permission = false) ∧
    m.group? settings.defaultGroup = some m.defaultGroup := by
  intro m
  have built := GroupManager.ofSettings_built settings
  refine ⟨fun g hg line ending => climb_iff_lineage hg, fun name g defined => ?_,
    fun name undefined other => built.undefined undefined other, fun undefined permission => ?_,
    built.default⟩
  · obtain ⟨object, found, resolved⟩ := built.defined defined
    have named : g.name = name := (definition?_name defined).2
    subst named
    refine ⟨object, found, ?_, fun permission => ?_⟩
    · rw [resolved, GroupDefinition.resolve_name]
    · rw [resolved, has_resolve defined]
  · rw [built.missing undefined, Group.has_empty]

/-- A group that inherits from a cycle it is not on, one of whose names is defined twice. -/
theorem groups_reach_cycle :
    let settings : GroupSettings := { groups := [⟨"guest", ["look"], some "crew"⟩, ⟨"crew", ["kick"], none⟩,
      ⟨"crew", ["build"], some "staff"⟩, ⟨"staff", ["fly"], some "crew"⟩] }
    let m := (GroupManager.ofSettings settings).1
    (∃ object, m.group? "guest" = some object ∧ object.group.has "fly" = true) ∧
      m.group? "king" = none ∧ m.defaultGroup.group.has "look" = false := by
  intro settings m
  obtain ⟨-, defined, undefined, missing, -⟩ := groups_reach settings
  obtain ⟨object, found, -, grants⟩ := defined "guest" _ rfl
  have path : ReflTransGen (Inherits settings.groups) "guest" "staff" :=
    (ReflTransGen.single ⟨_, rfl, rfl, by decide⟩).tail ⟨_, rfl, rfl, by decide⟩
  exact ⟨⟨object, found, (grants "fly").mpr ⟨"staff", _, path, rfl, by decide⟩⟩,
    undefined "king" rfl (by decide), missing rfl "look"⟩

end BlockWorld
