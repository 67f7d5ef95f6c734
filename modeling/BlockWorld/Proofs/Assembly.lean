import BlockWorld.Proofs.Groups

/-! # Groups added one by one

The groups of a manager can be built from the whole configuration, with a walk over the ancestors of each
definition, or be added one after the other, each with all that the group of its parent has by then. Where
every definition comes after the one that it inherits from, the two managers have the same groups.

* `GroupManager.addInherited`, `GroupManager.assembled`: groups added one by one.
* `InOrder`: the lists of definitions for which this works.
* `resolve_of_inherits`: a resolved group has what its resolved parent has.
* `GroupManager.Assembled`: what a manager has after some of the definitions; `Assembled.step`: after one
  more.
* `assembled_agrees`: the two managers have the same groups. -/

namespace BlockWorld

open Std Relation

variable {groups : List GroupDefinition}

/-! ### A group and its parent -/

theorem Group.eq_of_has {g g' : Group} (name : g.name = g'.name)
    (grants : ∀ permission, g.has permission = g'.has permission) : g = g' := by
  cases g
  cases g'
  cases name
  congr 1
  exact ExtTreeSet.ext_contains grants

/-- A group without a parent has its own permissions. -/
theorem resolve_of_root {defs : ExtTreeMap String GroupDefinition} {g : GroupDefinition}
    (root : g.inherits = none) : g.resolve defs = g.own := by
  simp [GroupDefinition.resolve, lineage, root, ancestors]

/-- **A resolved group has what its resolved parent has**, also if both are on one cycle. -/
theorem resolve_of_inherits {g d : GroupDefinition} (own : definition? groups g.name = some g)
    (inherited : g.inherits = some d.name) (parent : definition? groups d.name = some d) :
    g.resolve (definitions groups) = g.own.inherit (d.resolve (definitions groups)) := by
  have next (name : String) : Inherits groups g.name name ↔ name = d.name := by
    constructor
    · rintro ⟨g', own', inherited', -⟩
      rw [own] at own'
      cases own'
      rw [inherited] at inherited'
      exact (Option.some.inj inherited').symm
    · rintro rfl
      exact ⟨g, own, inherited, by rw [parent]; exact Option.some_ne_none d⟩
  refine Group.eq_of_has (by rw [GroupDefinition.resolve_name]; rfl) fun permission => ?_
  rw [Group.has_inherit, Bool.eq_iff_iff, Bool.or_eq_true, has_resolve own, has_resolve parent, g.has_own]
  constructor
  · rintro ⟨name, a, path, defined, listed⟩
    rcases ReflTransGen.cases_head path with rfl | ⟨first, step, path⟩
    · rw [own] at defined
      cases defined
      exact Or.inl listed
    · rw [(next first).mp step] at path
      exact Or.inr ⟨name, a, path, defined, listed⟩
  · rintro (listed | ⟨name, a, path, defined, listed⟩)
    · exact ⟨g.name, g, .refl, own, listed⟩
    · exact ⟨name, a, path.head ((next _).mpr rfl), defined, listed⟩

/-! ### One after the other -/

/-- Every name is defined once, and every definition comes after the one that it inherits from. -/
structure InOrder (groups : List GroupDefinition) : Prop where
  distinct : (groups.map GroupDefinition.name).Nodup
  earlier : ∀ {before g after}, groups = before ++ g :: after → ∀ parent, g.inherits = some parent →
    ∃ d ∈ before, d.name = parent

/-- A name that is defined once stands for its definition. -/
theorem definition?_of_mem (distinct : (groups.map GroupDefinition.name).Nodup) {d : GroupDefinition}
    (hd : d ∈ groups) : definition? groups d.name = some d := by
  obtain ⟨g, found⟩ := Option.ne_none_iff_exists'.mp (definition?_ne_none_iff.mpr ⟨d, hd, rfl⟩)
  obtain ⟨hg, same⟩ := definition?_name found
  rw [found, List.inj_on_of_nodup_map distinct hg hd same]

namespace GroupManager

/-- Adds the group that `g` defines, with what the group of its parent has, if there is that group. -/
def addInherited (m : GroupManager) (g : GroupDefinition) : GroupManager :=
  match g.inherits.bind m.group? with
  | some parent => m.addGroup (g.own.inherit parent.group)
  | none => m.addGroup g.own

/-- The manager to which the configured groups were added one after the other. -/
def assembled (settings : GroupSettings) : GroupManager :=
  settings.groups.foldl addInherited (named settings.defaultGroup)

theorem group?_addGroup (m : GroupManager) (g : Group) (name : String) :
    (m.addGroup g).group? name = if g.name = name then some ⟨m.nextSerial, g⟩ else m.group? name := by
  simp only [addGroup, group?, ExtTreeMap.getElem?_insert, Std.compare_eq_iff_eq]

theorem defaultGroup_addGroup (m : GroupManager) (g : Group) : (m.addGroup g).defaultGroup =
    if g.name = m.defaultGroup.group.name then ⟨m.nextSerial, g⟩ else m.defaultGroup := rfl

/-- What a manager has under each name after the definitions `before`: the group that is resolved from all
the definitions, and the default group in any case. -/
structure Assembled (groups : List GroupDefinition) (defaultGroup : String)
    (before : List GroupDefinition) (m : GroupManager) : Prop where
  group : ∀ name, (m.group? name).map SerialGroup.group =
    ((definition? before name).map (GroupDefinition.resolve (definitions groups))).or
      (if name = defaultGroup then some (Group.empty defaultGroup) else none)
  default : m.group? defaultGroup = some m.defaultGroup
  name : m.defaultGroup.group.name = defaultGroup

theorem assembled_start (groups : List GroupDefinition) (defaultGroup : String) :
    Assembled groups defaultGroup [] (named defaultGroup) := by
  refine ⟨fun name => ?_, by simp [named, group?], rfl⟩
  by_cases same : defaultGroup = name
  · simp [named, group?, definition?, same]
  · simp [named, group?, definition?, same, Ne.symm same]

variable {before after : List GroupDefinition} {g : GroupDefinition} {m : GroupManager}
  {defaultGroup : String}

/-- The group that is added is the one resolved from all the definitions. -/
theorem Assembled.addInherited_eq (h : Assembled groups defaultGroup before m) (ordered : InOrder groups)
    (split : groups = before ++ g :: after) :
    m.addInherited g = m.addGroup (g.resolve (definitions groups)) := by
  have own : definition? groups g.name = some g :=
    definition?_of_mem ordered.distinct (by simp [split])
  unfold addInherited
  cases inherited : g.inherits with
  | none => rw [Option.bind_none, resolve_of_root inherited]
  | some parent =>
    obtain ⟨d, hd, rfl⟩ := ordered.earlier split parent inherited
    have apart : (before.map GroupDefinition.name).Nodup := by
      have distinct := ordered.distinct
      rw [split, List.map_append] at distinct
      exact distinct.of_append_left
    have found := h.group d.name
    rw [definition?_of_mem apart hd, Option.map_some, Option.some_or] at found
    obtain ⟨object, filed, resolved⟩ := Option.map_eq_some_iff.mp found
    have known : definition? groups d.name = some d :=
      definition?_of_mem ordered.distinct (by simp [split, hd])
    rw [Option.bind_some, filed, resolve_of_inherits own inherited known, ← resolved]

/-- **One definition more.** -/
theorem Assembled.step (h : Assembled groups defaultGroup before m) (ordered : InOrder groups)
    (split : groups = before ++ g :: after) :
    Assembled groups defaultGroup (before ++ [g]) (m.addInherited g) := by
  have named : (g.resolve (definitions groups)).name = g.name := GroupDefinition.resolve_name _ g
  rw [h.addInherited_eq ordered split]
  refine ⟨fun name => ?_, ?_, ?_⟩
  · rw [group?_addGroup, definition?_concat, named]
    split
    · rfl
    · exact h.group name
  · rw [group?_addGroup, defaultGroup_addGroup, h.name]
    split
    · rfl
    · exact h.default
  · rw [defaultGroup_addGroup, h.name]
    split
    · assumption
    · exact h.name

/-- **After all definitions** of a list that is in order. -/
theorem assembled_prefix (ordered : InOrder groups) (defaultGroup : String) :
    ∀ before after, groups = before ++ after →
      Assembled groups defaultGroup before (before.foldl addInherited (named defaultGroup)) := by
  intro before
  induction before using List.reverseRecOn with
  | nil => exact fun _ _ => assembled_start groups defaultGroup
  | append_singleton before g ih =>
    intro after split
    have split' : groups = before ++ g :: after := by rw [split, List.append_assoc]; rfl
    rw [List.foldl_concat]
    exact (ih _ split').step ordered split'

/-- What a manager made from the whole configuration has under a name. -/
theorem Built.group {settings : GroupSettings} (built : Built settings m) (name : String) :
    (m.group? name).map SerialGroup.group =
      ((definition? settings.groups name).map (GroupDefinition.resolve (definitions settings.groups))).or
        (if name = settings.defaultGroup then some (Group.empty settings.defaultGroup) else none) := by
  cases defined : definition? settings.groups name with
  | some g =>
    obtain ⟨object, found, resolved⟩ := built.defined defined
    rw [found, Option.map_some, resolved]
    rfl
  | none =>
    split
    · rename_i same
      subst same
      rw [built.default, Option.map_some, built.missing defined]
      rfl
    · rename_i other
      rw [built.undefined defined other]
      rfl

end GroupManager

/-- **Groups added one by one are the groups of the configuration.** Where no name is defined twice and
every definition comes after the one that it inherits from, a manager that starts with an empty default
group, and to which the groups are added in their order, each with what the group of its parent has by
then, finds the same groups as the manager that is made from the whole configuration: under each name an
equal group or none, and an equal default group. -/
theorem assembled_agrees (settings : GroupSettings) (ordered : InOrder settings.groups) :
    let one := GroupManager.assembled settings
    let all := (GroupManager.ofSettings settings).1
    (∀ name, (one.group? name).map SerialGroup.group = (all.group? name).map SerialGroup.group) ∧
      one.defaultGroup.group = all.defaultGroup.group := by
  intro one all
  have assembled := GroupManager.assembled_prefix ordered settings.defaultGroup settings.groups [] (by simp)
  have built := GroupManager.ofSettings_built settings
  have same (name : String) :
      (one.group? name).map SerialGroup.group = (all.group? name).map SerialGroup.group := by
    rw [built.group]
    exact assembled.group name
  refine ⟨same, ?_⟩
  have default := same settings.defaultGroup
  rw [built.default] at default
  have own : one.group? settings.defaultGroup = some one.defaultGroup := assembled.default
  rw [own] at default
  exact Option.some.inj default

/-- A default group that is defined late, with a group before it and one after it in its line. -/
theorem assembled_agrees_late :
    let settings : GroupSettings := { defaultGroup := "crew", groups := [⟨"guest", ["look"], none⟩,
      ⟨"crew", ["build"], some "guest"⟩, ⟨"staff", ["kick"], some "crew"⟩] }
    InOrder settings.groups ∧
      (GroupManager.assembled settings).defaultGroup.group =
        (GroupManager.ofSettings settings).1.defaultGroup.group ∧
      ((GroupManager.assembled settings).group? "staff").map SerialGroup.group =
        ((GroupManager.ofSettings settings).1.group? "staff").map SerialGroup.group := by
  intro settings
  have ordered : InOrder settings.groups := by
    refine ⟨by decide, ?_⟩
    rintro (_ | ⟨a, _ | ⟨b, _ | ⟨c, before⟩⟩⟩) g after split parent inherited
    · cases split
      cases inherited
    · cases split
      cases inherited
      exact ⟨_, List.mem_cons_self, rfl⟩
    · cases split
      cases inherited
      exact ⟨_, List.mem_cons_of_mem _ List.mem_cons_self, rfl⟩
    · cases before <;> cases split
  obtain ⟨groups, default⟩ := assembled_agrees settings ordered
  exact ⟨ordered, default, groups "staff"⟩

end BlockWorld
