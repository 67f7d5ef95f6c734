import BlockWorld.Config.Basic
import BlockWorld.Proofs.Groups

/-! # A valid configuration builds its groups

A configuration is checked before the groups are built from it. The check looks at the parent of each
definition and asks whether anything at all is defined under that name. The walk over the ancestors looks
a name up among the definitions that count, of several with one name the last, and goes on from there.
Both find the same parents undefined.

* `ParentsDefined`: every parent is defined; `parentsDefined_iff_lineage`: no walk ends at an undefined
  name.
* `Config.validate_eq_ok_iff`: the rules for a configuration, one by one.
* `mem_resolveAll`: which groups are built.
* `validation_agrees`: what is valid is what can be built as it is written. -/

namespace BlockWorld

open Std

variable {groups : List GroupDefinition}

/-! ### Parents -/

/-- Whatever a definition inherits from is defined. -/
def ParentsDefined (groups : List GroupDefinition) : Prop :=
  ∀ g ∈ groups, ∀ parent, g.inherits = some parent → definition? groups parent ≠ none

/-- A walk ends at an undefined name only if that is where it begins, or if a definition inherits from
it. -/
theorem Climb.undefined {seen : List String} {parent : Option String} {line : List GroupDefinition}
    {ending : LineageEnd} (h : Climb groups seen parent line ending) {last : String}
    (unknown : ending = .unknown last) : definition? groups last = none ∧
      (parent = some last ∨ ∃ d ∈ groups, d.inherits = some last) := by
  induction h with
  | root => cases unknown
  | cycle => cases unknown
  | unknown new undefined =>
    cases unknown
    exact ⟨undefined, Or.inl rfl⟩
  | @step seen parent g line ending new defined rest ih =>
    obtain ⟨undefined, next | inherited⟩ := ih unknown
    · exact ⟨undefined, Or.inr ⟨g, (definition?_name defined).1, next⟩⟩
    · exact ⟨undefined, Or.inr inherited⟩

/-- **The parents of all definitions are defined** if and only if no walk ends at an undefined name. -/
theorem parentsDefined_iff_lineage : ParentsDefined groups ↔
    ∀ g ∈ groups, ∀ parent, (lineage (definitions groups) g).2 ≠ .unknown parent := by
  constructor
  · intro closed g hg parent unknown
    obtain ⟨undefined, own | ⟨d, hd, inherited⟩⟩ := (climb_lineage hg).undefined unknown
    · exact closed g hg parent own undefined
    · exact closed d hd parent inherited undefined
  · intro known g hg parent own undefined
    have new : parent ∉ [g.name] := by
      intro met
      rw [List.mem_singleton.mp met] at undefined
      exact definition?_ne_none_iff.mpr ⟨g, hg, rfl⟩ undefined
    have walk : Climb groups [g.name] g.inherits [] (.unknown parent) := by
      rw [own]
      exact .unknown new undefined
    have ending := (climb_iff_lineage hg).mp walk
    exact known g hg parent (congrArg Prod.snd ending)

/-! ### The rules of a configuration -/

theorem GroupSettings.defines_iff (s : GroupSettings) (name : String) :
    s.defines name = true ↔ definition? s.groups name ≠ none := by
  rw [definition?_ne_none_iff, defines, List.any_eq_true]
  simp only [beq_iff_eq]

theorem GroupSettings.undefinedParent?_eq_none_iff (s : GroupSettings) :
    s.undefinedParent? = none ↔ ParentsDefined s.groups := by
  rw [undefinedParent?, List.findSome?_eq_none_iff]
  refine forall₂_congr fun g hg => ?_
  cases g.inherits with
  | none => simp
  | some parent => simp [← defines_iff]

/-- What is configured of the world breaks no rule. -/
def WorldSettings.Valid (w : WorldSettings) : Prop :=
  w.defaultViewDistance ≤ w.maxViewDistance ∧ w.maxViewDistance ≤ BlockWorld.maxViewDistance ∧
    w.tickInterval ≠ 0

theorem Config.validate_eq_ok_iff_invalid? (c : Config) : c.validate = .ok () ↔ c.invalid? = none := by
  unfold validate
  cases c.invalid? <;> simp

/-- **A configuration is valid** if it keeps every rule. -/
theorem Config.validate_eq_ok_iff (c : Config) : c.validate = .ok () ↔ c.world.Valid ∧
    (c.permissions.groups = [] ∨ definition? c.permissions.groups c.permissions.defaultGroup ≠ none) ∧
      ParentsDefined c.permissions.groups := by
  have kept {rule : Prop} [Decidable rule] (reason : InvalidConfig) (rest : Option InvalidConfig) :
      (if rule then some reason else rest) = none ↔ ¬ rule ∧ rest = none := by
    split <;> simp_all
  have default : (!c.permissions.groups.isEmpty && !c.permissions.defines c.permissions.defaultGroup) = true ↔
      ¬ (c.permissions.groups = [] ∨
        definition? c.permissions.groups c.permissions.defaultGroup ≠ none) := by
    simp [← GroupSettings.defines_iff]
  rw [c.validate_eq_ok_iff_invalid?, invalid?, kept, kept, kept, kept, default, Option.map_eq_none_iff,
    GroupSettings.undefinedParent?_eq_none_iff, not_not, UInt32.not_lt, UInt32.not_lt, WorldSettings.Valid]
  tauto

/-! ### What is built -/

namespace GroupManager

/-- Every defined name has a group, and no other. -/
theorem mem_resolveAll {name : String} :
    name ∈ (resolveAll groups).2 ↔ definition? groups name ≠ none := by
  have filed := group_resolveAll groups name
  rw [ExtTreeMap.mem_iff_isSome_getElem?, ← Option.isSome_map (f := SerialGroup.group), filed,
    Option.isSome_map, Option.isSome_iff_ne_none]

theorem unknownParent_mem_lineageNotices {defs : ExtTreeMap String GroupDefinition} {g : GroupDefinition}
    {name parent : String} : .unknownParent name parent ∈ lineageNotices defs g ↔
      g.name = name ∧ (lineage defs g).2 = .unknown parent := by
  unfold lineageNotices
  cases (lineage defs g).2 <;> simp [eq_comm]

theorem defaultGroupMissing_not_mem_lineageNotices {defs : ExtTreeMap String GroupDefinition}
    {g : GroupDefinition} {name : String} : .defaultGroupMissing name ∉ lineageNotices defs g := by
  unfold lineageNotices
  split <;> simp

/-- What there is to say while the groups are built: of each definition, and of the default group. -/
theorem notices_ofSettings (settings : GroupSettings) : (ofSettings settings).2 =
    settings.groups.flatMap (lineageNotices (definitions settings.groups)) ++
      if settings.defaultGroup ∈ (resolveAll settings.groups).2 then []
      else [.defaultGroupMissing settings.defaultGroup] := by
  unfold ofSettings
  generalize resolveAll settings.groups = filing
  obtain ⟨serial, objects⟩ := filing
  dsimp only
  split
  · rename_i object found
    rw [if_pos (by rw [ExtTreeMap.mem_iff_isSome_getElem?, found]; rfl), List.append_nil]
  · rename_i missing
    rw [if_neg (by rw [ExtTreeMap.mem_iff_isSome_getElem?, missing]; simp)]

theorem unknownParent_mem_notices (settings : GroupSettings) (name parent : String) :
    .unknownParent name parent ∈ (ofSettings settings).2 ↔
      ∃ g ∈ settings.groups, g.name = name ∧
        (lineage (definitions settings.groups) g).2 = .unknown parent := by
  have other : Notice.unknownParent name parent ∉
      if settings.defaultGroup ∈ (resolveAll settings.groups).2 then []
      else [.defaultGroupMissing settings.defaultGroup] := by
    split <;> simp
  rw [notices_ofSettings, List.mem_append, or_iff_left other, List.mem_flatMap]
  simp only [unknownParent_mem_lineageNotices]

theorem defaultGroupMissing_mem_notices (settings : GroupSettings) (name : String) :
    .defaultGroupMissing name ∈ (ofSettings settings).2 ↔
      name = settings.defaultGroup ∧ name ∉ (resolveAll settings.groups).2 := by
  have other : Notice.defaultGroupMissing name ∉
      settings.groups.flatMap (lineageNotices (definitions settings.groups)) := by
    simp [defaultGroupMissing_not_mem_lineageNotices]
  rw [notices_ofSettings, List.mem_append, or_iff_right other]
  split
  · rename_i found
    refine iff_of_false (by simp) ?_
    rintro ⟨rfl, missing⟩
    exact missing found
  · rename_i missing
    rw [List.mem_singleton, Notice.defaultGroupMissing.injEq]
    constructor
    · rintro rfl
      exact ⟨rfl, missing⟩
    · exact And.left

end GroupManager

/-- **A configuration is valid if and only if its groups can be built as they are written.** With groups in
any order, names given several times, groups that inherit from themselves and cycles, a configuration is
valid if the settings of the world are, if the walk over the ancestors of no definition ends at an undefined
name, and if the default group is one of those that are built, or there are no groups at all. What is noted
while the groups are built says the same: of which definitions the walk ends so, and whether the default
group had to be made up. -/
theorem validation_agrees (c : Config) :
    let settings := c.permissions
    let notices := (GroupManager.ofSettings settings).2
    (c.validate = .ok () ↔ c.world.Valid ∧
      (∀ g ∈ settings.groups, ∀ parent, (lineage (definitions settings.groups) g).2 ≠ .unknown parent) ∧
      (settings.groups = [] ∨ settings.defaultGroup ∈ (GroupManager.resolveAll settings.groups).2)) ∧
    (∀ name parent, Notice.unknownParent name parent ∈ notices ↔ ∃ g ∈ settings.groups, g.name = name ∧
      (lineage (definitions settings.groups) g).2 = .unknown parent) ∧
    (∀ name, Notice.defaultGroupMissing name ∈ notices ↔
      name = settings.defaultGroup ∧ name ∉ (GroupManager.resolveAll settings.groups).2) := by
  intro settings notices
  refine ⟨?_, GroupManager.unknownParent_mem_notices settings,
    GroupManager.defaultGroupMissing_mem_notices settings⟩
  rw [c.validate_eq_ok_iff, parentsDefined_iff_lineage, GroupManager.mem_resolveAll]
  tauto

end BlockWorld
