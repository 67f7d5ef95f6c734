import Mathlib.Data.List.Induction
import Mathlib.Data.List.Nodup
import Mathlib.Data.List.Perm.Subperm
import Mathlib.Logic.Relation
import BlockWorld.Permission.Lineage

/-! # Groups inherit from all that they reach

A configured group gets the grants of every group that it reaches by going from a name to the name
that its definition inherits from. The walk that collects them follows one parent after the other and
stops at a name that it has met before. What it has met is then closed under inheritance, so it has
missed nothing, also where a cycle does not lead back to the beginning.

* `definition?`: the definition that counts for a name; `getElem?_definitions`: it is the one looked up.
* `Inherits`: one step from a defined name to a defined name.
* `Climb`: the walk as a relation, with no bound on its steps; `climb_iff_lineage`: the bounded walk is
  never cut short.
* `Climb.closed`, `Climb.reached`: what a walk meets is what can be reached.
* `has_resolve`: a resolved group has what is listed for a name that it reaches. -/

namespace BlockWorld

open Std Relation

variable {groups : List GroupDefinition} {name : String}

/-! ### Definitions -/

/-- The definition that counts for a name, the last of those with that name. -/
def definition? (groups : List GroupDefinition) (name : String) : Option GroupDefinition :=
  (groups.filter (·.name = name)).getLast?

theorem definition?_concat (groups : List GroupDefinition) (g : GroupDefinition) (name : String) :
    definition? (groups ++ [g]) name = if g.name = name then some g else definition? groups name := by
  unfold definition?
  rw [List.filter_append]
  by_cases h : g.name = name <;> simp [h]

theorem definition?_name {g : GroupDefinition} (h : definition? groups name = some g) :
    g ∈ groups ∧ g.name = name := by
  have mem : g ∈ groups.filter (·.name = name) := List.mem_of_getLast? h
  simpa using mem

/-- The definition looked up is the one that counts. -/
theorem getElem?_definitions (groups : List GroupDefinition) (name : String) :
    (definitions groups)[name]? = definition? groups name := by
  induction groups using List.reverseRecOn with
  | nil => simp [definitions, definition?]
  | append_singleton groups g ih =>
    rw [definition?_concat, ← ih, definitions, List.foldl_concat, ExtTreeMap.getElem?_insert]
    simp only [Std.compare_eq_iff_eq]
    rfl

theorem mem_definitions {g : GroupDefinition} (h : g ∈ groups) : g.name ∈ definitions groups := by
  rw [ExtTreeMap.mem_iff_isSome_getElem?, getElem?_definitions, definition?, List.getLast?_isSome]
  exact List.ne_nil_of_mem (List.mem_filter.mpr ⟨h, by simp⟩)

theorem definition?_ne_none_iff :
    definition? groups name ≠ none ↔ ∃ g ∈ groups, g.name = name := by
  constructor
  · intro defined
    obtain ⟨g, hg⟩ := Option.ne_none_iff_exists'.mp defined
    exact ⟨g, definition?_name hg⟩
  · rintro ⟨g, hg, rfl⟩
    have found := mem_definitions hg
    rwa [ExtTreeMap.mem_iff_isSome_getElem?, getElem?_definitions, Option.isSome_iff_ne_none] at found

/-- The definition of `name` inherits from `parent`, which is defined too. -/
def Inherits (groups : List GroupDefinition) (name parent : String) : Prop :=
  ∃ g, definition? groups name = some g ∧ g.inherits = some parent ∧
    definition? groups parent ≠ none

/-! ### The walk -/

/-- The walk from `parent` upwards past the names `seen`: the ancestors that it meets and how it ends.
Nothing bounds the number of its steps. -/
inductive Climb (groups : List GroupDefinition) :
    (seen : List String) → (parent : Option String) → List GroupDefinition → LineageEnd → Prop
  | root (seen : List String) : Climb groups seen none [] .root
  | cycle {seen : List String} {parent : String} (met : parent ∈ seen) :
    Climb groups seen (some parent) [] .cycle
  | unknown {seen : List String} {parent : String} (new : parent ∉ seen)
      (undefined : definition? groups parent = none) :
    Climb groups seen (some parent) [] (.unknown parent)
  | step {seen : List String} {parent : String} {g : GroupDefinition} {line : List GroupDefinition}
      {ending : LineageEnd} (new : parent ∉ seen) (defined : definition? groups parent = some g)
      (rest : Climb groups (parent :: seen) g.inherits line ending) :
    Climb groups seen (some parent) (g :: line) ending

/-- A walk goes in one way only. -/
theorem Climb.unique {seen : List String} {parent : Option String} {line line' : List GroupDefinition}
    {ending ending' : LineageEnd} (h : Climb groups seen parent line ending)
    (h' : Climb groups seen parent line' ending') : line = line' ∧ ending = ending' := by
  induction h generalizing line' ending' with
  | root => cases h'; exact ⟨rfl, rfl⟩
  | cycle met =>
    cases h' with
    | cycle _ => exact ⟨rfl, rfl⟩
    | unknown new _ => exact absurd met new
    | step new _ _ => exact absurd met new
  | unknown new undefined =>
    cases h' with
    | cycle met => exact absurd met new
    | unknown _ _ => exact ⟨rfl, rfl⟩
    | step _ defined _ => rw [undefined] at defined; cases defined
  | step new defined rest ih =>
    cases h' with
    | cycle met => exact absurd met new
    | unknown _ undefined => rw [undefined] at defined; cases defined
    | step _ defined' rest' =>
      rw [defined] at defined'
      cases defined'
      obtain ⟨rfl, rfl⟩ := ih rest'
      exact ⟨rfl, rfl⟩

/-- There are no more different names than definitions. -/
theorem length_le_size {seen : List String} (once : seen.Nodup)
    (defined : ∀ p ∈ seen, p ∈ definitions groups) : seen.length ≤ (definitions groups).size := by
  have keys : seen ⊆ (definitions groups).keys := fun p hp => ExtTreeMap.mem_keys.mpr (defined p hp)
  rw [← ExtTreeMap.length_keys]
  exact (List.subperm_of_subset once keys).length_le

/-- **The bounded walk is never cut short**: each of its steps meets another of the defined names. -/
theorem climb_ancestors : ∀ (steps : Nat) {seen : List String} (parent : Option String), seen.Nodup →
    (∀ p ∈ seen, p ∈ definitions groups) → (definitions groups).size < steps + seen.length →
    Climb groups seen parent (ancestors (definitions groups) steps seen parent).1
      (ancestors (definitions groups) steps seen parent).2
  | _, _, none, _, _, _ => by simpa [ancestors] using .root _
  | 0, _, some _, once, defined, enough => by
    have bound := length_le_size once defined
    omega
  | steps + 1, seen, some parent, once, defined, enough => by
    rw [ancestors]
    by_cases met : parent ∈ seen
    · rw [if_pos met]
      exact .cycle met
    · rw [if_neg met, getElem?_definitions]
      cases known : definition? groups parent with
      | none => exact .unknown met known
      | some g =>
        have more : ∀ p ∈ parent :: seen, p ∈ definitions groups := by
          intro p hp
          rcases List.mem_cons.mp hp with rfl | hp
          · rw [ExtTreeMap.mem_iff_isSome_getElem?, getElem?_definitions, known]
            rfl
          · exact defined p hp
        exact .step met known (climb_ancestors steps g.inherits (List.nodup_cons.mpr ⟨met, once⟩) more
          (by rw [List.length_cons]; omega))

theorem climb_lineage {g : GroupDefinition} (h : g ∈ groups) :
    Climb groups [g.name] g.inherits (lineage (definitions groups) g).1
      (lineage (definitions groups) g).2 := by
  refine climb_ancestors _ _ (List.nodup_singleton _) (fun p hp => ?_) ?_
  · rw [List.mem_singleton.mp hp]
    exact mem_definitions h
  · rw [List.length_singleton]
    omega

/-- **A lineage is what the walk comes to.** -/
theorem climb_iff_lineage {g : GroupDefinition} (h : g ∈ groups) {line : List GroupDefinition}
    {ending : LineageEnd} : Climb groups [g.name] g.inherits line ending ↔
      lineage (definitions groups) g = (line, ending) := by
  have walk := climb_lineage h
  constructor
  · intro walk'
    obtain ⟨sameLine, sameEnd⟩ := walk.unique walk'
    exact Prod.ext sameLine sameEnd
  · intro same
    rw [same] at walk
    exact walk

/-! ### What a walk meets -/

/-- Every ancestor is the definition of its name. -/
theorem Climb.defined {seen : List String} {parent : Option String} {line : List GroupDefinition}
    {ending : LineageEnd} (h : Climb groups seen parent line ending) :
    ∀ d ∈ line, definition? groups d.name = some d := by
  induction h with
  | step new defined rest ih =>
    intro d hd
    rcases List.mem_cons.mp hd with rfl | hd
    · rw [(definition?_name defined).2, defined]
    · exact ih d hd
  | _ => intro d hd; cases hd

/-- **Every ancestor is reached** from where the walk begins. -/
theorem Climb.reached {seen : List String} {parent : Option String} {line : List GroupDefinition}
    {ending : LineageEnd} (h : Climb groups seen parent line ending) {start : String}
    (begins : ∀ p, parent = some p → definition? groups p ≠ none →
      ReflTransGen (Inherits groups) start p) :
    ∀ d ∈ line, ReflTransGen (Inherits groups) start d.name := by
  induction h with
  | @step seen parent g line ending new defined rest ih =>
    have here : ReflTransGen (Inherits groups) start parent :=
      begins parent rfl (by rw [defined]; exact Option.some_ne_none g)
    intro d hd
    rcases List.mem_cons.mp hd with rfl | hd
    · rw [(definition?_name defined).2]
      exact here
    · refine ih (fun p next known => here.tail ?_) d hd
      exact ⟨g, defined, next, known⟩
  | _ => intro d hd; cases hd

/-- **What has been met is closed under inheritance** at the end of a walk, if at its beginning only
the next parent was missing. -/
theorem Climb.closed {seen : List String} {parent : Option String} {line : List GroupDefinition}
    {ending : LineageEnd} (h : Climb groups seen parent line ending)
    (frontier : ∀ s ∈ seen, ∀ n, Inherits groups s n → n ∈ seen ∨ parent = some n) :
    ∀ s, s ∈ seen ∨ s ∈ line.map GroupDefinition.name → ∀ n, Inherits groups s n →
      n ∈ seen ∨ n ∈ line.map GroupDefinition.name := by
  induction h with
  | root seen =>
    rintro s (hs | hs) n next
    · exact Or.inl ((frontier s hs n next).resolve_right (by simp))
    · cases hs
  | cycle met =>
    rintro s (hs | hs) n next
    · rcases frontier s hs n next with hn | same
      · exact Or.inl hn
      · cases same
        exact Or.inl met
    · cases hs
  | unknown new undefined =>
    rintro s (hs | hs) n next
    · rcases frontier s hs n next with hn | same
      · exact Or.inl hn
      · cases same
        obtain ⟨_, _, _, known⟩ := next
        exact absurd undefined known
    · cases hs
  | @step seen parent g line ending new defined rest ih =>
    have named : g.name = parent := (definition?_name defined).2
    have onward : ∀ s ∈ parent :: seen, ∀ n, Inherits groups s n →
        n ∈ parent :: seen ∨ g.inherits = some n := by
      intro s hs n next
      rcases List.mem_cons.mp hs with rfl | hs
      · obtain ⟨g', defined', next, -⟩ := next
        rw [defined] at defined'
        cases defined'
        exact Or.inr next
      · rcases frontier s hs n next with hn | same
        · exact Or.inl (List.mem_cons_of_mem parent hn)
        · cases same
          exact Or.inl List.mem_cons_self
    have regroup : ∀ s, (s ∈ seen ∨ s ∈ (g :: line).map GroupDefinition.name) ↔
        s ∈ parent :: seen ∨ s ∈ line.map GroupDefinition.name := by
      intro s
      rw [List.map_cons, List.mem_cons, List.mem_cons, named]
      tauto
    intro s hs n next
    rw [regroup] at hs ⊢
    exact ih onward s hs n next

/-- **What a group reaches** is itself and its ancestors. -/
theorem reaches_iff_lineage {g : GroupDefinition} (own : definition? groups g.name = some g)
    {m : String} : ReflTransGen (Inherits groups) g.name m ↔
      m = g.name ∨ m ∈ (lineage (definitions groups) g).1.map GroupDefinition.name := by
  have walk := climb_lineage (definition?_name own).1
  constructor
  · intro path
    have closed := walk.closed (fun s hs n next => by
      rw [List.mem_singleton.mp hs] at next
      obtain ⟨g', own', next, -⟩ := next
      rw [own] at own'
      cases own'
      exact Or.inr next)
    simp only [List.mem_singleton] at closed
    induction path with
    | refl => exact Or.inl rfl
    | tail _ next ih => exact closed _ ih _ next
  · rintro (rfl | hm)
    · exact .refl
    · obtain ⟨d, hd, rfl⟩ := List.mem_map.mp hm
      refine walk.reached (fun p next known => .single ?_) d hd
      exact ⟨g, own, next, known⟩

/-! ### Grants -/

theorem Group.has_inherit (g parent : Group) (permission : String) :
    (g.inherit parent).has permission = (g.has permission || parent.has permission) := by
  simp [Group.has, Group.inherit]

theorem GroupDefinition.has_own (g : GroupDefinition) (permission : String) :
    g.own.has permission = true ↔ permission ∈ g.permissions := by
  simp [Group.has, GroupDefinition.own, Group.ofList]

/-- A group that inherits from several has what any of them lists. -/
theorem has_foldl_inherit (permission : String) : ∀ (line : List GroupDefinition) (g : Group),
    (line.foldl (fun group ancestor => group.inherit ancestor.own) g).has permission = true ↔
      g.has permission = true ∨ ∃ d ∈ line, permission ∈ d.permissions
  | [], g => by simp
  | d :: line, g => by
    rw [List.foldl_cons, has_foldl_inherit permission line, Group.has_inherit, Bool.or_eq_true,
      d.has_own]
    simp only [List.mem_cons, exists_eq_or_imp]
    tauto

/-- **A resolved group** has what is listed for a name that it reaches. -/
theorem has_resolve {g : GroupDefinition} (own : definition? groups g.name = some g)
    (permission : String) : (g.resolve (definitions groups)).has permission = true ↔
      ∃ m d, ReflTransGen (Inherits groups) g.name m ∧ definition? groups m = some d ∧
        permission ∈ d.permissions := by
  have walk := climb_lineage (definition?_name own).1
  rw [GroupDefinition.resolve, has_foldl_inherit, g.has_own]
  simp only [reaches_iff_lineage own]
  constructor
  · rintro (listed | ⟨d, hd, listed⟩)
    · exact ⟨g.name, g, Or.inl rfl, own, listed⟩
    · exact ⟨d.name, d, Or.inr (List.mem_map_of_mem hd), walk.defined d hd, listed⟩
  · rintro ⟨m, d, rfl | hm, defined, listed⟩
    · rw [own] at defined
      cases defined
      exact Or.inl listed
    · obtain ⟨d', hd', rfl⟩ := List.mem_map.mp hm
      rw [walk.defined d' hd'] at defined
      cases defined
      exact Or.inr ⟨d, hd', listed⟩

end BlockWorld
