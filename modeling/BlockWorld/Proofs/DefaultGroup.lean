import BlockWorld.Proofs.Assembly

/-! # The default group is the one found under its name

A manager has its default group twice: as the default, and among its groups under a name. A group that is
added may replace it, and then both have to change. Whether they agree is a matter of objects and not of
names and grants, so it is told by serials, and these tell objects apart as long as every object filed has
one of its own.

* `Origin`: how a manager comes into being; `GroupManager.after`: the groups added to it since.
* `Filed`: each object stands under its own name and has a serial of its own; `Filed.insert`: filing a new
  object keeps this.
* `GroupManager.Settled`: the default group is the object found under its name; `Settled.addGroup`: adding
  a group keeps this.
* `group?_after_of_last`, `group?_after_of_ne`: what is found under a name.
* `default_group_registered`: the manager after any additions. -/

namespace BlockWorld

open Std

/-- How a manager comes into being: from the name of its default group, or from a configuration. -/
inductive Origin where
  | name (defaultGroup : String)
  | configuration (settings : GroupSettings)

namespace Origin

def manager : Origin → GroupManager
  | name defaultGroup => GroupManager.named defaultGroup
  | configuration settings => (GroupManager.ofSettings settings).1

/-- The name of the default group at the beginning. -/
def defaultGroup : Origin → String
  | name defaultGroup => defaultGroup
  | configuration settings => settings.defaultGroup

end Origin

/-! ### Objects on file -/

/-- Each object stands under its own name and has a serial of its own, below the next one. -/
structure Filed (next : Nat) (objects : ExtTreeMap String SerialGroup) : Prop where
  name : ∀ {name : String} {object : SerialGroup}, objects[name]? = some object →
    object.group.name = name
  lt : ∀ {name : String} {object : SerialGroup}, objects[name]? = some object → object.serial < next
  apart : ∀ {name other : String} {object object' : SerialGroup}, objects[name]? = some object →
    objects[other]? = some object' → object.serial = object'.serial → name = other

theorem filed_empty : Filed 0 ∅ := by
  refine ⟨fun h => ?_, fun h => ?_, fun h => ?_⟩ <;> simp at h

/-- **A new object is filed** under its name, whatever stood there. -/
theorem Filed.insert {next : Nat} {objects : ExtTreeMap String SerialGroup} (h : Filed next objects)
    (g : Group) : Filed (next + 1) (objects.insert g.name ⟨next, g⟩) := by
  -- What is found afterwards is the new object, or was found before.
  have found {name : String} {object : SerialGroup}
      (hf : (objects.insert g.name ⟨next, g⟩)[name]? = some object) :
      (name = g.name ∧ object = ⟨next, g⟩) ∨ objects[name]? = some object := by
    simp only [ExtTreeMap.getElem?_insert, Std.compare_eq_iff_eq] at hf
    split at hf
    · rename_i same
      exact Or.inl ⟨same.symm, (Option.some.inj hf).symm⟩
    · exact Or.inr hf
  refine ⟨fun hf => ?_, fun hf => ?_, fun hf hf' same => ?_⟩
  · rcases found hf with ⟨rfl, rfl⟩ | old
    · rfl
    · exact h.name old
  · rcases found hf with ⟨rfl, rfl⟩ | old
    · exact Nat.lt_succ_self next
    · exact Nat.lt_succ_of_lt (h.lt old)
  · rcases found hf with ⟨rfl, rfl⟩ | old <;> rcases found hf' with ⟨rfl, rfl⟩ | old'
    · rfl
    · exact absurd same (Nat.ne_of_gt (h.lt old'))
    · exact absurd same (Nat.ne_of_lt (h.lt old))
    · exact h.apart old old' same

namespace GroupManager

variable {m : GroupManager} {name : String} {added : List Group}

theorem filed_resolveAll (groups : List GroupDefinition) :
    Filed (resolveAll groups).1 (resolveAll groups).2 := by
  unfold resolveAll
  generalize definitions groups = defs
  induction groups using List.reverseRecOn with
  | nil => exact filed_empty
  | append_singleton groups g ih =>
    rw [List.foldl_concat, ← GroupDefinition.resolve_name defs g]
    exact ih.insert (g.resolve defs)

/-! ### The default group -/

/-- The default group is the object that is found under `name`. -/
structure Settled (name : String) (m : GroupManager) : Prop where
  filed : Filed m.nextSerial m.groups
  default : m.group? name = some m.defaultGroup

theorem Settled.default_name (h : m.Settled name) : m.defaultGroup.group.name = name :=
  h.filed.name h.default

theorem settled_named (name : String) : (named name).Settled name := by
  refine ⟨filed_empty.insert (Group.empty name), ?_⟩
  simp [named, group?]

/-- A manager made from a configuration, with its default group found or made up. -/
theorem settled_ofSettings (settings : GroupSettings) :
    (ofSettings settings).1.Settled settings.defaultGroup := by
  refine ⟨?_, (ofSettings_built settings).default⟩
  have filed := filed_resolveAll settings.groups
  unfold ofSettings
  generalize resolveAll settings.groups = filing at filed ⊢
  obtain ⟨serial, objects⟩ := filing
  dsimp only
  split
  · exact filed
  · exact filed.insert (Group.empty settings.defaultGroup)

theorem settled_origin (origin : Origin) : origin.manager.Settled origin.defaultGroup := by
  cases origin with
  | name defaultGroup => exact settled_named defaultGroup
  | configuration settings => exact settled_ofSettings settings

/-- **One group more**: where it replaces the default group, it does so in both places. -/
theorem Settled.addGroup (h : m.Settled name) (g : Group) : (m.addGroup g).Settled name := by
  refine ⟨h.filed.insert g, ?_⟩
  rw [group?_addGroup, defaultGroup_addGroup, h.default_name]
  split
  · rfl
  · exact h.default

/-! ### Groups added since -/

/-- The manager to which the groups were added, one after the other. -/
def after (m : GroupManager) (added : List Group) : GroupManager := added.foldl GroupManager.addGroup m

theorem Settled.after (h : m.Settled name) : (m.after added).Settled name := by
  induction added generalizing m with
  | nil => exact h
  | cons g added ih => exact ih (h.addGroup g)

theorem nextSerial_after (m : GroupManager) (added : List Group) :
    (m.after added).nextSerial = m.nextSerial + added.length := by
  induction added generalizing m with
  | nil => rfl
  | cons g added ih =>
    have h : (m.after (g :: added)).nextSerial = m.nextSerial + 1 + added.length := ih (m.addGroup g)
    rw [h, List.length_cons]
    omega

/-- A name under which nothing was added leads to what it led to. -/
theorem group?_after_of_ne (other : ∀ g ∈ added, g.name ≠ name) :
    (m.after added).group? name = m.group? name := by
  induction added generalizing m with
  | nil => rfl
  | cons g added ih =>
    have h : (m.after (g :: added)).group? name = (m.addGroup g).group? name :=
      ih fun g' hg' => other g' (List.mem_cons_of_mem g hg')
    rw [h, group?_addGroup, if_neg (other g List.mem_cons_self)]

/-- **The last group added under a name** is found under it. -/
theorem group?_after_of_last {before later : List Group} {g : Group}
    (last : ∀ g' ∈ later, g'.name ≠ g.name) :
    (m.after (before ++ g :: later)).group? g.name = some ⟨m.nextSerial + before.length, g⟩ := by
  have h : m.after (before ++ g :: later) = ((m.after before).addGroup g).after later :=
    List.foldl_append
  rw [h, group?_after_of_ne last, group?_addGroup, if_pos rfl, nextSerial_after]

end GroupManager

/-- **The default group is always the registered one.** A manager comes from the name of its default group or
from any configuration, and then any groups are added to it, also in place of the default group. The
default group is the very object that is found under its name, and under no other name is that object
found; and its name is still the one of the beginning. Whatever is found under a name has that name. It is
the last group added under it, which is an object of its own, with the serial that was next when it came;
or what was found there at the beginning, if none was, with a serial below those of all groups added. -/
theorem default_group_registered (origin : Origin) (added : List Group) :
    let m := origin.manager.after added
    m.group? m.defaultGroup.group.name = some m.defaultGroup ∧
    m.defaultGroup.group.name = origin.defaultGroup ∧
    (∀ name object, m.group? name = some object → object.group.name = name ∧
      (object.serial = m.defaultGroup.serial ↔ name = origin.defaultGroup)) ∧
    (∀ before g later, added = before ++ g :: later → (∀ g' ∈ later, g'.name ≠ g.name) →
      m.group? g.name = some ⟨origin.manager.nextSerial + before.length, g⟩) ∧
    (∀ name, (∀ g ∈ added, g.name ≠ name) → m.group? name = origin.manager.group? name) ∧
    ∀ name object, origin.manager.group? name = some object →
      object.serial < origin.manager.nextSerial := by
  intro m
  have initial : origin.manager.Settled origin.defaultGroup := GroupManager.settled_origin origin
  have settled : m.Settled origin.defaultGroup := initial.after
  refine ⟨?_, settled.default_name, fun name object found => ⟨settled.filed.name found, ?_⟩, ?_,
    fun name => GroupManager.group?_after_of_ne, fun name object => initial.filed.lt⟩
  · rw [settled.default_name]
    exact settled.default
  · constructor
    · exact settled.filed.apart found settled.default
    · rintro rfl
      rw [settled.default] at found
      cases found
      rfl
  · rintro before g later rfl last
    exact GroupManager.group?_after_of_last last

/-- A default group that was made up is replaced, a group inherits from it, and it is replaced again. -/
theorem default_group_registered_replaced :
    let origin := Origin.configuration { groups := [⟨"guest", ["look"], none⟩] }
    let member := Group.ofList "member" ["chat"]
    let staff := (Group.ofList "staff" ["kick"]).inherit member
    let newer := Group.ofList "member" ["build"]
    let m := origin.manager.after [member, staff, newer]
    m.group? "member" = some ⟨4, newer⟩ ∧ m.group? "member" = some m.defaultGroup ∧
      m.group? "staff" = some ⟨3, staff⟩ ∧ m.group? "guest" = origin.manager.group? "guest" ∧
      (3 : Nat) ≠ m.defaultGroup.serial := by
  intro origin member staff newer m
  obtain ⟨registered, named, objects, last, others, -⟩ :=
    default_group_registered origin [member, staff, newer]
  have found : m.group? "staff" = some ⟨3, staff⟩ := last [member] staff [newer] rfl (by decide)
  rw [named] at registered
  have apart := (objects "staff" _ found).2
  exact ⟨last [member, staff] newer [] rfl (by simp), registered, found,
    others "guest" (by decide), fun same => absurd (apart.mp same) (by decide)⟩

end BlockWorld
