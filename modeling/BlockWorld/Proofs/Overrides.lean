import Mathlib.Data.List.Induction
import BlockWorld.Permission.Overrides

/-! # What a player may do follows from the last call

A denying override of something that the group does not grant cannot be removed, and can be once the
player is in another group. So which overrides are stored depends on everything that was called before.
What the player may do does not: the group of now decides, and the last call about the permission.

* `PermissionCall`, `PermissionSet.after`: the calls that change permissions, one after the other.
* `override?_add`, `override?_remove`, `override?_perform`: what is stored after one call.
* `granted_perform`: the step of the law; `granted_after`: the law, over all calls.
* `permissions_follow_history`: what a player may do, and what the calls answer. -/

namespace BlockWorld

open Std

/-- A call that changes the permissions of a player. -/
inductive PermissionCall where
  | add (permission : Permission)
  | remove (name : String)
  | setGroup (group : Group)
deriving DecidableEq

namespace PermissionCall

/-- The permission that a call is about. -/
def named? : PermissionCall → Option String
  | .add permission => some permission.name
  | .remove name => some name
  | .setGroup _ => none

/-- The group that a call puts the player into. -/
def group? : PermissionCall → Option Group
  | .setGroup group => some group
  | _ => none

/-- The last of the calls about a permission. -/
def last? (calls : List PermissionCall) (name : String) : Option PermissionCall :=
  (calls.filter (·.named? = some name)).getLast?

theorem last?_concat (calls : List PermissionCall) (call : PermissionCall) (name : String) :
    last? (calls ++ [call]) name = if call.named? = some name then some call else last? calls name := by
  unfold last?
  rw [List.filter_append]
  by_cases h : call.named? = some name <;> simp [h]

end PermissionCall

namespace PermissionSet

variable {s : PermissionSet} {name other : String}

/-- What a call makes of the permissions. -/
def perform (s : PermissionSet) : PermissionCall → PermissionSet
  | .add permission => (s.add permission).2
  | .remove name => (s.remove name).2
  | .setGroup group => s.setGroup group

/-- The permissions after the calls. -/
def after (s : PermissionSet) (calls : List PermissionCall) : PermissionSet := calls.foldl perform s

theorem after_concat (s : PermissionSet) (calls : List PermissionCall) (call : PermissionCall) :
    s.after (calls ++ [call]) = (s.after calls).perform call := by
  simp [after]

/-! ### One call -/

theorem add_replaced (s : PermissionSet) (p : Permission) :
    (s.add p).1 = true ↔ s.override? p.name ≠ none := by
  rw [add, override?, ExtTreeMap.contains_eq_isSome_getElem?, Option.isSome_iff_ne_none]

theorem override?_add (s : PermissionSet) (p : Permission) (name : String) :
    (s.add p).2.override? name = if p.name = name then some p else s.override? name := by
  simp only [add, override?, ExtTreeMap.getElem?_insert, Std.compare_eq_iff_eq]

theorem remove_removed (s : PermissionSet) (name : String) :
    (s.remove name).1 = true ↔ s.override? name ≠ none ∧ s.has name = true := by
  rw [← Option.isSome_iff_ne_none, override?, ← ExtTreeMap.contains_eq_isSome_getElem?,
    ← Bool.and_eq_true, remove]
  split
  · rename_i removable
    exact iff_of_true rfl removable
  · rename_i fixed
    exact iff_of_false Bool.false_ne_true fixed

theorem remove_refused (h : (s.remove name).1 = false) : (s.remove name).2 = s := by
  unfold remove at h ⊢
  split at h
  · cases h
  · rename_i fixed
    rw [if_neg fixed]

theorem group_remove (s : PermissionSet) (name : String) : (s.remove name).2.group = s.group := by
  unfold remove
  split <;> rfl

/-- Where a permission is granted, its override is gone after a removal; everything else is stored as
before. -/
theorem override?_remove (s : PermissionSet) (name other : String) :
    (s.remove name).2.override? other =
      if name = other ∧ s.has name = true then none else s.override? other := by
  by_cases removed : (s.remove name).1 = true
  · have granted : s.has name = true := ((remove_removed s name).mp removed).2
    have erased : (s.remove name).2 = { s with overrides := s.overrides.erase name } := by
      unfold remove at removed ⊢
      split at removed
      · rename_i removable
        rw [if_pos removable]
      · cases removed
    rw [erased, override?, ExtTreeMap.getElem?_erase]
    simp only [Std.compare_eq_iff_eq, granted, and_true]
    rfl
  · rw [remove_refused (Bool.eq_false_iff.mpr removed)]
    split
    · rename_i wanted
      obtain ⟨rfl, granted⟩ := wanted
      by_contra stored
      exact removed ((remove_removed s name).mpr ⟨stored, granted⟩)
    · rfl

/-- **A call about something else** leaves an override alone. -/
theorem override?_perform {call : PermissionCall} (apart : call.named? ≠ some name) :
    (s.perform call).override? name = s.override? name := by
  cases call with
  | add p =>
    have apart : p.name ≠ name := fun same => apart (congrArg some same)
    rw [perform, override?_add, if_neg apart]
  | remove other =>
    have apart : other ≠ name := fun same => apart (congrArg some same)
    rw [perform, override?_remove, if_neg fun h => apart h.1]
  | setGroup group => rfl

theorem group_perform (s : PermissionSet) (call : PermissionCall) :
    (s.perform call).group = call.group?.getD s.group := by
  cases call with
  | add p => rfl
  | remove name => exact group_remove s name
  | setGroup group => rfl

/-! ### All calls -/

/-- An override that grants `name` is stored. -/
def Granted (s : PermissionSet) (name : String) : Prop :=
  ∃ p, s.override? name = some p ∧ p.granted = true

theorem has_iff (s : PermissionSet) (name : String) :
    s.has name = true ↔ s.group.has name = true ∨ s.Granted name := by
  rw [has, Bool.or_eq_true, Option.any_eq_true]
  rfl

/-- A removal leaves no override that grants. -/
theorem not_granted_remove (s : PermissionSet) (name : String) : ¬ (s.remove name).2.Granted name := by
  rintro ⟨p, stored, grants⟩
  rw [override?_remove] at stored
  split at stored
  · cases stored
  · rename_i kept
    exact kept ⟨rfl, (s.has_iff name).mpr (Or.inr ⟨p, stored, grants⟩)⟩

/-- **One call more**: a call about the permission decides alone whether an override grants it
afterwards, and no other call matters. -/
theorem granted_perform (s : PermissionSet) (call : PermissionCall) (name : String) :
    (s.perform call).Granted name ↔
      if call.named? = some name then call = .add (.grant name) else s.Granted name := by
  split
  · rename_i about
    cases call with
    | add p =>
      obtain ⟨other, granted⟩ := p
      cases about
      simp [perform, Granted, override?_add, Permission.grant]
    | remove other =>
      cases about
      exact iff_of_false (s.not_granted_remove name) (by simp)
    | setGroup group => cases about
  · rename_i apart
    rw [Granted, override?_perform apart]
    rfl

/-- **Whether an override grants a permission** is decided by the last call about it. -/
theorem granted_after (group : Group) (calls : List PermissionCall) (name : String) :
    ((ofGroup group).after calls).Granted name ↔
      PermissionCall.last? calls name = some (.add (.grant name)) := by
  induction calls using List.reverseRecOn with
  | nil => simp [after, Granted, ofGroup, override?, PermissionCall.last?]
  | append_singleton calls call ih =>
    rw [after_concat, granted_perform, PermissionCall.last?_concat, ih]
    split
    · rw [Option.some.injEq]
    · rfl

/-- The group is the last one that was set. -/
theorem group_after (group : Group) (calls : List PermissionCall) :
    ((ofGroup group).after calls).group =
      (calls.filterMap PermissionCall.group?).getLast?.getD group := by
  induction calls using List.reverseRecOn with
  | nil => rfl
  | append_singleton calls call ih =>
    rw [after_concat, group_perform, ih, List.filterMap_append]
    cases h : call.group? <;> simp [h]

end PermissionSet

open PermissionSet

/-- **What a player may do follows the history of calls.** After any overrides were added and removed
and any groups set, in any order, a permission is granted if the group that was set last grants it, or
if the last call about the permission added a granting override. A removal leaves what the group grants,
whatever it answers. An addition answers whether an override was stored. A removal answers whether one
was stored and the permission was granted, and where it answers no it changes nothing. Calls about other
permissions and changes of the group leave a stored override as it is. -/
theorem permissions_follow_history (group : Group) (calls : List PermissionCall) (name : String) :
    let s := (ofGroup group).after calls
    s.group = (calls.filterMap PermissionCall.group?).getLast?.getD group ∧
    (s.has name = true ↔ s.group.has name = true ∨
      PermissionCall.last? calls name = some (.add (.grant name))) ∧
    (s.remove name).2.has name = s.group.has name ∧
    (∀ granted, (s.add ⟨name, granted⟩).1 = true ↔ s.override? name ≠ none) ∧
    ((s.remove name).1 = true ↔ s.override? name ≠ none ∧ s.has name = true) ∧
    ((s.remove name).1 = false → (s.remove name).2 = s) ∧
    ∀ call : PermissionCall, call.named? ≠ some name →
      (s.perform call).override? name = s.override? name := by
  intro s
  refine ⟨group_after group calls, ?_, ?_, fun granted => add_replaced s ⟨name, granted⟩,
    remove_removed s name, remove_refused, fun call apart => override?_perform apart⟩
  · rw [has_iff, granted_after]
  · have left := has_iff (s.remove name).2 name
    rw [group_remove, or_iff_left (not_granted_remove s name)] at left
    exact Bool.eq_iff_iff.mpr left

/-- A denying override that cannot be removed among guests is still there among the crew, which may
chat. -/
theorem permissions_follow_history_lingering :
    let guest := Group.empty "guest"
    let calls : List PermissionCall := [.add (.deny "chat"), .remove "chat"]
    let s := (ofGroup guest).after calls
    (s.remove "chat").1 = false ∧ (s.remove "chat").2 = s ∧
      (s.perform (.setGroup (.ofList "crew" ["chat"]))).override? "chat" = s.override? "chat" := by
  intro guest calls s
  obtain ⟨-, -, -, -, -, refused, others⟩ := permissions_follow_history guest calls "chat"
  have no : (s.remove "chat").1 = false := by decide +kernel
  exact ⟨no, refused no, others _ (by decide)⟩

end BlockWorld
