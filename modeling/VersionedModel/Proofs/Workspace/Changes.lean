import Mathlib.Data.List.Perm.Basic
import VersionedModel.Workspace.Lifetime
import VersionedModel.Workspace.Stacking

/-!
# What the small changes of a workspace do

Marking, naming and declaring a component and changing a stack's members, as seen through
`component?`, `isOwned` and `stackTable`. A workspace's members are those of one stack and those
of the others, which stay when that stack is changed (`Workspace.allMembers_perm`).
-/

namespace VersionedModel

namespace Workspace

/-! ### What the small changes do -/

section Changes

variable (w : Workspace) (id j : Nat) (b : Bool) (name : String) (s : StackId)

@[simp] theorem stackTable_mark : (w.mark id b).stackTable = w.stackTable := rfl

@[simp] theorem stackTable_rename : (w.rename id name).stackTable = w.stackTable := rfl

@[simp] theorem stackTable_declare (c : Component Schema) :
    (w.declare c).2.stackTable = w.stackTable := rfl

@[simp] theorem component?_mark : (w.mark id b).component? j = w.component? j := by
  simp only [component?, mark, List.getElem?_modify]
  cases w.holdings[j]? with
  | none => rfl
  | some h =>
    by_cases hj : id = j <;> simp [hj]

theorem isOwned_mark : (w.mark id b).isOwned j =
    if id = j ∧ j < w.holdings.length then b else w.isOwned j := by
  simp only [isOwned, mark, List.getElem?_modify]
  cases h : w.holdings[j]? with
  | none =>
    have := List.getElem?_eq_none_iff.1 h
    rw [if_neg (by omega)]
    rfl
  | some a =>
    have := (List.getElem?_eq_some_iff.1 h).1
    by_cases hj : id = j <;> simp [hj, this]

@[simp] theorem isOwned_rename : (w.rename id name).isOwned j = w.isOwned j := by
  simp only [isOwned, rename, List.getElem?_modify]
  cases w.holdings[j]? with
  | none => rfl
  | some h =>
    by_cases hj : id = j <;> simp [hj]

theorem component?_rename : (w.rename id name).component? j =
    if id = j then (w.component? j).map fun c => { c with name := some name }
    else w.component? j := by
  simp only [component?, rename, List.getElem?_modify, Option.map_map]
  cases w.holdings[j]? with
  | none => simp
  | some h =>
    by_cases hj : id = j <;> simp [hj]

theorem component?_declare (c : Component Schema) : (w.declare c).2.component? j =
    if j = w.holdings.length then some { c with id := j } else w.component? j := by
  simp only [component?, declare, List.getElem?_append]
  split
  · rw [if_neg (by omega)]
  · split
    · simp [*]
    · rw [List.getElem?_eq_none (by simp; omega), List.getElem?_eq_none (by omega)]

@[simp] theorem isOwned_declare (c : Component Schema) :
    (w.declare c).2.isOwned j = w.isOwned j := by
  simp only [isOwned, declare, List.getElem?_append]
  split
  · rfl
  · rw [List.getElem?_eq_none (i := j) (l := w.holdings) (by omega)]
    rcases Nat.eq_zero_or_pos (j - w.holdings.length) with h | h
    · simp [h]
    · rw [List.getElem?_eq_none (by simp; omega)]

@[simp] theorem component?_setMembers (ids : List ComponentId) :
    (w.setMembers s ids).component? j = w.component? j := rfl

@[simp] theorem isOwned_setMembers (ids : List ComponentId) :
    (w.setMembers s ids).isOwned j = w.isOwned j := rfl

@[simp] theorem component?_openStack (rule : Rule) :
    (w.openStack rule).2.component? j = w.component? j := rfl

@[simp] theorem isOwned_openStack (rule : Rule) :
    (w.openStack rule).2.isOwned j = w.isOwned j := rfl

@[simp] theorem stackTable_release (ids : List ComponentId) :
    (w.release ids).stackTable = w.stackTable := by
  induction ids generalizing w with
  | nil => rfl
  | cons id ids ih => exact ih (w.mark id false)

@[simp] theorem component?_release (ids : List ComponentId) :
    (w.release ids).component? j = w.component? j := by
  induction ids generalizing w with
  | nil => rfl
  | cons id ids ih => exact (ih (w.mark id false)).trans (component?_mark w id j false)

theorem lt_of_isOwned {w : Workspace} {j : Nat} (h : w.isOwned j = true) :
    j < w.holdings.length := by
  by_contra hj
  rw [isOwned, List.getElem?_eq_none (by omega)] at h
  simp at h

theorem isOwned_mark_false : (w.mark id false).isOwned j = true ↔
    w.isOwned j = true ∧ j ≠ id := by
  rw [isOwned_mark]
  split
  · next h => simp [h.1]
  · next h =>
    refine ⟨fun ho => ⟨ho, ?_⟩, And.left⟩
    rintro rfl
    exact h ⟨rfl, lt_of_isOwned ho⟩

theorem isOwned_release (ids : List ComponentId) : (w.release ids).isOwned j = true ↔
    w.isOwned j = true ∧ j ∉ ids := by
  induction ids generalizing w with
  | nil => simp [release]
  | cons id ids ih =>
    change ((w.mark id false).release ids).isOwned j = true ↔ _
    rw [ih, isOwned_mark_false]
    simp only [List.mem_cons, not_or, and_assoc]

theorem component?_isSome {w : Workspace} {id : Nat} :
    (w.component? id).isSome ↔ id < w.holdings.length := by
  simp [component?]

end Changes

/-! ### Members of all stacks -/

/-- The members that a place of the table of stacks has. -/
def membersAt (t : Option Stack) : List ComponentId :=
  (t.map Stack.members).getD []

theorem stackTable_eq {w : Workspace} {s : StackId} {t : Stack} (h : w.stack? s = some t) :
    ∃ hs : s < w.stackTable.length, w.stackTable[s] = some t := by
  rw [stack?, Option.join_eq_some_iff] at h
  exact List.getElem?_eq_some_iff.1 h

theorem memberIds_eq {w : Workspace} {s : StackId} {t : Stack} (h : w.stack? s = some t) :
    w.memberIds s = t.members := by
  simp [memberIds, h]

/-- A stack's members and those of the other stacks, which stay when this one is changed. -/
theorem allMembers_perm {w : Workspace} {s : StackId} {t : Stack} (h : w.stack? s = some t) :
    ∃ others, w.allMembers.Perm (w.memberIds s ++ others) ∧
      ∀ f : Option Stack → Option Stack,
        ({ w with stackTable := w.stackTable.modify s f }).allMembers.Perm
          (membersAt (f (some t)) ++ others) := by
  obtain ⟨hs, ht⟩ := stackTable_eq h
  refine ⟨((w.stackTable.take s).flatMap membersAt) ++
    (w.stackTable.drop (s + 1)).flatMap membersAt, ?_, fun f => ?_⟩
  · -- The table is what stands before the stack, the stack, and what stands behind it.
    have hsplit : w.stackTable =
        w.stackTable.take s ++ some t :: w.stackTable.drop (s + 1) := by
      rw [← ht, List.getElem_cons_drop, List.take_append_drop]
    have : w.allMembers = (w.stackTable.take s).flatMap membersAt ++
        (t.members ++ (w.stackTable.drop (s + 1)).flatMap membersAt) := by
      conv_lhs => rw [allMembers, hsplit]
      simp only [List.flatMap_append, List.flatMap_cons]
      rfl
    rw [this, memberIds_eq h]
    exact List.perm_append_comm_assoc ..
  · have : ({ w with stackTable := w.stackTable.modify s f } : Workspace).allMembers =
        (w.stackTable.take s).flatMap membersAt ++
          (membersAt (f (some t)) ++ (w.stackTable.drop (s + 1)).flatMap membersAt) := by
      rw [allMembers, List.modify_eq_take_cons_drop hs, ht]
      simp only [List.flatMap_append, List.flatMap_cons]
      rfl
    rw [this]
    exact List.perm_append_comm_assoc ..

theorem allMembers_setMembers_perm {w : Workspace} {s : StackId} {t : Stack}
    (h : w.stack? s = some t) :
    ∃ others, w.allMembers.Perm (w.memberIds s ++ others) ∧
      ∀ ids, (w.setMembers s ids).allMembers.Perm (ids ++ others) := by
  obtain ⟨others, hall, hset⟩ := allMembers_perm h
  exact ⟨others, hall, fun ids => hset _⟩

/-- A stack that is not there has nothing to change. -/
theorem modify_of_none {w : Workspace} {s : StackId} (h : w.stack? s = none)
    {f : Option Stack → Option Stack} (hf : f none = none) :
    w.stackTable.modify s f = w.stackTable := by
  refine List.ext_getElem? fun i => ?_
  rw [List.getElem?_modify]
  by_cases hi : s = i
  · subst hi
    rw [stack?] at h
    cases ht : w.stackTable[s]? with
    | none => rfl
    | some t => cases t <;> simp_all
  · simp [hi]

theorem setMembers_of_none {w : Workspace} {s : StackId} (h : w.stack? s = none)
    (ids : List ComponentId) : w.setMembers s ids = w := by
  rw [setMembers, modify_of_none h rfl]

theorem memberIds_of_none {w : Workspace} {s : StackId} (h : w.stack? s = none) :
    w.memberIds s = [] := by
  simp [memberIds, h]

theorem mem_allMembers {w : Workspace} {id : ComponentId} :
    id ∈ w.allMembers ↔ ∃ s t, w.stack? s = some t ∧ id ∈ t.members := by
  simp only [allMembers, List.mem_flatMap, stack?]
  constructor
  · rintro ⟨t, ht, hid⟩
    obtain ⟨s, hs⟩ := List.mem_iff_getElem?.1 ht
    cases t with
    | none => simp at hid
    | some t => exact ⟨s, t, by simp [hs], by simpa using hid⟩
  · rintro ⟨s, t, hs, hid⟩
    exact ⟨some t, List.mem_of_getElem? (Option.join_eq_some_iff.1 hs), by simpa using hid⟩

theorem mem_allMembers_of_mem_memberIds {w : Workspace} {s : StackId} {id : ComponentId}
    (h : id ∈ w.memberIds s) : id ∈ w.allMembers := by
  cases ht : w.stack? s with
  | none => simp [memberIds_of_none ht] at h
  | some t => exact mem_allMembers.2 ⟨s, t, ht, memberIds_eq ht ▸ h⟩

end Workspace

end VersionedModel
