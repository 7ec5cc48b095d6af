import Mathlib.Data.List.Nodup
import Mathlib.Data.List.Perm.Basic
import VersionedModel.Proofs.Workspace.Changes

/-!
# Accounts of a workspace

The accounts of a workspace are in order (`Workspace.Accounted`) if the marks say exactly which
components are members of a stack, no component is a member twice, and every member has a valid
name. Between being claimed and being put on a stack a component is marked and no member, so the
invariant has the components that are underway as an argument. What enters and leaves a stack as
its mark changes leaves the accounts in order.
-/

namespace VersionedModel

namespace Workspace

/-- A component is there and has a valid name. -/
def Named (w : Workspace) (id : ComponentId) : Prop :=
  ∃ c name, w.component? id = some c ∧ c.name = some name ∧ Path.validateName name = .ok ()

/-- The marks are those of the members and of what is underway to a stack, nothing of this occurs
twice, and members have valid names. -/
structure Accounted (underway : List ComponentId) (w : Workspace) : Prop where
  /-- The marks. -/
  isOwned_iff : ∀ id, w.isOwned id = true ↔ id ∈ underway ++ w.allMembers
  /-- Nothing occurs twice. -/
  nodup : (underway ++ w.allMembers).Nodup
  /-- Members have names. -/
  named : ∀ id ∈ w.allMembers, w.Named id
  /-- Components know their identities. -/
  id_eq : ∀ id c, w.component? id = some c → c.id = id

/-- The components of `w` that have a name are there in `w'` as they were in `w`. -/
def Later (w w' : Workspace) : Prop :=
  ∀ id c, w.component? id = some c → c.name.isSome → w'.component? id = some c

theorem Later.refl (w : Workspace) : Later w w := fun _ _ h _ => h

theorem Later.trans {w₁ w₂ w₃ : Workspace} (h : Later w₁ w₂) (h' : Later w₂ w₃) : Later w₁ w₃ :=
  fun id c hc hn => h' id c (h id c hc hn) hn

/-- The members of a stack have valid names. -/
theorem Accounted.exists_name_of_mem_members {underway : List ComponentId} {w : Workspace}
    (hw : Accounted underway w) {s : StackId} {c : Component Schema} (hc : c ∈ w.members s) :
    ∃ name, c.name = some name ∧ Path.validateName name = .ok () := by
  obtain ⟨id, hid, hc⟩ := List.mem_filterMap.1 hc
  obtain ⟨c', name, hc', hname⟩ := hw.named id (mem_allMembers_of_mem_memberIds hid)
  obtain rfl : c = c' := Option.some.inj (hc.symm.trans hc')
  exact ⟨name, hname⟩

/-! ### Accounts stay in order -/

theorem Named.of_component?_eq {w w' : Workspace} {id : ComponentId}
    (hc : w'.component? id = w.component? id) (h : w.Named id) : w'.Named id := by
  obtain ⟨c, name, hid, hrest⟩ := h
  exact ⟨c, name, hc.trans hid, hrest⟩

theorem Named.lt {w : Workspace} {id : Nat} (h : w.Named id) : id < w.holdings.length := by
  obtain ⟨c, -, hc, -⟩ := h
  exact component?_isSome.1 (by simp [hc])

theorem Named.rename {w : Workspace} {id : ComponentId} (h : w.Named id) (j : ComponentId)
    {name : String} (hname : Path.validateName name = .ok ()) : (w.rename j name).Named id := by
  obtain ⟨c, n, hc, hn, hv⟩ := h
  by_cases hj : j = id
  · exact ⟨_, name, by rw [component?_rename, if_pos hj, hc]; rfl, rfl, hname⟩
  · exact ⟨c, n, by rw [component?_rename, if_neg hj, hc], hn, hv⟩

namespace Accounted

variable {w w' : Workspace} {underway : List ComponentId}

protected theorem empty : Accounted [] Workspace.empty where
  isOwned_iff := by simp [isOwned, allMembers, Workspace.empty]
  nodup := by simp [allMembers, Workspace.empty]
  named := by simp [allMembers, Workspace.empty]
  id_eq := by simp [component?, Workspace.empty]

/-- Members and marks stay, and components change in no way that matters. -/
theorem of_stackTable_eq (h : Accounted underway w) (ht : w'.stackTable = w.stackTable)
    (ho : ∀ id, w'.isOwned id = w.isOwned id) (hn : ∀ id, w.Named id → w'.Named id)
    (hid : ∀ id c, w'.component? id = some c → c.id = id) : Accounted underway w' where
  isOwned_iff id := by rw [ho, allMembers, ht]; exact h.isOwned_iff id
  nodup := by rw [allMembers, ht]; exact h.nodup
  named id hmem := by
    rw [allMembers, ht] at hmem
    exact hn id (h.named id hmem)
  id_eq := hid

theorem declare (h : Accounted underway w) (c : Component Schema) :
    Accounted underway (w.declare c).2 := by
  refine h.of_stackTable_eq rfl (fun id => by simp) (fun id hn => ?_) fun id c' hc' => ?_
  · refine hn.of_component?_eq ?_
    rw [component?_declare, if_neg (Nat.ne_of_lt hn.lt)]
  · rw [component?_declare] at hc'
    split at hc'
    · cases hc'; rfl
    · exact h.id_eq id c' hc'

theorem rename (h : Accounted underway w) (id : ComponentId) {name : String}
    (hname : Path.validateName name = .ok ()) : Accounted underway (w.rename id name) := by
  refine h.of_stackTable_eq rfl (fun j => by simp) (fun j hn => hn.rename id hname)
    fun j c hc => ?_
  rw [component?_rename] at hc
  split at hc
  · obtain ⟨c', hc', rfl⟩ := Option.map_eq_some_iff.1 hc
    exact h.id_eq j c' hc'
  · exact h.id_eq j c hc

theorem openStack (h : Accounted underway w) (rule : Rule) :
    Accounted underway (w.openStack rule).2 := by
  have hall : (w.openStack rule).2.allMembers = w.allMembers := by
    simp [allMembers, Workspace.openStack]
  exact
    { isOwned_iff := fun id => by rw [hall]; exact h.isOwned_iff id
      nodup := by rw [hall]; exact h.nodup
      named := fun id hid => by rw [hall] at hid; exact h.named id hid
      id_eq := h.id_eq }

/-- A component that no stack owns is claimed. -/
theorem claim (h : Accounted [] w) {id : Nat} (hid : id < w.holdings.length)
    (ho : w.isOwned id = false) : Accounted [id] (w.mark id true) := by
  -- Nothing that is no member yet can come to be one twice.
  have hnot : id ∉ w.allMembers := by
    intro hmem
    have := (h.isOwned_iff id).2 (by simpa using hmem)
    rw [ho] at this
    exact Bool.false_ne_true this
  refine ⟨fun j => ?_, ?_, fun j hj => ?_, fun j c hc => ?_⟩
  · rw [isOwned_mark]
    split
    · next hj => simp [hj.1]
    · next hj =>
      have hne : j ≠ id := by rintro rfl; exact hj ⟨rfl, hid⟩
      rw [h.isOwned_iff j]
      simp only [List.nil_append, List.singleton_append, List.mem_cons, hne, false_or]
      rfl
  · exact List.nodup_cons.2 ⟨hnot, h.nodup⟩
  · exact (h.named j hj).of_component?_eq (by simp)
  · exact h.id_eq j c (by simpa using hc)

/-- A claim is taken back. -/
theorem unclaim {id : ComponentId} (h : Accounted [id] w) : Accounted [] (w.mark id false) := by
  obtain ⟨hnot, hnodup⟩ := List.nodup_cons.1 h.nodup
  refine ⟨fun j => ?_, hnodup, fun j hj => ?_, fun j c hc => ?_⟩
  · rw [isOwned_mark_false, h.isOwned_iff j]
    simp only [List.singleton_append, List.mem_cons, List.nil_append]
    constructor
    · rintro ⟨rfl | hj, hne⟩
      · exact absurd rfl hne
      · exact hj
    · intro hj
      refine ⟨.inr hj, ?_⟩
      rintro rfl
      exact hnot hj
  · exact (h.named j hj).of_component?_eq (by simp)
  · exact h.id_eq j c (by simpa using hc)

/-- What was claimed becomes a member. -/
theorem enter {id : ComponentId} (h : Accounted [id] w) (hn : w.Named id) {s : StackId} {t : Stack}
    (hs : w.stack? s = some t) {ids : List ComponentId}
    (hids : ids.Perm (id :: w.memberIds s)) : Accounted [] (w.setMembers s ids) := by
  obtain ⟨others, hall, hset⟩ := allMembers_setMembers_perm hs
  have hp : (w.setMembers s ids).allMembers.Perm (id :: w.allMembers) :=
    ((hset ids).trans (hids.append_right others)).trans (hall.symm.cons id)
  refine ⟨fun j => ?_, ?_, fun j hj => ?_, h.id_eq⟩
  · rw [isOwned_setMembers, h.isOwned_iff j]
    exact hp.symm.mem_iff
  · exact hp.symm.nodup h.nodup
  · rcases List.mem_cons.1 (hp.mem_iff.1 hj) with rfl | hj
    · exact hn.of_component?_eq (by simp)
    · exact (h.named j hj).of_component?_eq (by simp)

/-- Some members leave and are released. -/
theorem leave (h : Accounted [] w) (gone others : List ComponentId)
    (hall : w.allMembers.Perm (gone ++ others)) (hall' : w'.allMembers.Perm others)
    (ho : ∀ id, w'.isOwned id = true ↔ w.isOwned id = true ∧ id ∉ gone)
    (hc : ∀ id, w'.component? id = w.component? id) : Accounted [] w' := by
  have hnodup := hall.nodup h.nodup
  refine ⟨fun id => ?_, hall'.symm.nodup (List.nodup_append.1 hnodup).2.1, fun id hid => ?_,
    fun id c hid => h.id_eq id c (hc id ▸ hid)⟩
  · rw [ho, h.isOwned_iff, List.nil_append, List.nil_append, hall.mem_iff, hall'.mem_iff,
      List.mem_append]
    constructor
    · rintro ⟨hid | hid, hnot⟩
      · exact absurd hid hnot
      · exact hid
    · exact fun hid => ⟨.inr hid, fun hg => (List.nodup_append.1 hnodup).2.2 id hg id hid rfl⟩
  · refine (h.named id ?_).of_component?_eq (hc id)
    exact hall.mem_iff.2 (List.mem_append_right _ (hall'.mem_iff.1 hid))

/-- Some members leave a stack and are released. -/
theorem release (h : Accounted [] w) {s : StackId} {ids : List ComponentId}
    (gone : List ComponentId)
    (hids : (w.memberIds s).Perm (gone ++ ids)) :
    Accounted [] ((w.setMembers s ids).release gone) := by
  cases hs : w.stack? s with
  | none =>
    rw [memberIds_of_none hs] at hids
    obtain ⟨rfl, rfl⟩ := List.append_eq_nil_iff.1 (List.perm_nil.1 hids.symm)
    rwa [setMembers_of_none hs]
  | some t =>
    obtain ⟨others, hall, hset⟩ := allMembers_setMembers_perm hs
    refine h.leave gone (ids ++ others) ?_ ?_ (fun id => ?_) fun id => ?_
    · rw [← List.append_assoc]
      exact hall.trans (hids.append_right others)
    · rw [allMembers, stackTable_release]
      exact hset ids
    · rw [isOwned_release, isOwned_setMembers]
    · rw [component?_release, component?_setMembers]

theorem pop (h : Accounted [] w) (s : StackId) (index : Nat) : Accounted [] (w.pop s index).2 := by
  simp only [Workspace.pop]
  split
  · next id hid =>
    obtain ⟨hi, rfl⟩ := List.getElem?_eq_some_iff.1 hid
    exact h.release [_] (List.getElem_cons_eraseIdx_perm hi).symm
  · exact h

theorem discard (h : Accounted [] w) (s : StackId) (id : ComponentId) :
    Accounted [] (w.discard s id).2 := by
  unfold Workspace.discard
  split
  · next hm =>
    exact h.release [id] (List.perm_cons_erase (List.contains_iff_mem.1 hm))
  · exact h

theorem clear (h : Accounted [] w) (s : StackId) : Accounted [] (w.clear s) :=
  h.release _ (by simp)

theorem destroy (h : Accounted [] w) (s : StackId) : Accounted [] (w.destroy s) := by
  cases hs : w.stack? s with
  | none =>
    have : w.destroy s = w := by
      rw [Workspace.destroy, memberIds_of_none hs]
      exact congrArg (Workspace.mk w.holdings) (modify_of_none hs rfl)
    rwa [this]
  | some t =>
    obtain ⟨others, hall, hmod⟩ := allMembers_perm hs
    refine h.leave _ others hall ?_ (fun id => ?_) fun id => ?_
    · have := hmod fun _ => none
      rwa [← stackTable_release w (w.memberIds s)] at this
    · exact isOwned_release w id (w.memberIds s)
    · exact component?_release w id (w.memberIds s)

end Accounted

end Workspace

end VersionedModel
