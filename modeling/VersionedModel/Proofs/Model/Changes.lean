import VersionedModel.Proofs.Model.Loading

/-!
# What is true of changes

Loads and writes by name or by path are made of a few changes: storing a value in a leaf's slot,
clearing, failing, and what is done in a nested instance or one after the other. A property that
these have and hand on (`Storage.Compositional`) is true of whatever is loaded or written
(`Storage.Compositional.loadPayload`, `Storage.Compositional.setAt`).
-/

namespace VersionedModel

namespace Storage

/-- The changes that others are made of have the property, and what is made of changes that have it
has it, too. -/
structure Compositional (P : Schema → Change Unit → Prop) : Prop where
  /-- Nothing is done. -/
  pure : ∀ s, P s (pure ())
  /-- A failure. -/
  throw : ∀ s e, P s (throw e)
  /-- One change after another. -/
  bind : ∀ {s c d}, P s c → P s d → P s (c >>= fun _ => d)
  /-- A value is stored in the slot of a leaf, or taken away. -/
  store : ∀ {s : Schema} {p : Primary (Component Schema)}, s.Sound → p ∈ s.primaries →
    p.target.schema? = none → ∀ v, P s (modify fun slots => slots.set p.slot (.leaf v))
  /-- A nested instance is changed. -/
  within : ∀ {s t : Schema} {p : Primary (Component Schema)} {c : Change Unit}, s.Sound →
    p ∈ s.primaries → p.target.schema? = some t → P t c → P s (within t p.slot c)
  /-- Everything is cleared. -/
  clear : ∀ s : Schema, s.Sound → P s (modify Slot.clearAll)

namespace Compositional

variable {P : Schema → Change Unit → Prop} (hP : Compositional P)
include hP

theorem guarded {s : Schema} {c : Change Unit} (hc : P s c) (checked : Except Error Unit) :
    P s (guarded checked c) := by
  cases checked with
  | ok u => exact hc
  | error e => exact hP.throw s e

theorem change {s : Schema} (hs : s.Sound) {name : String} {stored : Option Value}
    {nested : Schema → Change Unit} (h : ∀ t : Schema, t.Sound → P t (nested t)) :
    P s (change s name stored nested) := by
  rw [Storage.change, primary]
  cases hp : s.resolve? name with
  | none => exact hP.throw s _
  | some p =>
    have hmem := Schema.mem_of_resolve? hp
    dsimp only
    cases hk : p.target.kind with
    | leaf k => exact hP.store hs hmem (Component.schema?_eq_none_iff.2 ⟨k, hk⟩) stored
    | model t =>
      have ht := Component.schema?_eq_some_iff.2 hk
      exact hP.within hs hmem ht (h t (hs.nested hmem ht))

mutual

/-- **What single changes have, loads have.** -/
theorem load {s : Schema} (hs : s.Sound) (v : Value) : P s (load s v) := by
  match v with
  | .array items => exact hP.guarded (putItems hs (names s) items) _
  | .map entries => exact hP.guarded (putEntries hs entries) _
  | .null | .bool _ | .integer _ | .float _ | .string _ | .bytes _ => exact hP.throw s _

theorem putItems {s : Schema} (hs : s.Sound) (ns : List String) (items : List Value) :
    P s (putItems s ns items) := by
  match ns, items with
  | [], _ | _ :: _, [] =>
    rw [Storage.putItems]
    · exact hP.pure s
    · simp
  | n :: ns, v :: items =>
    exact hP.bind (hP.change hs fun t ht => load ht v) (putItems hs ns items)

theorem putEntries {s : Schema} (hs : s.Sound) (entries : List (String × Value)) :
    P s (putEntries s entries) := by
  match entries with
  | [] => exact hP.pure s
  | (n, v) :: entries =>
    rw [Storage.putEntries]
    split
    · exact hP.bind (hP.change hs fun t ht => load ht v) (putEntries hs entries)
    · exact putEntries hs entries

end

theorem loadPayload {s : Schema} (hs : s.Sound) (p : Payload) : P s (loadPayload s p) := by
  cases p with
  | sequence items => exact hP.guarded (hP.putItems hs (names s) items) _
  | mapping entries => exact hP.guarded (hP.putEntries hs entries) _

theorem set {s : Schema} (hs : s.Sound) (name : String) (what : Write) :
    P s (set s name what) := by
  cases what with
  | set v => exact hP.change hs fun t ht => hP.load ht v
  | clear => exact hP.change hs fun t ht => hP.clear t ht

/-- **What single changes have, writes by path have.** -/
theorem setAt {s : Schema} (hs : s.Sound) (names : List String) (what : Write) :
    P s (setAt s what names) := by
  induction names generalizing s with
  | nil => exact hP.throw s _
  | cons name rest ih =>
    by_cases hrest : rest = []
    · subst hrest
      exact hP.set hs name what
    cases hp : s.resolve? name with
    | none =>
      rw [setAt_cons_of_unbound hp hrest]
      exact hP.throw s _
    | some p =>
      have hmem := Schema.mem_of_resolve? hp
      cases hk : p.target.schema? with
      | none =>
        rw [setAt_cons_of_leaf hp hk hrest]
        exact hP.throw s _
      | some t =>
        rw [setAt_cons_of_model hp hk hrest]
        exact hP.within hs hmem hk (ih (hs.nested hmem hk))

end Compositional

end Storage

end VersionedModel
