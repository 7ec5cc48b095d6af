import VersionedModel.Proofs.Model.Loading
import VersionedModel.Proofs.Model.Snapshots

/-!
# The leaves of snapshots

A snapshot holds the values of leaves, at every depth of nested models. `State.leaves` lists them
with the kinds that their components declare, and `State.mapLeaves` replaces each by another value.
What a snapshot holds for a nested model is a map of what it holds for the primaries there
(`Model.entriesFill_of_snapshot`); replacing leaves keeps that, so the outcome can be loaded
(`Value.check_mapLeaves`).
-/

namespace VersionedModel

namespace Value

/-! ### Replacing leaves -/

mutual

/-- Replace the leaves in the value of a component, given their kinds. -/
def mapLeaves (f : ValueKind → Value → Value) (c : Component Schema) (v : Value) : Value :=
  match c.kind, v with
  | .leaf k, v => f k v
  | .model s, .map entries => .map (mapEntryLeaves f s entries)
  | .model _, v => v

/-- Replace the leaves in the values of primaries. -/
def mapEntryLeaves (f : ValueKind → Value → Value) (s : Schema) :
    List (String × Value) → List (String × Value)
  | [] => []
  | (name, v) :: entries =>
    (name, match s.resolve? name with
      | some p => mapLeaves f p.target v
      | none => v) :: mapEntryLeaves f s entries

end

mutual

/-- The leaves in the value of a component, with their kinds. -/
def leaves (c : Component Schema) (v : Value) : List (ValueKind × Value) :=
  match c.kind, v with
  | .leaf k, v => [(k, v)]
  | .model s, .map entries => entryLeaves s entries
  | .model _, _ => []

/-- The leaves in the values of primaries, with their kinds. -/
def entryLeaves (s : Schema) : List (String × Value) → List (ValueKind × Value)
  | [] => []
  | (name, v) :: entries =>
    (match s.resolve? name with
      | some p => leaves p.target v
      | none => []) ++ entryLeaves s entries

end

theorem mapEntryLeaves_eq_map (f : ValueKind → Value → Value) (s : Schema)
    (entries : List (String × Value)) :
    mapEntryLeaves f s entries = entries.map fun e =>
      (e.1, (s.resolve? e.1).elim e.2 fun p => mapLeaves f p.target e.2) := by
  induction entries with
  | nil => rfl
  | cons e entries ih =>
    rw [mapEntryLeaves, List.map_cons, ih]
    cases s.resolve? e.1 <;> rfl

theorem mapLeaves_of_leaf (f : ValueKind → Value → Value) {c : Component Schema} {k : ValueKind}
    (h : c.kind = .leaf k) (v : Value) : mapLeaves f c v = f k v := by
  rw [mapLeaves.eq_def, h]

theorem mapLeaves_of_model (f : ValueKind → Value → Value) {c : Component Schema} {t : Schema}
    (h : c.schema? = some t) (entries : List (String × Value)) :
    mapLeaves f c (.map entries) = .map (mapEntryLeaves f t entries) := by
  rw [mapLeaves.eq_def, Component.schema?_eq_some_iff.1 h]

mutual

/-- Where every leaf stays as it is, everything does. -/
theorem mapLeaves_eq_self {f : ValueKind → Value → Value} {c : Component Schema} (v : Value)
    (h : ∀ l ∈ leaves c v, f l.1 l.2 = l.2) : mapLeaves f c v = v := by
  match hk : c.kind, v with
  | .leaf k, v =>
    rw [leaves.eq_def, hk] at h
    rw [mapLeaves_of_leaf f hk]
    exact h (k, v) List.mem_cons_self
  | .model s, .map entries =>
    rw [leaves.eq_def, hk] at h
    rw [mapLeaves.eq_def, hk]
    exact congrArg Value.map (mapEntryLeaves_eq_self entries h)
  | .model s, .null | .model s, .bool _ | .model s, .integer _ | .model s, .float _
  | .model s, .string _ | .model s, .bytes _ | .model s, .array _ => rw [mapLeaves.eq_def, hk]

theorem mapEntryLeaves_eq_self {f : ValueKind → Value → Value} {s : Schema}
    (entries : List (String × Value)) (h : ∀ l ∈ entryLeaves s entries, f l.1 l.2 = l.2) :
    mapEntryLeaves f s entries = entries := by
  match entries with
  | [] => rfl
  | (name, v) :: entries =>
    rw [entryLeaves] at h
    obtain ⟨hhead, htail⟩ := List.forall_mem_append.1 h
    rw [mapEntryLeaves, mapEntryLeaves_eq_self entries htail]
    cases hp : s.resolve? name with
    | none => rfl
    | some p =>
      rw [hp] at hhead
      dsimp only
      rw [mapLeaves_eq_self v hhead]

end

/-! ### Values of snapshots -/

mutual

/-- A snapshot may hold the value for the component: any value for a leaf, and for a nested model a
map of such values under the names of its primaries. -/
def Fills (c : Component Schema) (v : Value) : Prop :=
  match c.kind, v with
  | .leaf _, _ => True
  | .model s, .map entries => EntriesFill s entries
  | .model _, _ => False

/-- A snapshot may hold the values for primaries of the schema, under their names. -/
def EntriesFill (s : Schema) : List (String × Value) → Prop
  | [] => True
  | (name, v) :: entries =>
    (∃ p ∈ s.primaries, p.name = name ∧ Fills p.target v) ∧ EntriesFill s entries

end

theorem entriesFill_iff {s : Schema} {entries : List (String × Value)} :
    EntriesFill s entries ↔
      ∀ e ∈ entries, ∃ p ∈ s.primaries, p.name = e.1 ∧ Fills p.target e.2 := by
  induction entries with
  | nil => simp [EntriesFill]
  | cons e entries ih => rw [EntriesFill, ih, List.forall_mem_cons]

theorem fills_of_leaf {c : Component Schema} {k : ValueKind} (h : c.kind = .leaf k) (v : Value) :
    Fills c v := by
  rw [Fills.eq_def, h]
  trivial

theorem fills_map_iff {c : Component Schema} {t : Schema} (h : c.schema? = some t)
    {entries : List (String × Value)} : Fills c (.map entries) ↔ EntriesFill t entries := by
  rw [Fills.eq_def, Component.schema?_eq_some_iff.1 h]

/-- For a nested model there is a map. -/
theorem Fills.exists_entries {c : Component Schema} {t : Schema} (h : c.schema? = some t)
    {v : Value} (hv : Fills c v) : ∃ entries, v = .map entries ∧ EntriesFill t entries := by
  rw [Fills.eq_def, Component.schema?_eq_some_iff.1 h] at hv
  cases v with
  | map entries => exact ⟨entries, rfl, hv⟩
  | _ => cases hv

/-- The primary behind the name of an entry is the one that the entry is for. -/
theorem EntriesFill.exists_resolve? {s : Schema} (hs : s.Sound) {name : String} {v : Value}
    {entries : List (String × Value)} (h : EntriesFill s ((name, v) :: entries)) :
    ∃ p ∈ s.primaries, p.name = name ∧ s.resolve? name = some p ∧ Fills p.target v := by
  rw [EntriesFill] at h
  obtain ⟨⟨p, hp, rfl, hv⟩, -⟩ := h
  exact ⟨p, hp, rfl, hs.here.resolve?_name hp, hv⟩

mutual

/-- **What a snapshot holds for a nested model can be loaded**, whatever its leaves are replaced
by. -/
theorem check_mapLeaves (f : ValueKind → Value → Value) {c : Component Schema} {t : Schema}
    (ht : c.schema? = some t) (hs : t.Sound) (v : Value) (h : Fills c v) :
    Storage.check t (mapLeaves f c v) = .ok () := by
  match v with
  | .map entries =>
    rw [mapLeaves_of_model f ht, Storage.check]
    exact checkEntries_mapEntryLeaves f hs entries ((fills_map_iff ht).1 h)
  | .null | .bool _ | .integer _ | .float _ | .string _ | .bytes _ | .array _ =>
    obtain ⟨entries, he, -⟩ := h.exists_entries ht
    cases he

theorem checkEntries_mapEntryLeaves (f : ValueKind → Value → Value) {s : Schema} (hs : s.Sound)
    (entries : List (String × Value)) (h : EntriesFill s entries) :
    Storage.checkEntries s (mapEntryLeaves f s entries) = .ok () := by
  match entries with
  | [] => rfl
  | (name, v) :: entries =>
    obtain ⟨p, hp, -, hresolve, hv⟩ := h.exists_resolve? hs
    have hrest := checkEntries_mapEntryLeaves f hs entries (by rw [EntriesFill] at h; exact h.2)
    rw [mapEntryLeaves, hresolve, Storage.checkEntries_cons, hrest]
    have hhead : Storage.checkAt s name (mapLeaves f p.target v) = .ok () := by
      cases ht : p.target.schema? with
      | none => exact Storage.checkAt_of_leaf hresolve ht _
      | some t =>
        rw [Storage.checkAt_of_nested hresolve ht]
        exact check_mapLeaves f ht (hs.nested hp ht) v hv
    dsimp only
    rw [hhead]
    rfl

end

end Value

namespace State

/-- Replace the leaves of a snapshot, given their kinds. -/
def mapLeaves (f : ValueKind → Value → Value) (s : Schema) (st : State) : State :=
  ⟨Value.mapEntryLeaves f s st.toList⟩

/-- The leaves of a snapshot, with their kinds. -/
def leaves (s : Schema) (st : State) : List (ValueKind × Value) :=
  Value.entryLeaves s st.toList

theorem mapLeaves_eq_self {f : ValueKind → Value → Value} {s : Schema} {st : State}
    (h : ∀ l ∈ st.leaves s, f l.1 l.2 = l.2) : st.mapLeaves f s = st := by
  rw [mapLeaves, Value.mapEntryLeaves_eq_self st.toList h]

/-- The leaves may be replaced before the entries are put in order or afterwards. -/
theorem toDict_mapLeaves (f : ValueKind → Value → Value) (s : Schema) (st : State) :
    (st.mapLeaves f s).toDict.toList = Value.mapEntryLeaves f s st.toDict.toList := by
  rw [mapLeaves, Value.mapEntryLeaves_eq_map, Value.mapEntryLeaves_eq_map]
  exact Entries.ofList_map
    (fun name v => (s.resolve? name).elim v fun p => v.mapLeaves f p.target) st.toList

end State

namespace Model

/-- **What a snapshot holds for a nested model is a map of what it holds for the primaries
there.** -/
theorem entriesFill_of_snapshot {w : Workspace} {m : Model} {fill : Option Value} {call : Settings}
    {st : State} (hs : m.schema.Sound) (h : m.snapshot? w fill call = .ok st) :
    Value.EntriesFill m.schema st.toDict.toList := by
  induction m, hs using nested_induction generalizing call st with
  | step m hs ih =>
    refine Value.entriesFill_iff.2 fun e he => ?_
    have hmem := Entries.mem_of_mem_ofList he
    obtain ⟨p, hp, hname, hgives⟩ :=
      exists_of_mem_entries ((snapshot?_eq_ok hs.here.nodup_names).1 h) hmem
    have hp := (List.mem_filter.1 hp).1
    refine ⟨p, hp, hname.symm, ?_⟩
    cases hk : p.target.kind with
    | leaf k => exact Value.fills_of_leaf hk e.2
    | model t =>
      -- A nested model gives the map of its own snapshot.
      have ht := Component.schema?_eq_some_iff.2 hk
      obtain ⟨inner, hinner, he⟩ := exists_snapshot_of_gives ht hgives
      rw [← he, State.toValue, Value.fills_map_iff ht]
      exact ih p hp t ht _ hinner

end Model

end VersionedModel
