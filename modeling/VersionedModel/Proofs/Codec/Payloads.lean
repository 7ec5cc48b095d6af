import VersionedModel.Proofs.Codec.RoundTrip
import VersionedModel.Proofs.Model.Aliases
import VersionedModel.Proofs.Model.Rearranging

/-!
# What a payload gives to the fields

A payload carries a tree (`Model.Carries`), an object or an array. Loading it fits each member or
item to the shape that the serializer knows for it and loads the results, by name
(`Model.load_object`) or by position (`Model.load_array`). For a model whose schema was built from
a declaration, the serializer knows the fields that take part, in order of declaration
(`Model.shapes_eq`), by the names of their primaries only.
-/

namespace VersionedModel

/-- From a declaration. -/
def Schema.Compilation.Built (c : Compilation) : Prop := ∃ d, c = .build d

/-- A schema that was built from a declaration, by whatever rule, fits its stack exactly. -/
theorem Schema.Kept.exact_of_built {w : Workspace} {s : Schema} (h : Kept Compilation.Built w s) :
    Exact w s := by
  obtain ⟨c, before, after, since, ⟨d, hd⟩, h⟩ := h
  have hkept : Kept (· = c) w s := ⟨c, before, after, since, rfl, h⟩
  exact (hkept.exact fun _ h => ⟨d, h.trans hd, rfl⟩).1

theorem Schema.Sample.kept_parcel : Kept Compilation.Built depot parcel :=
  (everywhere_kept_parcel Compilation.Built ⟨parcelDeclaration, rfl⟩).here

/-! ### Trees that were read -/

namespace Json

theorem exists_ordered_of_mem {e : String × Json} {ms : List (String × Json)}
    (h : e ∈ orderedMembers ms) : ∃ j : Json, e.2 = j.ordered := by
  induction ms with
  | nil => cases h
  | cons m ms ih =>
    rcases List.mem_cons.1 h with rfl | h
    · exact ⟨m.2, rfl⟩
    · exact ih h

/-- Reading puts members in order. -/
theorem exists_ordered_of_ofBytes {payload : List UInt8} {tree : Json}
    (h : ofBytes payload = some tree) : ∃ j : Json, tree = j.ordered := by
  obtain ⟨s, -, h⟩ := Option.bind_eq_some_iff.1 h
  obtain ⟨written, -, h⟩ := Option.bind_eq_some_iff.1 h
  obtain ⟨j, -, h⟩ := Option.bind_eq_some_iff.1 h
  exact ⟨j, (Option.some.inj h).symm⟩

/-- The members of an object in order have their keys in order, and so have those in its
members. -/
theorem ordered_eq_object {j : Json} {ms : List (String × Json)} (h : j.ordered = .object ms) :
    Entries.Sorted ms ∧ ∀ e ∈ ms, ∃ i : Json, e.2 = i.ordered := by
  cases j with
  | object members =>
    rw [ordered] at h
    cases h
    exact ⟨Entries.sorted_ofList _, fun e he =>
      exists_ordered_of_mem (Entries.mem_of_mem_ofList he)⟩
  | _ => cases h

end Json

/-! ### Fitting members and items -/

namespace Shape

/-- Fit a value to the shape of the field that goes by a name, if there is one. -/
def restoreNamed (fields : List (String × Shape)) (name : String) (v : Value) : Value :=
  (named? fields name).elim v fun shape => shape.restore v

theorem restoreEntries_eq_map (fields : List (String × Shape)) (es : List (String × Value)) :
    restoreEntries fields es = es.map fun e => (e.1, restoreNamed fields e.1 e.2) := by
  induction es with
  | nil => rfl
  | cons e es ih =>
    rw [restoreEntries, ih, List.map_cons, restoreNamed]
    cases named? fields e.1 <;> rfl

end Shape

namespace Model

open Schema (Exact)

/-! ### What the serializer knows -/

/-- The shapes that the serializer for JSON knows. -/
def shapes (w : Workspace) (m : Model) (call : Settings) : List (String × Shape) :=
  (m.suitable w call).map fun e => (e.1, Shape.ofComponent e.2)

section Shapes

variable {w : Workspace} {m : Model} (hs : Exact w m.schema) (call : Settings)
include hs

/-- The components that take part are those of the primaries that do, in order. -/
theorem suitable_eq :
    m.suitable w call =
      (m.schema.primaries.filter (m.admits w call)).map fun p => (p.name, p.target) := by
  have hadmits : m.schema.primaries.filter (m.admits w call) =
      m.schema.primaries.filter fun p => w.passes m.schema.stack (m.effective call) p.target :=
    List.filter_congr fun p hp => admits_eq_passes hs.toCoherent hs.nodup_names call hp
  have hnames : ((m.schema.primaries.filter (m.admits w call)).map Primary.name).Nodup :=
    hs.wellFormed.nodup_names.sublist (List.filter_sublist.map _)
  rw [suitable, Workspace.matching, Workspace.byName, hs.members_eq, List.filter_map,
    List.filterMap_map]
  simp only [Function.comp_def]
  rw [← hadmits]
  have hmap : (m.schema.primaries.filter (m.admits w call)).filterMap
      (fun p => p.target.name.map fun name => (name, p.target)) =
        (m.schema.primaries.filter (m.admits w call)).map fun p => (p.name, p.target) := by
    rw [← List.filterMap_eq_map]
    refine List.filterMap_congr fun p hp => ?_
    rw [hs.name_eq p (List.mem_filter.1 hp).1]
    rfl
  rw [hmap]
  refine Listing.ofList_of_nodup ?_
  rw [Listing.keys, List.map_map]
  exact hnames

/-- The serializer knows the primaries that take part, in order. -/
theorem shapes_eq :
    m.shapes w call = (m.schema.primaries.filter (m.admits w call)).map fun p =>
      (p.name, Shape.ofComponent p.target) := by
  rw [shapes, suitable_eq hs, List.map_map]
  rfl

/-- Under the name of a primary it knows the shape exactly if the primary takes part. -/
theorem named?_shapes {p : Primary (Component Schema)} (hp : p ∈ m.schema.primaries) :
    Shape.named? (m.shapes w call) p.name =
      if m.admits w call p = true then some (Shape.ofComponent p.target) else none := by
  split
  · next ha => exact named?_suitable hs.toCoherent hs.nodup_names hp ha
  · next ha =>
    rw [Shape.named?_eq_get?, Entries.get?_eq_none_iff, shapes_eq hs, List.map_map]
    intro hmem
    obtain ⟨q, hq, hname⟩ := List.mem_map.1 hmem
    obtain ⟨hq, hqa⟩ := List.mem_filter.1 hq
    exact ha (hs.wellFormed.eq_of_name_eq hq hp hname ▸ hqa)

/-- It knows nothing under any other name. -/
theorem named?_shapes_of_not_mem {name : String} (h : name ∉ Storage.names m.schema) :
    Shape.named? (m.shapes w call) name = none := by
  rw [Shape.named?_eq_get?, Entries.get?_eq_none_iff, shapes_eq hs, List.map_map]
  intro hmem
  obtain ⟨q, hq, hname⟩ := List.mem_map.1 hmem
  exact h (List.mem_map.2 ⟨q, (List.mem_filter.1 hq).1, hname⟩)

end Shapes

section Members

variable (w : Workspace) (m : Model) (call : Settings)

/-- The members of an object, each fitted to the shape that is known under its key. -/
def restoredMembers (ms : List (String × Json)) : List (String × Value) :=
  ms.map fun e => (e.1, Shape.restoreNamed (m.shapes w call) e.1 (.ofJson e.2))

theorem restoredMembers_eq (ms : List (String × Json)) :
    m.restoredMembers w call ms =
      Shape.restoreEntries (m.shapes w call) (Value.entriesOfJson ms) := by
  rw [Shape.restoreEntries_eq_map, Value.entriesOfJson_eq_map, List.map_map]
  rfl

theorem restoredMembers_append (fs gs : List (String × Json)) :
    m.restoredMembers w call (fs ++ gs) =
      m.restoredMembers w call fs ++ m.restoredMembers w call gs :=
  List.map_append

theorem restoredMembers_cons (e : String × Json) (ms : List (String × Json)) :
    m.restoredMembers w call (e :: ms) =
      (e.1, Shape.restoreNamed (m.shapes w call) e.1 (.ofJson e.2)) ::
        m.restoredMembers w call ms :=
  rfl

end Members

/-! ### Payloads -/

/-- The payload is a text for the tree, in an envelope if the settings ask for one. -/
def Carries (m : Model) (call : Settings) (payload : List UInt8) (tree : Json) : Prop :=
  ∃ outer, Json.ofBytes payload = some outer ∧
    if (m.effective call).flag envelopeKey then
      Serializer.openEnvelope m.name outer = .ok tree
    else outer = tree

section Carries

variable {m : Model} {call : Settings} {payload : List UInt8}

/-- What is emitted for a tree carries it. -/
theorem carries_render {tree : Json} (hj : Json.Sendable tree)
    (hd : tree.depth ≤ Json.Written.nestingLimit)
    (he : (m.effective call).flag envelopeKey = false) (style : Json.Style) :
    m.Carries call (Json.bytesOf (tree.render style)) tree := by
  refine ⟨tree, ?_, by rw [he]; rfl⟩
  rw [Json.ofBytes_bytesOf, Json.parse_render style hj hd]

/-- An object that is carried has its keys in order. -/
theorem Carries.sorted {ms : List (String × Json)} (h : m.Carries call payload (.object ms)) :
    Entries.Sorted ms := by
  obtain ⟨outer, hread, h⟩ := h
  obtain ⟨j, rfl⟩ := Json.exists_ordered_of_ofBytes hread
  split at h
  · -- The object stands in an envelope, which is one of the members that were put in order.
    cases hj : j.ordered with
    | object members =>
      rw [hj, Serializer.openEnvelope] at h
      split at h
      · next tree hmem =>
        cases h
        obtain ⟨i, hi⟩ := (Json.ordered_eq_object hj).2 _ (Entries.mem_of_get?_eq_some hmem)
        exact (Json.ordered_eq_object hi.symm).1
      · cases h
    | _ =>
      rw [hj] at h
      cases h
  · exact (Json.ordered_eq_object h).1

/-- Loading a payload is loading what the tree restores to. -/
theorem load_of_carries {tree : Json} (h : m.Carries call payload tree) (w : Workspace) :
    m.load w plainJson payload call =
      loadState ((Shape.model (m.shapes w call)).restore (.ofJson tree)) m := by
  obtain ⟨outer, hread, h⟩ := h
  have hraw : m.rawOf w plainJson payload call =
      .ok ((Shape.model (m.shapes w call)).restore (.ofJson tree)) := by
    rw [rawOf, serializerFor_plainJson]
    change Serializer.decode _ _ _ = _
    rw [Serializer.decode, Serializer.decodeJson, hread, Settings.flag_overlay_self]
    dsimp only
    split at h
    · next he =>
      rw [if_pos he, h]
      rfl
    · next he =>
      rw [if_neg he, h]
      rfl
  rw [load, hraw]

/-- **An object is loaded by name.** -/
theorem load_object {ms : List (String × Json)} (h : m.Carries call payload (.object ms))
    (w : Workspace) :
    m.load w plainJson payload call = setState (.mapping (m.restoredMembers w call ms)) m := by
  rw [load_of_carries h, Value.ofJson, Shape.restore, restoredMembers_eq]
  rfl

/-- **An array is loaded by position**, with each item fitted to the shape that is known at its
position. -/
theorem load_array {js : List Json} (h : m.Carries call payload (.array js)) (w : Workspace) :
    m.load w plainJson payload call =
      setState (.sequence (Shape.restoreItems (m.shapes w call) (js.map .ofJson))) m := by
  rw [load_of_carries h, Value.ofJson, Shape.restore, Value.itemsOfJson_eq_map]
  rfl

end Carries

end Model

end VersionedModel
