import VersionedModel.Proofs.Codec.Payloads

/-!
# Arrays and objects

An array stands for the object with its items under the names of the primaries, in order of
declaration. The storage takes it so, but the serializer counts only the fields that take part when
it fits items to shapes. Both count alike as long as, among the fields that are given items, those
that take part come first (`Leading`); then the array is loaded like the object
(`Model.alike_load_array_object`). Where one is left out in front of another that takes part, the
shapes move up, and each item behind it is fitted to the shape of a later field
(`Model.load_array_ne_load_object`).
-/

namespace VersionedModel

open Schema (Everywhere Compiled Kept)
open Schema.Compilation (Built)

/-- None of the first `n` elements fails a test that a later element passes. -/
def Leading {α : Type} (test : α → Bool) (as : List α) (n : Nat) : Prop :=
  ∀ i j, i < n → i < j → ∀ a b, as[i]? = some a → as[j]? = some b → test b = true → test a = true

section Leading

variable {α : Type} {test : α → Bool} {as : List α} {n : Nat}

/-- So it is if all of the first elements pass. -/
theorem leading_of_take (h : ∀ a ∈ as.take n, test a = true) : Leading test as n :=
  fun i _ hi _ a _ ha _ _ => h a <| by
    rw [List.mem_iff_getElem?]
    exact ⟨i, by rw [List.getElem?_take_of_lt hi, ha]⟩

theorem Leading.tail {a : α} (h : Leading test (a :: as) (n + 1)) : Leading test as n :=
  fun i j hi hij b c hb hc => h (i + 1) (j + 1) (by omega) (by omega) b c hb hc

/-- If the first element fails, all do. -/
theorem Leading.eq_false {a : α} (h : Leading test (a :: as) (n + 1)) (ha : ¬test a = true) :
    ∀ b ∈ as, ¬test b = true := by
  intro b hb hpass
  obtain ⟨j, hj⟩ := List.mem_iff_getElem?.1 hb
  exact ha (h 0 (j + 1) (by omega) (by omega) a b rfl hj hpass)

end Leading

namespace Shape

/-- **Where those that take part lead, fitting by position is fitting by name.** The names and items
are paired either before or after. -/
theorem zip_restoreItems {fields : List (String × Shape)}
    {admits : Primary (Component Schema) → Bool} {ps : List (Primary (Component Schema))}
    (hf : ∀ p ∈ ps, named? fields p.name =
      if admits p = true then some (ofComponent p.target) else none)
    {vs : List Value} (h : Leading admits ps vs.length) :
    (ps.map Primary.name).zip
        (restoreItems ((ps.filter admits).map fun p => (p.name, ofComponent p.target)) vs) =
      ((ps.map Primary.name).zip vs).map fun e => (e.1, restoreNamed fields e.1 e.2) := by
  induction ps generalizing vs with
  | nil => rfl
  | cons p ps ih =>
    obtain ⟨hp, hf⟩ := List.forall_mem_cons.1 hf
    cases vs with
    | nil =>
      rw [restoreItems, List.zip_nil_right, List.map_nil]
      simp
    | cons v vs =>
      by_cases ha : admits p = true
      · have ih := ih hf h.tail
        rw [List.filter_cons_of_pos ha, List.map_cons, List.map_cons, restoreItems,
          List.zip_cons_cons, List.zip_cons_cons, List.map_cons, ih, restoreNamed, hp, if_pos ha]
        rfl
      · -- Nobody behind it takes part either, so no shape is known and nothing is fitted.
        have hrest := h.eq_false ha
        have hnone : ∀ e ∈ ((p :: ps).map Primary.name).zip (v :: vs),
            (e.1, restoreNamed fields e.1 e.2) = e := by
          intro e he
          obtain ⟨q, hq, hname⟩ := List.mem_map.1 (List.of_mem_zip he).1
          have hnamed : named? fields e.1 = none := by
            rcases List.mem_cons.1 hq with rfl | hq
            · rw [← hname, hp, if_neg ha]
            · rw [← hname, hf q hq, if_neg (hrest q hq)]
          rw [restoreNamed, hnamed]
          rfl
        rw [List.map_congr_left hnone, List.map_id', List.filter_cons_of_neg ha,
          List.filter_eq_nil_iff.2 hrest, List.map_nil, restoreItems]
        simp

end Shape

namespace Storage

variable {s : Schema}

/-- Items that are fitted by position are loaded like entries that are fitted by name, where those
that take part lead. -/
theorem alike_loadPayload_restored (hs : s.Sound) {fields : List (String × Shape)}
    {admits : Primary (Component Schema) → Bool}
    (hf : ∀ p ∈ s.primaries, Shape.named? fields p.name =
      if admits p = true then some (Shape.ofComponent p.target) else none)
    {vs : List Value} (h : Leading admits s.primaries vs.length) (slots : List Slot) :
    Outcome.Alike
      (loadPayload s (.sequence (Shape.restoreItems
        ((s.primaries.filter admits).map fun p => (p.name, Shape.ofComponent p.target)) vs)))
      (loadPayload s (.mapping (Shape.restoreEntries fields
        (Entries.ofList ((names s).zip vs))))) slots := by
  have hkeys : ((((names s).zip vs).map fun e =>
      (e.1, Shape.restoreNamed fields e.1 e.2)).map Prod.fst).Sublist (names s) := by
    rw [List.map_map]
    exact keys_zip_names_sublist s vs
  have hn := hs.here.nodup_names.sublist hkeys
  have hapart := apart_of_names hs hn fun e he => hkeys.subset (List.mem_map_of_mem he)
  rw [loadPayload_sequence, names, Shape.zip_restoreItems hf h, Shape.restoreEntries_eq_map,
    ← Entries.ofList_map]
  exact alike_loadPayload_perm hs (Entries.ofList_perm hn).symm hapart slots

/-- **In a nested model an array is loaded like the object that has its items under the names of the
primaries**, whoever takes part. -/
theorem alike_load_nested (hs : s.Sound) (vs : List Value) (slots : List Slot) :
    Outcome.Alike (load s ((Shape.model (Shape.fieldsOf s)).restore (.array vs)))
      (load s ((Shape.model (Shape.fieldsOf s)).restore
        (.map (Entries.ofList ((names s).zip vs))))) slots := by
  have hall : Leading (fun _ => true) s.primaries vs.length := leading_of_take fun _ _ => rfl
  have halike := alike_loadPayload_restored hs
    (fun p hp => (Shape.named?_fieldsOf hs hp).trans (if_pos rfl).symm) hall slots
  rw [List.filter_true, ← Shape.fieldsOf_eq] at halike
  rw [Shape.restore, Shape.restore]
  exact halike

end Storage

namespace Model

/-- **An array is loaded like the object that has its items under the names of the primaries**, in
order of declaration, if none of those that are given items is left out while a later one takes
part. So it is if all of those that are given items take part. -/
theorem alike_load_array_object {w : Workspace} {m : Model} {call : Settings}
    (hcompiled : Everywhere Compiled m.schema) (hkept : Kept Built w m.schema) {js : List Json}
    (h : Leading (m.admits w call) m.schema.primaries js.length) {array object : List UInt8}
    (harray : m.Carries call array (.array js))
    (hobject : m.Carries call object
      (.object (Entries.ofList ((Storage.names m.schema).zip js)))) :
    Outcome.Alike (load w plainJson array call) (load w plainJson object call) m := by
  have hexact := hkept.exact_of_built
  have hlength : Leading (m.admits w call) m.schema.primaries
      (js.map Value.ofJson).length := by
    rwa [List.length_map]
  -- Members may be put in order before they are turned into values or afterwards.
  have hentries : Entries.ofList ((Storage.names m.schema).zip (js.map Value.ofJson)) =
      Value.entriesOfJson (Entries.ofList ((Storage.names m.schema).zip js)) := by
    rw [Value.entriesOfJson_eq_map, List.zip_map_right]
    exact Entries.ofList_map (fun _ => Value.ofJson) _
  have halike := Storage.alike_loadPayload_restored (Schema.sound_of_compiled hcompiled)
    (fun p hp => named?_shapes hexact call hp) hlength m.slots
  rw [← shapes_eq hexact, hentries, ← restoredMembers_eq] at halike
  rw [Outcome.Alike, load_array harray, load_object hobject]
  exact alike_changing halike

/-! ### A parcel under two versions -/

open Schema.Sample

/-- The settings that ask for a version. -/
def asking (v : Int64) : Settings := .ofList [(versionKey, .integer v)]

/-- A weight and a label. -/
def parcelItems : List Json := [.integer 3, .string "AQI="]

/-- The same under the names of a parcel's primaries. -/
def parcelMembers : List (String × Json) :=
  Entries.ofList ((Storage.names parcel).zip parcelItems)

/-- A text for an array of the two. -/
def parcelArray : List UInt8 := Json.bytesOf ((Json.array parcelItems).render .compact)

/-- A text for an object of the two. -/
def parcelObject : List UInt8 := Json.bytesOf ((Json.object parcelMembers).render .compact)

theorem carries_parcel (v : Int64) :
    (new parcel).Carries (asking v) parcelArray (.array parcelItems) ∧
      (new parcel).Carries (asking v) parcelObject (.object parcelMembers) := by
  have hweight : Json.Sendable (.integer 3) := ⟨by decide, by decide⟩
  have harray : Json.Sendable (.array parcelItems) := ⟨hweight, trivial, trivial⟩
  have hobject : Json.Sendable (.object parcelMembers) :=
    ⟨Entries.sorted_ofList _, trivial, hweight, trivial⟩
  exact ⟨carries_render harray (by decide) rfl .compact,
    carries_render hobject (by decide) rfl .compact⟩

/-- Under version 2 a parcel takes its weight and its label by position as by name. -/
theorem alike_load_array_object_of_parcel :
    Everywhere Compiled (new parcel).schema ∧
      Kept Built depot (new parcel).schema ∧
      Leading ((new parcel).admits depot (asking 2))
        (new parcel).schema.primaries parcelItems.length ∧
      (new parcel).Carries (asking 2) parcelArray (.array parcelItems) ∧
      (new parcel).Carries (asking 2) parcelObject (.object parcelMembers) ∧
      Outcome.Alike (load depot plainJson parcelArray (asking 2))
        (load depot plainJson parcelObject (asking 2)) (new parcel) := by
  have hcompiled : Everywhere Compiled (new parcel).schema := compiled_parcel
  have hkept : Kept Built depot (new parcel).schema := kept_parcel
  have hleading : Leading ((new parcel).admits depot (asking 2))
      (new parcel).schema.primaries parcelItems.length :=
    leading_of_take fun p hp => by
      simp only [parcelItems, new, ofSlots, parcel, Schema.primaries,
        Schema.bindings, Bindings.primaries, List.take, List.length, List.mem_cons,
        List.not_mem_nil, or_false] at hp
      rcases hp with rfl | rfl <;> decide
  obtain ⟨harray, hobject⟩ := carries_parcel 2
  exact ⟨hcompiled, hkept, hleading, harray, hobject,
    alike_load_array_object hcompiled hkept hleading harray hobject⟩

/-- Under version 1, where a parcel has no weight, the label is at the second position, but its
shape is the first; so its bytes are not decoded from an array. -/
theorem load_array_ne_load_object :
    Everywhere Compiled (new parcel).schema ∧
      Kept Built depot (new parcel).schema ∧
      (new parcel).Carries (asking 1) parcelArray (.array parcelItems) ∧
      (new parcel).Carries (asking 1) parcelObject (.object parcelMembers) ∧
      load depot plainJson parcelArray (asking 1) (new parcel) =
        .ok () { new parcel with
          slots := [.leaf (some (.integer 3)), .leaf (some (.string "AQI="))] } ∧
      load depot plainJson parcelObject (asking 1) (new parcel) =
        .ok () { new parcel with
          slots := [.leaf (some (.integer 3)), .leaf (some (.bytes [1, 2]))] } ∧
      ¬Outcome.Alike (load depot plainJson parcelArray (asking 1))
        (load depot plainJson parcelObject (asking 1)) (new parcel) := by
  obtain ⟨harray, hobject⟩ := carries_parcel 1
  have hbyPosition : load depot plainJson parcelArray (asking 1)
      (new parcel) = .ok () { new parcel with
        slots := [.leaf (some (.integer 3)), .leaf (some (.string "AQI="))] } := by
    rw [load_array harray]
    rfl
  have hbyName : load depot plainJson parcelObject (asking 1)
      (new parcel) = .ok () { new parcel with
        slots := [.leaf (some (.integer 3)), .leaf (some (.bytes [1, 2]))] } := by
    rw [load_object hobject]
    rfl
  exact ⟨compiled_parcel, kept_parcel, harray, hobject, hbyPosition, hbyName,
    Outcome.not_alike_of_ne hbyPosition hbyName fun h => by cases h⟩

end Model

end VersionedModel
