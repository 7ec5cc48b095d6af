import VersionedModel.Proofs.Definition.Reading

/-!
# Reading back what was read

Whatever spelling a definition had when it was read, it is in its normal form from then on: data was
put in order, and a default that is null was taken for none. So every definition that was read from
a tree comes back when it is written and read again (`StackDefinition.ofJson_toJson_of_ofJson`), and
there are no others of this kind (`StackDefinition.exists_ofJson_iff`).

Reading follows the tree, so what is shown of one part is shown of its own parts first
(`Reading.givesNormal_ofJson`).
-/

namespace VersionedModel

namespace Json

theorem present?_ordered (j : Json) : j.ordered.present? = j.present? := by
  cases j with
  | array items | object members =>
    exact congrArg some (ordered_ordered _)
  | _ => rfl

end Json

namespace Reading

/-- Whatever the part is read as, that is in its normal form. -/
structure GivesNormal (r : Reading) : Prop where
  /-- As a component. -/
  component : ∀ nested c, r.component nested = some c → c.normal = c
  /-- As a sequence of components. -/
  components : ∀ nested cs, r.components nested = some cs →
    ComponentDefinition.normalList cs = cs
  /-- As a stack. -/
  stack : ∀ nested d, r.stack nested = some d → d.normal = d

theorem givesNormal_ofScalar (j : Json) : (ofScalar j).GivesNormal :=
  ⟨nofun, nofun, nofun⟩

theorem mem_of_given? {fields : Fields} {name : String} {r : Reading}
    (h : given? fields name = some r) : ∃ f ∈ fields, f.2 = r := by
  obtain ⟨f, hf, rfl⟩ := Option.map_eq_some_iff.1 h
  exact ⟨f, List.mem_of_find?_eq_some hf, rfl⟩

/-! ### Data among the fields -/

/-- Data that was read is told apart from nothing and stays in order. -/
theorem bind_present?_dataField (fields : Fields) (name : String) :
    (dataField fields name).bind Json.present? = dataField fields name := by
  rw [dataField]
  split
  · rfl
  · rfl
  · next j hnull _ =>
    rw [Option.bind_some, Json.present?_ordered, Json.present?_of_ne_null hnull]

theorem map_ordered_of_dictField? {fields : Fields} {name : String} {settings : Dict Json}
    (h : dictField? fields name = some settings) : settings.map Json.ordered = settings := by
  rw [dictField?] at h
  split at h
  · cases h
    rfl
  · next members _ =>
    cases h
    refine Dict.toList_injective ?_
    change (Entries.ofList (Json.orderedMembers members)).map (fun e => (e.1, e.2.ordered)) =
      Entries.ofList (Json.orderedMembers members)
    rw [← Entries.ofList_map (fun _ j => Json.ordered j), ← Json.orderedMembers_eq_map,
      Json.orderedMembers_orderedMembers]
  · cases h

/-! ### Records -/

section Records

variable {fields : Fields} {nested : Bool} {c : ComponentDefinition} {d : StackDefinition}

theorem normal_of_leafComponent? {kind : String} (h : leafComponent? kind fields = some c) :
    c.normal = c := by
  rw [leafComponent?] at h
  split at h
  · cases h
  · simp only [pure, Option.bind_eq_bind, Option.bind_eq_some_iff, Option.some.injEq] at h
    obtain ⟨_, -, _, -, _, -, rfl⟩ := h
    rw [ComponentDefinition.normal, bind_present?_dataField]

variable (hfields : ∀ f ∈ fields, f.2.GivesNormal)
include hfields

theorem normal_of_modelComponent? (h : modelComponent? fields = some c) : c.normal = c := by
  rw [modelComponent?] at h
  split at h
  · cases h
  · simp only [pure, Option.bind_eq_bind, Option.bind_eq_some_iff, Option.some.injEq] at h
    obtain ⟨t, -, r, hr, model, hmodel, rfl⟩ := h
    obtain ⟨f, hf, rfl⟩ := mem_of_given? hr
    rw [ComponentDefinition.normal, (hfields f hf).stack true model hmodel]

theorem normal_of_componentOfMembers? (h : componentOfMembers? fields nested = some c) :
    c.normal = c := by
  rw [componentOfMembers?] at h
  split at h
  · cases h
  · simp only [Option.bind_eq_bind, Option.bind_eq_some_iff] at h
    obtain ⟨_, -, kind, -, h⟩ := h
    split at h
    · exact normal_of_modelComponent? hfields h
    · exact normal_of_leafComponent? h

theorem normal_of_stackOfMembers? (h : stackOfMembers? fields nested = some d) :
    d.normal = d := by
  rw [stackOfMembers?] at h
  split at h
  · cases h
  · simp only [pure, Option.bind_eq_bind, Option.bind_eq_some_iff] at h
    obtain ⟨name, -, settings, hsettings, rule, -, h⟩ := h
    have hmk : ∃ components, ComponentDefinition.normalList components = components ∧
        d = .mk name settings rule components := by
      split at h
      · cases h
        exact ⟨[], rfl, rfl⟩
      · next r hr =>
        obtain ⟨f, hf, rfl⟩ := mem_of_given? hr
        obtain ⟨components, hcomponents, h⟩ := Option.bind_eq_some_iff.1 h
        cases h
        exact ⟨components, (hfields f hf).components nested components hcomponents, rfl⟩
    obtain ⟨components, hcomponents, rfl⟩ := hmk
    rw [StackDefinition.normal, map_ordered_of_dictField? hsettings, hcomponents]

end Records

/-! ### Sequences -/

section Sequences

variable {values : List Reading} (hvalues : ∀ r ∈ values, r.GivesNormal)
include hvalues

theorem givesNormal_of_asFields? {names : List String} {fields : Fields}
    (h : asFields? names values = some fields) : ∀ f ∈ fields, f.2.GivesNormal := by
  rw [asFields?] at h
  split at h
  · cases h
    exact fun f hf => hvalues f.2 (List.of_mem_zip hf).2
  · cases h

theorem normal_of_componentOfItems? {nested : Bool} {c : ComponentDefinition}
    (h : componentOfItems? values nested = some c) : c.normal = c := by
  cases values with
  | nil => cases h
  | cons tag rest =>
    obtain ⟨-, hrest⟩ := List.forall_mem_cons.1 hvalues
    rw [componentOfItems?] at h
    simp only [Option.bind_eq_bind, Option.bind_eq_some_iff] at h
    obtain ⟨kind, -, h⟩ := h
    split at h
    · obtain ⟨fields, hfields, h⟩ := Option.bind_eq_some_iff.1 h
      exact normal_of_modelComponent? (givesNormal_of_asFields? hrest hfields) h
    · obtain ⟨fields, hfields, h⟩ := Option.bind_eq_some_iff.1 h
      exact normal_of_leafComponent? h

theorem normal_of_stackOfItems? {nested : Bool} {d : StackDefinition}
    (h : stackOfItems? values nested = some d) : d.normal = d := by
  obtain ⟨fields, hfields, h⟩ := Option.bind_eq_some_iff.1 h
  exact normal_of_stackOfMembers? (givesNormal_of_asFields? hvalues hfields) h

theorem normalList_of_mapM_component {nested : Bool} {cs : List ComponentDefinition}
    (h : values.mapM (fun r => r.component nested) = some cs) :
    ComponentDefinition.normalList cs = cs := by
  induction values generalizing cs with
  | nil =>
    cases h
    rfl
  | cons r values ih =>
    obtain ⟨hr, hvalues⟩ := List.forall_mem_cons.1 hvalues
    simp only [List.mapM_cons, pure, Option.bind_eq_bind, Option.bind_eq_some_iff,
      Option.some.injEq] at h
    obtain ⟨c, hc, cs, hcs, rfl⟩ := h
    rw [ComponentDefinition.normalList, hr.component nested c hc, ih hvalues hcs]

end Sequences

/-! ### Trees -/

mutual

/-- **What a tree is read as is in its normal form.** -/
theorem givesNormal_ofJson (j : Json) : (ofJson j).GivesNormal := by
  match j with
  | .array items =>
    have hvalues := givesNormal_ofItems items
    rw [ofJson]
    exact ⟨fun _ _ => normal_of_componentOfItems? hvalues,
      fun _ _ => normalList_of_mapM_component hvalues, fun _ _ => normal_of_stackOfItems? hvalues⟩
  | .object members =>
    have hfields := givesNormal_ofMembers members
    rw [ofJson]
    exact ⟨fun _ _ => normal_of_componentOfMembers? hfields, nofun,
      fun _ _ => normal_of_stackOfMembers? hfields⟩
  | .null | .bool _ | .integer _ | .float _ | .string _ => exact givesNormal_ofScalar _

theorem givesNormal_ofItems (js : List Json) : ∀ r ∈ ofItems js, r.GivesNormal := by
  match js with
  | [] => exact nofun
  | j :: js =>
    exact List.forall_mem_cons.2 ⟨givesNormal_ofJson j, givesNormal_ofItems js⟩

theorem givesNormal_ofMembers (ms : List (String × Json)) :
    ∀ f ∈ ofMembers ms, f.2.GivesNormal := by
  match ms with
  | [] => exact nofun
  | (key, j) :: ms =>
    exact List.forall_mem_cons.2 ⟨givesNormal_ofJson j, givesNormal_ofMembers ms⟩

end

end Reading

namespace StackDefinition

theorem normal_of_ofJson {j : Json} {d : StackDefinition} (h : ofJson j = .ok d) :
    d.normal = d := by
  rw [ofJson] at h
  cases hread : (Reading.ofJson j).stack false with
  | none =>
    rw [hread] at h
    cases h
  | some e =>
    rw [hread] at h
    cases h
    exact (Reading.givesNormal_ofJson j).stack false d hread

/-- The definitions that some tree is read as are those in normal form. -/
theorem exists_ofJson_iff {d : StackDefinition} : (∃ j, ofJson j = .ok d) ↔ d.normal = d := by
  constructor
  · rintro ⟨j, h⟩
    exact normal_of_ofJson h
  · intro h
    exact ⟨d.toJson, (ofJson_toJson d).trans (congrArg Except.ok h)⟩

/-- **A definition that was read is written and read back as it is**, whatever tree it was read
from; what is written is in order. -/
theorem ofJson_toJson_of_ofJson {j : Json} {d : StackDefinition} (h : ofJson j = .ok d) :
    d.toJson.ordered = d.toJson ∧ ofJson d.toJson = .ok d := by
  refine ⟨Json.ordered_ordered d.written, ?_⟩
  rw [ofJson_toJson, normal_of_ofJson h]

/-! ### A guest book -/

/-- A guest book in unusual spellings: sequences in the place of records, data out of order, a
default that is null, a member that means nothing, and inside a nested model a kind by its
position. -/
def guestBookTree : Json :=
  .array [.string "book",
    .object [("b", .integer 1), ("a", .object [("d", .null), ("c", .bool true)])],
    .object [("flags", .null)],
    .array [
      .array [.string "bytes", .string "photo", .null, .null, .integer 2,
        .array [.string "media"]],
      .object [("colour", .null), ("name", .string "home"), ("kind", .string "model"),
        ("model", .object [("name", .string "address"), ("components", .array [
          .object [("name", .string "city"), ("kind", .integer 4),
            ("default", .object [("y", .null), ("x", .null)])]])])]]]

/-- The guest book. -/
def guestBook : StackDefinition :=
  .mk "book" (.ofList [("a", .object [("c", .bool true), ("d", .null)]), ("b", .integer 1)]) .flags
    [.leaf (.ofKind .bytes) ⟨"photo", none, some 2, ["media"]⟩ none false,
      .model ⟨"home", none, none, []⟩ (.mk "address" ∅ .version
        [.leaf (.ofKind .string) ⟨"city", none, none, []⟩
          (some (.object [("x", .null), ("y", .null)])) false])]

/-- The guest book comes back, although its tree does not. -/
theorem ofJson_toJson_of_guestBookTree :
    ofJson guestBookTree = .ok guestBook ∧ guestBook.toJson.ordered = guestBook.toJson ∧
      ofJson guestBook.toJson = .ok guestBook := by
  have hread : ofJson guestBookTree = .ok guestBook := rfl
  obtain ⟨hordered, hback⟩ := ofJson_toJson_of_ofJson hread
  exact ⟨hread, hordered, hback⟩

end StackDefinition

end VersionedModel
