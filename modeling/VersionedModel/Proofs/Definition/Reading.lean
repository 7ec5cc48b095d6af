import VersionedModel.Definition.Json
import VersionedModel.Proofs.Json.RoundTrip
import VersionedModel.Proofs.Value.Json

/-!
# Reading what was written

A definition that was written as JSON is read back (`StackDefinition.ofJson_toJson`), except for what
the reader does not tell apart: a default that is null is none, and data is put in order
(`StackDefinition.normal`).

A record is written as its fields in order of declaration, without those that have nothing to write
(`Json.record`), and then its members are put in order. So a field is found under its name exactly if
something was written for it (`Reading.given?_record`).
-/

namespace VersionedModel

/-! ### Records -/

namespace Json

/-- The members of a record: its fields, without those that have nothing to write. -/
def record (fields : List (String × Option Json)) : List (String × Json) :=
  fields.flatMap fun f => optionalMember f.1 f.2

/-- What is told apart from nothing: null is not, and data is put in order. -/
def present? : Json → Option Json
  | .null => none
  | j => some j.ordered

theorem present?_of_ne_null {j : Json} (h : j ≠ .null) : j.present? = some j.ordered := by
  cases j with
  | null => exact absurd rfl h
  | _ => rfl

variable {fields : List (String × Option Json)}

theorem keys_record_sublist : ((record fields).map Prod.fst).Sublist (fields.map Prod.fst) := by
  induction fields with
  | nil => exact .slnil
  | cons f fields ih =>
    obtain ⟨key, j⟩ := f
    cases j with
    | none => exact ih.cons key
    | some j => exact ih.cons_cons key

theorem get?_record (h : (fields.map Prod.fst).Nodup) (key : String) :
    Entries.get? key (record fields) = (Entries.get? key fields).join := by
  induction fields with
  | nil => rfl
  | cons f fields ih =>
    obtain ⟨name, j⟩ := f
    obtain ⟨hname, hfields⟩ := List.nodup_cons.1 h
    rw [Entries.get?_cons]
    cases j with
    | none =>
      change Entries.get? key (record fields) = _
      split
      · next hkey =>
        subst hkey
        exact Entries.get?_eq_none_iff.2 fun hmem => hname (keys_record_sublist.subset hmem)
      · exact ih hfields
    | some j =>
      change Entries.get? key ((name, j) :: record fields) = _
      rw [Entries.get?_cons]
      split
      · rfl
      · exact ih hfields

end Json

namespace Reading

theorem tree_ofJson (j : Json) : (ofJson j).tree = j := by
  cases j <;> simp [ofJson, ofScalar]

theorem ofMembers_eq_map (ms : List (String × Json)) :
    ofMembers ms = ms.map fun e => (e.1, ofJson e.2) := by
  induction ms with
  | nil => rfl
  | cons e ms ih => rw [ofMembers, ih, List.map_cons]

theorem given?_ofMembers (ms : List (String × Json)) (name : String) :
    given? (ofMembers ms) name = (Entries.get? name ms).map ofJson := by
  rw [given?, ofMembers_eq_map, List.find?_map, Entries.get?, Option.map_map, Option.map_map]
  rfl

theorem distinct_ofMembers {ms : List (String × Json)} (h : (ms.map Prod.fst).Nodup)
    (names : List String) : distinct names (ofMembers ms) = true := by
  refine List.all_eq_true.2 fun name _ => decide_eq_true ?_
  have hcount := List.nodup_iff_count_le_one.1 h name
  rw [List.count_eq_length_filter, List.filter_map, List.length_map] at hcount
  rw [ofMembers_eq_map, List.filter_map, List.length_map]
  exact hcount

/-- The fields of a record that was written and put in order. -/
def ofRecord (fields : List (String × Option Json)) : Fields :=
  ofMembers (Entries.ofList (Json.orderedMembers (Json.record fields)))

variable {fields : List (String × Option Json)}

theorem distinct_ofRecord (names : List String) : distinct names (ofRecord fields) = true :=
  distinct_ofMembers (Entries.sorted_ofList _).nodup_keys names

/-- A field is found if something was written for it. -/
theorem given?_ofRecord (h : (fields.map Prod.fst).Nodup) (name : String) :
    given? (ofRecord fields) name =
      (Entries.get? name fields).join.map fun j => ofJson j.ordered := by
  have hkeys : ((Json.orderedMembers (Json.record fields)).map Prod.fst).Nodup := by
    rw [Json.orderedMembers_eq_map, List.map_map]
    exact Json.keys_record_sublist.nodup h
  rw [ofRecord, given?_ofMembers, Entries.get?_ofList hkeys, ← Json.get?_record h,
    Json.orderedMembers_eq_map, Entries.get?, List.find?_map, Entries.get?, Option.map_map,
    Option.map_map, Option.map_map]
  rfl

theorem map_tree_given?_ofRecord (h : (fields.map Prod.fst).Nodup) (name : String) :
    (given? (ofRecord fields) name).map tree =
      (Entries.get? name fields).join.map Json.ordered := by
  rw [given?_ofRecord h, Option.map_map]
  exact congrFun (congrArg Option.map (funext fun j : Json => tree_ofJson j.ordered)) _

/-! ### Fields -/

theorem mapM_text (texts : List String) :
    (texts.map Json.string).mapM (fun
      | .string s => some s
      | _ => none) = some texts := by
  induction texts with
  | nil => rfl
  | cons text texts ih =>
    rw [List.map_cons, List.mapM_cons, ih]
    rfl

section Fields

variable (h : (fields.map Prod.fst).Nodup) {name : String}
include h

theorem textField?_ofRecord {text : String}
    (hget : (Entries.get? name fields).join = some (.string text)) :
    textField? (ofRecord fields) name = some text := by
  rw [textField?, map_tree_given?_ofRecord h, hget]
  simp [Json.ordered]

theorem versionField?_ofRecord {version : Option Int64}
    (hget : (Entries.get? name fields).join = version.map fun i => .integer i.toInt) :
    versionField? (ofRecord fields) name = some version := by
  rw [versionField?, map_tree_given?_ofRecord h, hget]
  cases version with
  | none => rfl
  | some i => simp [Json.ordered, Value.int64?_toInt]

theorem textsField?_ofRecord {texts : List String}
    (hget : (Entries.get? name fields).join =
      if texts.isEmpty then none else some (.array (texts.map .string))) :
    textsField? (ofRecord fields) name = some texts := by
  rw [textsField?, map_tree_given?_ofRecord h, hget]
  cases texts with
  | nil => rfl
  | cons text texts =>
    have hitems : Json.orderedItems ((text :: texts).map .string) =
        (text :: texts).map .string := by
      rw [Json.orderedItems_eq_map, List.map_map]
      exact List.map_congr_left fun text _ => by simp [Json.ordered]
    rw [List.isEmpty_cons, if_neg Bool.false_ne_true, Option.map_some, Json.ordered, hitems]
    exact mapM_text _

theorem boolField?_ofRecord {b : Bool}
    (hget : (Entries.get? name fields).join = if b then some (.bool true) else none) :
    boolField? (ofRecord fields) name = some b := by
  rw [boolField?, map_tree_given?_ofRecord h, hget]
  cases b with
  | false => rfl
  | true => simp [Json.ordered]

theorem dataField_ofRecord {data : Option Json} (hget : (Entries.get? name fields).join = data) :
    dataField (ofRecord fields) name = data.bind Json.present? := by
  rw [dataField, map_tree_given?_ofRecord h, hget]
  cases data with
  | none => rfl
  | some j =>
    cases j with
    | null => rfl
    | _ => exact congrArg some (Json.ordered_ordered _)

theorem dictField?_ofRecord {settings : Dict Json}
    (hget : (Entries.get? name fields).join =
      if settings.isEmpty then none else some (.object settings.toList)) :
    dictField? (ofRecord fields) name = some (settings.map Json.ordered) := by
  rw [dictField?, map_tree_given?_ofRecord h, hget]
  obtain ⟨entries, hsorted⟩ := settings
  have hordered : Entries.Sorted (Json.orderedMembers entries) := by
    rw [Json.orderedMembers_eq_map]
    exact hsorted.map Json.ordered
  cases entries with
  | nil => rfl
  | cons e entries =>
    refine congrArg some (Dict.toList_injective ?_)
    change Entries.ofList (Json.orderedMembers (Entries.ofList (Json.orderedMembers (e :: entries)))) =
      (e :: entries).map fun e => (e.1, e.2.ordered)
    rw [Entries.ofList_of_sorted hordered, Json.orderedMembers_orderedMembers,
      Entries.ofList_of_sorted hordered, Json.orderedMembers_eq_map]

theorem ruleField?_ofRecord {rule : RuleName} {nested : Bool}
    (hget : (Entries.get? name fields).join = some (.string rule.name)) :
    ruleField? nested (ofRecord fields) name = some rule := by
  rw [ruleField?, map_tree_given?_ofRecord h, hget]
  cases rule <;> simp [Json.ordered] <;> rfl

theorem terms?_ofRecord {t : Terms}
    (hname : (Entries.get? "name" fields).join = some (.string t.name))
    (hsince : (Entries.get? "since" fields).join = t.since.map fun i => .integer i.toInt)
    (huntil : (Entries.get? "until" fields).join = t.upTo.map fun i => .integer i.toInt)
    (hflags : (Entries.get? "flags" fields).join =
      if t.flags.isEmpty then none else some (.array (t.flags.map .string))) :
    terms? (ofRecord fields) = some t := by
  rw [terms?, textField?_ofRecord h hname, versionField?_ofRecord h hsince,
    versionField?_ofRecord h huntil, textsField?_ofRecord h hflags]
  rfl

end Fields

end Reading

/-! ### Components and stacks -/

/-- The fields of a leaf component. -/
def leafRecord (kind : LeafKind) (t : Terms) (default : Option Json) (exclusive : Bool) :
    List (String × Option Json) :=
  [("kind", some (.string kind.val.name)), ("name", some (.string t.name)), ("default", default),
    ("since", t.since.map fun i => .integer i.toInt),
    ("until", t.upTo.map fun i => .integer i.toInt),
    ("flags", if t.flags.isEmpty then none else some (.array (t.flags.map .string))),
    ("exclusive", if exclusive then some (.bool true) else none)]

/-- The fields of a component with a nested model. -/
def modelRecord (t : Terms) (model : Json) : List (String × Option Json) :=
  [("kind", some (.string "model")), ("name", some (.string t.name)),
    ("since", t.since.map fun i => .integer i.toInt),
    ("until", t.upTo.map fun i => .integer i.toInt),
    ("flags", if t.flags.isEmpty then none else some (.array (t.flags.map .string))),
    ("model", some model)]

/-- The fields of a stack. -/
def stackRecord (name : String) (settings : Dict Json) (rule : RuleName)
    (components : List Json) : List (String × Option Json) :=
  [("name", some (.string name)),
    ("settings", if settings.isEmpty then none else some (.object settings.toList)),
    ("predicate", some (.string rule.name)), ("components", some (.array components))]

theorem nodup_leafRecord (kind : LeafKind) (t : Terms) (default : Option Json)
    (exclusive : Bool) : ((leafRecord kind t default exclusive).map Prod.fst).Nodup := by
  change ["kind", "name", "default", "since", "until", "flags", "exclusive"].Nodup
  decide

theorem nodup_modelRecord (t : Terms) (model : Json) :
    ((modelRecord t model).map Prod.fst).Nodup := by
  change ["kind", "name", "since", "until", "flags", "model"].Nodup
  decide

theorem nodup_stackRecord (name : String) (settings : Dict Json) (rule : RuleName)
    (components : List Json) :
    ((stackRecord name settings rule components).map Prod.fst).Nodup := by
  change ["name", "settings", "predicate", "components"].Nodup
  decide

theorem members_eq_record (t : Terms) :
    t.members = Json.record [("since", t.since.map fun i => .integer i.toInt),
      ("until", t.upTo.map fun i => .integer i.toInt),
      ("flags", if t.flags.isEmpty then none else some (.array (t.flags.map .string)))] := by
  simp only [Terms.members, Json.record, List.flatMap_cons, List.flatMap_nil, List.append_nil,
    List.append_assoc]
  split <;> rfl

theorem written_leaf (kind : LeafKind) (t : Terms) (default : Option Json) (exclusive : Bool) :
    (ComponentDefinition.leaf kind t default exclusive).written =
      .object (Json.record (leafRecord kind t default exclusive)) := by
  rw [ComponentDefinition.written, members_eq_record]
  refine congrArg Json.object ?_
  simp only [Json.record, leafRecord, List.flatMap_cons, List.flatMap_nil, List.append_nil,
    List.append_assoc]
  cases exclusive <;> rfl

theorem written_model (t : Terms) (model : StackDefinition) :
    (ComponentDefinition.model t model).written =
      .object (Json.record (modelRecord t model.written)) := by
  rw [ComponentDefinition.written, members_eq_record]
  refine congrArg Json.object ?_
  simp only [Json.record, modelRecord, List.flatMap_cons, List.flatMap_nil, List.append_nil,
    List.append_assoc]
  rfl

theorem written_mk (name : String) (settings : Dict Json) (rule : RuleName)
    (components : List ComponentDefinition) :
    (StackDefinition.mk name settings rule components).written =
      .object (Json.record (stackRecord name settings rule
        (ComponentDefinition.writtenList components))) := by
  rw [StackDefinition.written]
  refine congrArg Json.object ?_
  simp only [Json.record, stackRecord, List.flatMap_cons, List.flatMap_nil, List.append_nil]
  cases settings.isEmpty <;> rfl

mutual

/-- The component as it is read back: a default that is null is none, and data is in order. -/
def ComponentDefinition.normal : ComponentDefinition → ComponentDefinition
  | .leaf kind t default exclusive => .leaf kind t (default.bind Json.present?) exclusive
  | .model t model => .model t model.normal

/-- Components as they are read back. -/
def ComponentDefinition.normalList : List ComponentDefinition → List ComponentDefinition
  | [] => []
  | c :: cs => c.normal :: ComponentDefinition.normalList cs

/-- The stack as it is read back. -/
def StackDefinition.normal : StackDefinition → StackDefinition
  | .mk name settings rule components =>
    .mk name (settings.map Json.ordered) rule (ComponentDefinition.normalList components)

end

namespace Reading

theorem component_ofRecord (fields : List (String × Option Json)) :
    (ofJson (Json.object (Json.record fields)).ordered).component =
      componentOfMembers? (ofRecord fields) := by
  rw [Json.ordered, ofJson, ofRecord]

theorem stack_ofRecord (fields : List (String × Option Json)) :
    (ofJson (Json.object (Json.record fields)).ordered).stack =
      stackOfMembers? (ofRecord fields) := by
  rw [Json.ordered, ofJson, ofRecord]

/-- What a component is read as goes by its kind. -/
theorem componentOfMembers?_ofRecord {fields : List (String × Option Json)}
    (h : (fields.map Prod.fst).Nodup) {kind : String} (nested : Bool)
    (hget : (Entries.get? "kind" fields).join = some (.string kind))
    (hkind : kindNames.contains kind = true) :
    componentOfMembers? (ofRecord fields) nested =
      if kind = "model" then modelComponent? (ofRecord fields)
      else leafComponent? kind (ofRecord fields) := by
  have hgiven : given? (ofRecord fields) "kind" = some (ofJson (Json.string kind).ordered) := by
    rw [given?_ofRecord h, hget, Option.map_some]
  have hname : kindName? nested (Json.string kind).ordered = some kind := if_pos hkind
  rw [componentOfMembers?, distinct_ofRecord, hgiven]
  simp only [Bool.not_true, Bool.false_eq_true, if_false, Option.bind_eq_bind, Option.bind_some,
    tree_ofJson, hname]

theorem name_leafKind (kind : LeafKind) :
    kindNames.contains kind.val.name = true ∧ kind.val.name ≠ "model" ∧
      ValueKind.ofName? kind.val.name = some kind.val := by
  have key : ∀ k : ValueKind, k ≠ .null →
      kindNames.contains k.name = true ∧ k.name ≠ "model" ∧ ValueKind.ofName? k.name = some k := by
    intro k hk
    cases k <;> first | exact absurd rfl hk | exact ⟨rfl, by decide, rfl⟩
  exact key kind.val kind.property

mutual

theorem component_written (c : ComponentDefinition) (nested : Bool) :
    (ofJson c.written.ordered).component nested = some c.normal := by
  match c with
  | .leaf kind t default exclusive =>
    have hn := nodup_leafRecord kind t default exclusive
    obtain ⟨hkind, hne, hofName⟩ := name_leafKind kind
    rw [written_leaf, component_ofRecord, componentOfMembers?_ofRecord hn nested rfl hkind,
      if_neg hne, leafComponent?, distinct_ofRecord, hofName, terms?_ofRecord hn rfl rfl rfl rfl,
      boolField?_ofRecord hn rfl, dataField_ofRecord hn rfl]
    change some (ComponentDefinition.leaf (.ofKind kind.val) t _ exclusive) = _
    rw [LeafKind.ofKind_val]
    rfl
  | .model t model =>
    have hn := nodup_modelRecord t model.written
    rw [written_model, component_ofRecord, componentOfMembers?_ofRecord hn nested rfl rfl,
      if_pos rfl, modelComponent?, distinct_ofRecord, terms?_ofRecord hn rfl rfl rfl rfl,
      given?_ofRecord hn]
    change (do
      let nested ← (ofJson model.written.ordered).stack true
      return ComponentDefinition.model t nested) = _
    rw [stack_written model true]
    rfl

theorem mapM_component_written (cs : List ComponentDefinition) (nested : Bool) :
    (ofItems (Json.orderedItems (ComponentDefinition.writtenList cs))).mapM
        (fun r => r.component nested) = some (ComponentDefinition.normalList cs) := by
  match cs with
  | [] => rfl
  | c :: cs =>
    rw [ComponentDefinition.writtenList, Json.orderedItems, ofItems, List.mapM_cons,
      component_written c nested, mapM_component_written cs nested]
    rfl

theorem stack_written (d : StackDefinition) (nested : Bool) :
    (ofJson d.written.ordered).stack nested = some d.normal := by
  match d with
  | .mk name settings rule components =>
    have hn := nodup_stackRecord name settings rule (ComponentDefinition.writtenList components)
    rw [written_mk, stack_ofRecord, stackOfMembers?, distinct_ofRecord, textField?_ofRecord hn rfl,
      dictField?_ofRecord hn rfl, ruleField?_ofRecord hn rfl, given?_ofRecord hn]
    have hcomponents : (ofJson (Json.array
        (ComponentDefinition.writtenList components)).ordered).components nested =
          some (ComponentDefinition.normalList components) := by
      rw [Json.ordered, ofJson]
      exact mapM_component_written components nested
    change (do
      let components ← (ofJson (Json.array
        (ComponentDefinition.writtenList components)).ordered).components nested
      return StackDefinition.mk name (settings.map Json.ordered) rule components) = _
    rw [hcomponents]
    rfl

end

end Reading

/-- **A definition that was written as JSON is read back**, in its normal form. -/
theorem StackDefinition.ofJson_toJson (d : StackDefinition) :
    StackDefinition.ofJson d.toJson = .ok d.normal := by
  rw [StackDefinition.ofJson, toJson, Reading.stack_written]
  rfl

end VersionedModel
