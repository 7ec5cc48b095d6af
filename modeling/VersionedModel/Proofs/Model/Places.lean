import VersionedModel.Proofs.Model.Aliases
import VersionedModel.Proofs.Model.Histories

/-!
# Places of leaves

A storage holds values at places: the place of a leaf is the chain of slots on the way to it through
nested instances (`Storage.storedAt?`). Names lead to a place one by one, and each of them may be an
alias (`Schema.LeafAt`). What is read there is what is stored at the place, or else what the names
fall back on (`Model.readAt_of_leafAt`); so two instances that differ in their storages only read
alike where they hold the same.
-/

namespace VersionedModel

/-- The names, of which each may be an alias, lead through nested models to the leaf `p`, and the
place has the slots on the way. -/
inductive Schema.LeafAt : Schema → List String → List Nat → Primary (Component Schema) → Prop
  | leaf {s : Schema} {name : String} {p : Primary (Component Schema)}
      (resolve : s.resolve? name = some p) (kind : p.target.schema? = none) :
      LeafAt s [name] [p.slot] p
  | nested {s t : Schema} {name : String} {p q : Primary (Component Schema)}
      {names : List String} {place : List Nat} (resolve : s.resolve? name = some p)
      (kind : p.target.schema? = some t) (rest : LeafAt t names place q) :
      LeafAt s (name :: names) (p.slot :: place) q

section LeafAt

variable {s : Schema} {names : List String} {place : List Nat} {p : Primary (Component Schema)}

theorem Schema.LeafAt.names_ne_nil (h : s.LeafAt names place p) : names ≠ [] := by
  cases h <;> simp

theorem Schema.LeafAt.place_ne_nil (h : s.LeafAt names place p) : place ≠ [] := by
  cases h <;> simp

end LeafAt

namespace Storage

/-! ### Values at places -/

/-- The value that is stored at a place. -/
def storedAt? : List Slot → List Nat → Option Value
  | _, [] => none
  | slots, [i] => stored? slots i
  | slots, i :: place =>
    match slots[i]? with
    | some (.opened inner) => storedAt? inner place
    | _ => none

/-- Nothing is stored in a new storage. -/
theorem stored?_fresh (s : Schema) (i : Nat) : stored? s.fresh i = none := by
  rw [stored?, Schema.fresh, List.getElem?_map]
  cases s.primaries[i]? with
  | none => rfl
  | some p =>
    rw [Option.map_some, Primary.fresh]
    cases p.target.isModel <;> rfl

theorem storedAt?_of_opened {slots inner : List Slot} {i : Nat} {place : List Nat}
    (hplace : place ≠ []) (h : slots[i]? = some (.opened inner)) :
    storedAt? slots (i :: place) = storedAt? inner place := by
  rw [storedAt?, h]
  exact hplace

theorem storedAt?_of_not_opened {slots : List Slot} {i : Nat} {place : List Nat}
    (hplace : place ≠ []) (h : ∀ inner, slots[i]? ≠ some (.opened inner)) :
    storedAt? slots (i :: place) = none := by
  rw [storedAt?]
  · split
    · next inner hi => exact absurd hi (h inner)
    · rfl
  · exact hplace

theorem storedAt?_fresh (s : Schema) (place : List Nat) : storedAt? s.fresh place = none := by
  match place with
  | [] => rfl
  | [i] => exact stored?_fresh s i
  | i :: j :: place =>
    refine storedAt?_of_not_opened (by simp) fun inner hi => ?_
    -- A slot of a new storage that is opened would show in `inner_fresh`, so look at it directly.
    rw [Schema.fresh, List.getElem?_map] at hi
    obtain ⟨p, -, hp⟩ := Option.map_eq_some_iff.1 hi
    rw [Primary.fresh] at hp
    split at hp <;> cases hp

/-- Nothing is stored at any place after a clearing. -/
theorem storedAt?_clearAll (slots : List Slot) (place : List Nat) :
    storedAt? (Slot.clearAll slots) place = none := by
  match place with
  | [] => rfl
  | [i] => exact stored?_clearAll slots i
  | i :: j :: place =>
    have hcleared : (Slot.clearAll slots)[i]? = slots[i]?.map Slot.clear := by
      rw [clearAll_eq_map, List.getElem?_map]
    rcases hslot : slots[i]? with _ | _ | _ | inner
    case some.opened =>
      rw [hslot] at hcleared
      rw [storedAt?_of_opened (by simp) hcleared]
      exact storedAt?_clearAll inner (j :: place)
    -- What is opened after a clearing was opened before it.
    all_goals
      refine storedAt?_of_not_opened (by simp) fun inner hi => ?_
      rw [hcleared, hslot] at hi
      cases hi

/-- A place in a nested instance is looked up in the storage of that instance. -/
theorem storedAt?_cons (t : Schema) {slots : List Slot} {i : Nat} {place : List Nat}
    (hplace : place ≠ []) :
    storedAt? slots (i :: place) = storedAt? (inner t slots i) place := by
  rw [inner]
  split
  · next inner hi => exact storedAt?_of_opened hplace hi
  · next hi => rw [storedAt?_of_not_opened hplace hi, storedAt?_fresh]

/-! ### Places after a slot was written -/

section Set

variable {slots : List Slot} {i j : Nat} {place : List Nat}

theorem storedAt?_congr {slots' : List Slot} (h : slots'[i]? = slots[i]?) :
    storedAt? slots' (i :: place) = storedAt? slots (i :: place) := by
  match place with
  | [] =>
    change stored? slots' i = stored? slots i
    rw [stored?, stored?, h]
  | j :: place =>
    by_cases ho : ∃ inner, slots[i]? = some (.opened inner)
    · obtain ⟨inner, hi⟩ := ho
      rw [storedAt?_of_opened (by simp) hi, storedAt?_of_opened (by simp) (h.trans hi)]
    · have hclosed : ∀ inner, slots[i]? ≠ some (.opened inner) := fun inner hi => ho ⟨inner, hi⟩
      rw [storedAt?_of_not_opened (by simp) hclosed,
        storedAt?_of_not_opened (by simp) (h ▸ hclosed)]

theorem storedAt?_set_of_ne (h : i ≠ j) (x : Slot) :
    storedAt? (slots.set i x) (j :: place) = storedAt? slots (j :: place) :=
  storedAt?_congr (List.getElem?_set_ne h)

theorem storedAt?_set_leaf (h : i < slots.length) (v : Option Value) :
    storedAt? (slots.set i (.leaf v)) [i] = v := by
  change stored? (slots.set i (.leaf v)) i = v
  rw [stored?, List.getElem?_set_self h]

theorem storedAt?_set_opened (h : i < slots.length) (hplace : place ≠ []) (changed : List Slot) :
    storedAt? (slots.set i (.opened changed)) (i :: place) = storedAt? changed place :=
  storedAt?_of_opened hplace (List.getElem?_set_self h)

end Set

end Storage

namespace Model

/-! ### Reading at places -/

/-- What the names, which lead to the leaf `p`, fall back on while nothing is stored: a field of the
model itself on the model's own defaults first, and a field of a nested model on the component's
default. -/
def fallbackAt (m : Model) (names : List String) (p : Primary (Component Schema)) :
    Option Value :=
  match names with
  | [name] => m.defaultFor p name
  | _ => p.target.default

theorem fallbackAt_cons (m : Model) (name : String) {names : List String} (hnames : names ≠ [])
    (p : Primary (Component Schema)) : m.fallbackAt (name :: names) p = p.target.default :=
  match names, hnames with
  | _ :: _, _ => rfl

/-- Nested models have no defaults of their own. -/
theorem fallbackAt_ofSlots (t : Schema) (slots : List Slot) (names : List String)
    (p : Primary (Component Schema)) :
    (ofSlots t slots).fallbackAt names p = p.target.default :=
  match names with
  | [] => rfl
  | [_] => rfl
  | _ :: _ :: _ => rfl

/-- **What is read of a leaf is what is stored at its place**, or else what the names fall back
on. -/
theorem readAt_of_leafAt {m : Model} {names : List String} {place : List Nat}
    {p : Primary (Component Schema)} (h : m.schema.LeafAt names place p) :
    m.readAt names =
      .ok (((Storage.storedAt? m.slots place).or (m.fallbackAt names p)).elim .missing .value) := by
  generalize hs : m.schema = s at h
  induction h generalizing m with
  | @leaf s name p resolve kind =>
    subst hs
    obtain ⟨k, hk⟩ := Component.schema?_eq_none_iff.1 kind
    rw [readAt, read_of_resolve? resolve, readPrimary_of_leaf hk]
    rfl
  | @nested s t name p q names place resolve kind rest ih =>
    subst hs
    rw [readAt_cons_of_resolve? resolve (Component.schema?_eq_some_iff.1 kind) rest.names_ne_nil,
      ih rfl, Storage.storedAt?_cons t rest.place_ne_nil, fallbackAt_ofSlots,
      fallbackAt_cons m name rest.names_ne_nil]
    rfl

/-- Instances that differ in their storages only read alike where they hold the same. -/
theorem readAt_congr {m : Model} {slots : List Slot} {names : List String} {place : List Nat}
    {p : Primary (Component Schema)} (h : m.schema.LeafAt names place p)
    (hplace : Storage.storedAt? slots place = Storage.storedAt? m.slots place) :
    readAt { m with slots := slots } names = m.readAt names := by
  rw [readAt_of_leafAt h, readAt_of_leafAt (m := { m with slots := slots }) h, hplace]
  rfl

end Model

/-! ### A shipment of a parcel -/

namespace Schema.Sample

/-- The shipment, which has a number and a parcel, also called its content. -/
def shipmentDeclaration : Declaration where
  name := "shipment"
  settings := ∅
  rule := .version .usual
  members := [.field "number" (.kind .string), .field "parcel" (.model parcel),
    .aliasOf "content" "parcel"]

/-- The shipment, compiled. -/
def shipment : Schema :=
  .mk "shipment" ∅ 1
    [.primary "number" 0 { Component.ofKind (.leaf .string) with id := 2, name := some "number" },
      .primary "parcel" 1 { Component.ofKind (.model parcel) with id := 3, name := some "parcel" },
      .aliasOf "content" "parcel"]

theorem compiled_shipment : Everywhere Compiled shipment := by
  refine .intro ⟨.build shipmentDeclaration, depot, depot.run [.build shipmentDeclaration],
    ⟨[.declare weight, .build parcelDeclaration], rfl⟩, rfl⟩ fun p hp t ht => ?_
  simp only [shipment, primaries, bindings, Bindings.primaries, List.mem_cons, List.not_mem_nil,
    or_false] at hp
  rcases hp with rfl | rfl
  · cases ht
  · cases ht
    exact compiled_parcel

/-- The number, which is in no parcel. -/
theorem leafAt_number :
    shipment.LeafAt ["number"] [0]
      ⟨"number", 0, { Component.ofKind (.leaf .string) with id := 2, name := some "number" }⟩ :=
  .leaf (p := ⟨"number", 0, _⟩) rfl rfl

/-- The label of the parcel, by the aliases on the way to it. -/
theorem leafAt_content_tag :
    shipment.LeafAt ["content", "tag"] [1, 1] ⟨"label", 1, label⟩ :=
  .nested
    (p := ⟨"parcel", 1, { Component.ofKind (.model parcel) with id := 3, name := some "parcel" }⟩)
    rfl rfl (.leaf (p := ⟨"label", 1, label⟩) rfl rfl)

/-- The label of the parcel, by its own name. -/
theorem leafAt_parcel_label :
    shipment.LeafAt ["parcel", "label"] [1, 1] ⟨"label", 1, label⟩ :=
  .nested
    (p := ⟨"parcel", 1, { Component.ofKind (.model parcel) with id := 3, name := some "parcel" }⟩)
    rfl rfl (.leaf (p := ⟨"label", 1, label⟩) rfl rfl)

end Schema.Sample

namespace Model

/-- A shipment that was given a number and a label. -/
def shipped : Model :=
  { new Schema.Sample.shipment with
    slots := [.leaf (some (.string "A1")), .opened [.leaf none, .leaf (some (.bytes [2]))]] }

theorem reachable_shipped : shipped.Reachable :=
  ⟨Schema.Sample.shipment, ⟨none, ∅, ∅⟩, _, rfl, .single (.attempt _
    (.bind [("number", .string "A1"), ("content", .map [("tag", .bytes [2])])]))⟩

end Model

end VersionedModel
