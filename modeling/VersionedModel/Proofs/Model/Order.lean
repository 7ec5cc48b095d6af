import VersionedModel.Proofs.Model.Histories
import VersionedModel.Proofs.State.Transitivity

/-!
# The order of models

Models are compared as their states are. The other way round they are in the reversed order
(`Model.compare_reversed`). They are equal in the order exactly if they are equal with their fields
in the same order, up to integers that stand against floats (`Model.same_in_order_iff`).

If one model is less than a second and this is less than a third, the first need not be less than
the third, since any two are compared over the fields that these two share. It is as far as the
fields that all three have come first and the first can be compared with the third at all
(`Model.compare_of_lt_of_lt`).
-/

namespace VersionedModel

open Schema (Everywhere Compiled)

/-! ### Things with a width and a height -/

namespace Schema.Sample

/-- A declaration of fields of given kinds. -/
def measuredDeclaration (name : String) (fields : List (String × ValueKind)) : Declaration where
  name := name
  settings := ∅
  rule := .version .usual
  members := fields.map fun e => .field e.1 (.kind e.2)

/-- The fields, compiled to a stack with components from a first one on. -/
def measured (name : String) (stack first : Nat) (fields : List (String × ValueKind)) : Schema :=
  .mk name ∅ stack (fields.zipIdx.map fun e =>
    .primary e.1.1 e.2
      { Component.ofKind (.leaf e.1.2) with id := first + e.2, name := some e.1.1 })

theorem compiled_measured {name : String} {stack first : Nat} {fields : List (String × ValueKind)}
    (h : Compiled (measured name stack first fields)) :
    Everywhere Compiled (measured name stack first fields) := by
  refine .intro h fun p hp t ht => ?_
  obtain ⟨e, -, he⟩ := List.mem_map.1 (Bindings.mem_primaries.1 hp)
  cases p
  cases he
  cases ht

/-- A box has a width and a height. -/
def box : List (String × ValueKind) := [("width", .any), ("height", .integer)]

/-- A panel has them the other way round. -/
def panel : List (String × ValueKind) := [("height", .integer), ("width", .any)]

/-- A rod has a height alone. -/
def rod : List (String × ValueKind) := [("height", .integer)]

/-- A sheet has a width alone. -/
def sheet : List (String × ValueKind) := [("width", .any)]

/-- What is there when all of them were compiled one after the other. -/
def shop : Workspace :=
  Workspace.empty.run [.build (measuredDeclaration "box" box),
    .build (measuredDeclaration "panel" panel), .build (measuredDeclaration "rod" rod),
    .build (measuredDeclaration "sheet" sheet)]

/-- A width of 1.0. -/
theorem toRat?_one : (Binary64.ofInt 1).toRat? = some 1 := by
  have hone : Binary64.ofInt 1 = .number false ⟨1023 * Binary64.fractions, by decide⟩ := by decide
  have hexponent : Binary64.exponent (1023 * Binary64.fractions) = -52 := by decide
  rw [hone, Binary64.toRat?, Binary64.value, hexponent]
  norm_num [Binary64.significand, Binary64.fractions]

end Schema.Sample

namespace Model

open Schema.Sample (measuredDeclaration measured compiled_measured box panel rod sheet shop
  toRat?_one)

/-- The schema is compiled, and the instance was made and then updated. -/
def Obtainable (m : Model) : Prop :=
  Everywhere Compiled m.schema ∧ m.Reachable

/-- An instance whose fields have given values. -/
def filled (s : Schema) (values : List Value) : Model :=
  { new s with slots := values.map fun v => .leaf (some v) }

def boxOf (width : Value) (height : Int64) : Model :=
  filled (measured "box" 0 0 box) [width, .integer height]

def panelOf (height : Int64) (width : Value) : Model :=
  filled (measured "panel" 1 2 panel) [.integer height, width]

def rodOf (height : Int64) : Model :=
  filled (measured "rod" 2 4 rod) [.integer height]

def sheetOf (width : Value) : Model :=
  filled (measured "sheet" 3 5 sheet) [width]

theorem obtainable_box (width : Value) (height : Int64) : (boxOf width height).Obtainable :=
  ⟨compiled_measured ⟨.build (measuredDeclaration "box" box), .empty, _, ⟨[], rfl⟩, rfl⟩,
    measured "box" 0 0 box, ⟨none, ∅, ∅⟩, _, rfl,
    .single (.attempt _ (.bind [("width", width), ("height", .integer height)]))⟩

theorem obtainable_panel (height : Int64) (width : Value) : (panelOf height width).Obtainable :=
  ⟨compiled_measured ⟨.build (measuredDeclaration "panel" panel), _, _,
      ⟨[.build (measuredDeclaration "box" box)], rfl⟩, rfl⟩,
    measured "panel" 1 2 panel, ⟨none, ∅, ∅⟩, _, rfl,
    .single (.attempt _ (.bind [("height", .integer height), ("width", width)]))⟩

theorem obtainable_rod (height : Int64) : (rodOf height).Obtainable :=
  ⟨compiled_measured ⟨.build (measuredDeclaration "rod" rod), _, _,
      ⟨[.build (measuredDeclaration "box" box), .build (measuredDeclaration "panel" panel)], rfl⟩,
      rfl⟩,
    measured "rod" 2 4 rod, ⟨none, ∅, ∅⟩, _, rfl,
    .single (.attempt _ (.bind [("height", .integer height)]))⟩

theorem obtainable_sheet (width : Value) : (sheetOf width).Obtainable :=
  ⟨compiled_measured ⟨.build (measuredDeclaration "sheet" sheet), _, _,
      ⟨[.build (measuredDeclaration "box" box), .build (measuredDeclaration "panel" panel),
        .build (measuredDeclaration "rod" rod)], rfl⟩, rfl⟩,
    measured "sheet" 3 5 sheet, ⟨none, ∅, ∅⟩, _, rfl,
    .single (.attempt _ (.bind [("width", width)]))⟩

/-! ### The other way round -/

/-- **The other way round, models are in the reversed order**, or in none if they are in none. So
are values, at every depth, and values that are the same are equal in the order. -/
theorem compare_reversed (w : Workspace) (m n : Model) :
    n.compare w m = (m.compare w n).map Ordering.swap ∧
      (∀ u v : Value, v.compare u = (u.compare v).map Ordering.swap) ∧
        ∀ u v : Value, u.same v = true → u.compare v = some .eq :=
  ⟨State.compare_swap _ _, Value.compare_swap, fun _ _ => Value.compare_of_same⟩

/-- A box is greater than a rod that is less high, and a list is equal to itself. -/
theorem compare_reversed_of_box :
    (boxOf (.integer 5) 1).compare shop (rodOf 0) = some .gt ∧
      (rodOf 0).compare shop (boxOf (.integer 5) 1) = some .lt ∧
        (Value.array [.integer 1, .float (.ofInt 2)]).same
            (.array [.integer 1, .float (.ofInt 2)]) = true ∧
          (Value.array [.integer 1, .float (.ofInt 2)]).compare
            (.array [.integer 1, .float (.ofInt 2)]) = some .eq := by
  obtain ⟨hrod, -, hsame⟩ := compare_reversed shop (boxOf (.integer 5) 1) (rodOf 0)
  have hbox : (boxOf (.integer 5) 1).compare shop (rodOf 0) = some .gt := by decide
  have hlist : (Value.array [.integer 1, .float (.ofInt 2)]).same
      (.array [.integer 1, .float (.ofInt 2)]) = true := by decide
  rw [hbox] at hrod
  exact ⟨hbox, hrod, hlist, hsame _ _ hlist⟩

/-! ### Equal and the same -/

theorem nodup_keys_state (w : Workspace) (m : Model) : (m.state w).keys.Nodup := by
  rw [state_eq]
  exact Listing.nodup_keys_ofList _

/-- **Two models are equal with their fields in the same order exactly if they are equal in the
order** and in no field that both have an integer stands against a float. -/
theorem same_in_order_iff (w : Workspace) (m n : Model) :
    m.same w n = true ∧ (m.state w).keys = (n.state w).keys ↔
      m.compare w n = some .eq ∧
        ∀ name x y, (m.state w).get? name = some x → (n.state w).get? name = some y →
          x.Unmixed y :=
  State.same_and_keys_eq_iff (nodup_keys_state w m)

/-- A panel is equal to the box with its fields in the other order, but not in the order; and sheets
whose widths are 1 and 1.0 are equal in the order, but not equal. -/
theorem not_same_iff_compare :
    (boxOf (.integer 1) 2).Obtainable ∧ (panelOf 2 (.integer 1)).Obtainable ∧
      (boxOf (.integer 1) 2).same shop (panelOf 2 (.integer 1)) = true ∧
      (boxOf (.integer 1) 2).compare shop (panelOf 2 (.integer 1)) = none ∧
    (sheetOf (.integer 1)).Obtainable ∧ (sheetOf (.float (.ofInt 1))).Obtainable ∧
      (sheetOf (.integer 1)).compare shop (sheetOf (.float (.ofInt 1))) = some .eq ∧
      (sheetOf (.integer 1)).same shop (sheetOf (.float (.ofInt 1))) = false :=
  ⟨obtainable_box _ _, obtainable_panel _ _, by decide, by decide, obtainable_sheet _,
    obtainable_sheet _, by decide, by decide⟩

/-! ### Chains -/

section Chains

variable {w : Workspace} {m n k : Model}

/-- **Of three models in a row, the first is less than the last if these two can be compared at
all**, as long as the fields that all three have are the first that any two of them share and in
these fields no integer is taken for a float that it is not. If the two cannot be compared, they are
in no order. In no case is the last less than the first. -/
theorem compare_of_lt_of_lt (h : (m.state w).Consistent (n.state w) (k.state w))
    (hmn : m.compare w n = some .lt) (hnk : n.compare w k = some .lt) :
    ((m.state w).Aligned (k.state w) → m.compare w k = some .lt) ∧
      (¬(m.state w).Aligned (k.state w) → m.compare w k = none) ∧ k.compare w m ≠ some .lt := by
  have hlt : (m.state w).Aligned (k.state w) → (m.state w).compare (k.state w) = some .lt :=
    fun ha => State.chained_compare h ha .lt .lt hmn hnk nofun nofun
  refine ⟨hlt, State.compare_of_not_aligned, ?_⟩
  rw [compare, State.compare_swap (m.state w)]
  by_cases ha : (m.state w).Aligned (k.state w)
  · rw [hlt ha]
    nofun
  · rw [State.compare_of_not_aligned ha]
    nofun

end Chains

/-- Two boxes and a sheet in a row, the second and the third of one width, which is a float in one
and an integer in the other. -/
theorem compare_of_lt_of_lt_boxes :
    ((boxOf (.integer 0) 9).state shop).Consistent ((boxOf (.float (.ofInt 1)) 1).state shop)
        ((sheetOf (.integer 1)).state shop) ∧
      (boxOf (.integer 0) 9).compare shop (boxOf (.float (.ofInt 1)) 1) = some .lt ∧
      (boxOf (.float (.ofInt 1)) 1).compare shop (sheetOf (.integer 1)) = some .lt ∧
      (boxOf (.integer 0) 9).compare shop (sheetOf (.integer 1)) = some .lt := by
  have h : ((boxOf (.integer 0) 9).state shop).Consistent
      ((boxOf (.float (.ofInt 1)) 1).state shop) ((sheetOf (.integer 1)).state shop) := by
    refine ⟨⟨["height"], rfl⟩, ⟨[], rfl⟩, ⟨[], rfl⟩, fun name x y z hx hy hz => ?_⟩
    -- The width is the one field that all of them have.
    obtain ⟨rfl, rfl⟩ := Prod.mk.inj (List.mem_singleton.1 (Entries.mem_of_get?_eq_some hz))
    cases hx
    cases hy
    exact ⟨fun heq => absurd heq (by decide), fun _ => toRat?_one, trivial⟩
  have hfirst : (boxOf (.integer 0) 9).compare shop (boxOf (.float (.ofInt 1)) 1) = some .lt := by
    decide
  have hlast : (boxOf (.float (.ofInt 1)) 1).compare shop (sheetOf (.integer 1)) = some .lt := by
    decide
  have ha : ((boxOf (.integer 0) 9).state shop).Aligned ((sheetOf (.integer 1)).state shop) :=
    ⟨rfl, .inr (by decide)⟩
  exact ⟨h, hfirst, hlast, (compare_of_lt_of_lt h hfirst hlast).1 ha⟩

/-- A sheet is less than a box and this is less than a rod, but the sheet and the rod are in no
order. And a rod is less than a box, this is less than another box, and this is less than the rod. -/
theorem not_lt_of_lt_of_lt :
    (sheetOf (.integer 1)).Obtainable ∧ (boxOf (.integer 2) 1).Obtainable ∧ (rodOf 1).Obtainable ∧
      (sheetOf (.integer 1)).compare shop (boxOf (.integer 2) 1) = some .lt ∧
      (boxOf (.integer 2) 1).compare shop (rodOf 1) = some .lt ∧
      (sheetOf (.integer 1)).compare shop (rodOf 1) = none ∧
    (rodOf 5).Obtainable ∧ (boxOf (.integer 0) 9).Obtainable ∧ (boxOf (.integer 1) 1).Obtainable ∧
      (rodOf 5).compare shop (boxOf (.integer 0) 9) = some .lt ∧
      (boxOf (.integer 0) 9).compare shop (boxOf (.integer 1) 1) = some .lt ∧
      (boxOf (.integer 1) 1).compare shop (rodOf 5) = some .lt ∧
      (rodOf 5).compare shop (boxOf (.integer 1) 1) = some .gt :=
  ⟨obtainable_sheet _, obtainable_box _ _, obtainable_rod _, by decide, by decide, by decide,
    obtainable_rod _, obtainable_box _ _, obtainable_box _ _, by decide, by decide, by decide,
    by decide⟩

-- Rounding closes a circle of one schema: both widths are taken for one float.
example :
    (boxOf (.integer 9007199254740993) 1).compare shop
        (boxOf (.float (.ofInt 9007199254740992)) 2) = some .lt ∧
      (boxOf (.float (.ofInt 9007199254740992)) 2).compare shop
        (boxOf (.integer 9007199254740992) 3) = some .lt ∧
      (boxOf (.integer 9007199254740992) 3).compare shop
        (boxOf (.integer 9007199254740993) 1) = some .lt := by
  decide

end Model

end VersionedModel
