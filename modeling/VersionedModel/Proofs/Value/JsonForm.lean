import VersionedModel.Proofs.Binary64.Order
import VersionedModel.Proofs.Value.Json

/-!
# What one trip through JSON makes of a value

A trip through JSON replaces scalars and leaves the shape of a value alone: bytes come back as a text
in base64, a float that is not finite as null, and everything else as it was
(`Value.ofJson_toJson_eq`). Trees that values can hold make the trip the other way unchanged
(`Value.toJson_ofJson`), and all trees of values are such (`Value.fits_toJson`). So a second trip
changes nothing, and this is still so if the value is fitted to a declared kind after each trip
(`Value.carried_carried`).
-/

namespace VersionedModel

namespace Value

/-! ### Scalars -/

mutual

/-- Replace every scalar, which is what is neither an array nor a map. The shape of the value stays,
and so do the keys in it. -/
def mapScalars (f : Value → Value) : Value → Value
  | array items => array (mapItemScalars f items)
  | map entries => map (mapEntryScalars f entries)
  | v => f v

/-- Replace every scalar in a sequence. -/
def mapItemScalars (f : Value → Value) : List Value → List Value
  | [] => []
  | v :: vs => v.mapScalars f :: mapItemScalars f vs

/-- Replace every scalar among the values of entries. -/
def mapEntryScalars (f : Value → Value) : List (String × Value) → List (String × Value)
  | [] => []
  | (k, v) :: es => (k, v.mapScalars f) :: mapEntryScalars f es

end

/-- What comes back for a scalar that is sent as JSON. -/
def jsonScalar : Value → Value
  | bytes bs => string (Base64.encode bs)
  | float x => if x.isFinite then float x else null
  | v => v

mutual

/-- **A trip through JSON replaces scalars, and nothing else changes**, at any depth. -/
theorem ofJson_toJson_eq (v : Value) : ofJson v.toJson = v.mapScalars jsonScalar := by
  match v with
  | .null | .bool _ | .string _ | .bytes _ => rw [toJson, ofJson]; rfl
  | .integer i => rw [toJson, ofJson, ofInt_toInt]; rfl
  | .float x =>
    rw [toJson]
    by_cases hx : x.isFinite = true
    · rw [if_pos hx, ofJson]
      exact (if_pos hx).symm
    · rw [if_neg hx, ofJson]
      exact (if_neg hx).symm
  | .array items => rw [toJson, ofJson, mapScalars, itemsOfJson_itemsToJson_eq items]
  | .map entries => rw [toJson, ofJson, mapScalars, entriesOfJson_entriesToJson_eq entries]

theorem itemsOfJson_itemsToJson_eq (vs : List Value) :
    itemsOfJson (itemsToJson vs) = mapItemScalars jsonScalar vs := by
  match vs with
  | [] => rfl
  | v :: vs =>
    rw [itemsToJson, itemsOfJson, mapItemScalars, ofJson_toJson_eq v,
      itemsOfJson_itemsToJson_eq vs]

theorem entriesOfJson_entriesToJson_eq (es : List (String × Value)) :
    entriesOfJson (entriesToJson es) = mapEntryScalars jsonScalar es := by
  match es with
  | [] => rfl
  | (k, v) :: es =>
    rw [entriesToJson, entriesOfJson, mapEntryScalars, ofJson_toJson_eq v,
      entriesOfJson_entriesToJson_eq es]

end

/-! ### A second trip -/

mutual

/-- Values can hold the trees of values. -/
theorem fits_toJson (v : Value) : v.toJson.Fits := by
  match v with
  | .null | .bool _ | .string _ | .bytes _ => rw [toJson]; trivial
  | .integer i => exact ⟨i, rfl⟩
  | .float x =>
    rw [toJson]
    split
    · next hx => exact hx
    · trivial
  | .array items => exact itemsFit_itemsToJson items
  | .map entries => exact membersFit_entriesToJson entries

theorem itemsFit_itemsToJson (vs : List Value) : Json.ItemsFit (itemsToJson vs) := by
  match vs with
  | [] => trivial
  | v :: vs => exact ⟨fits_toJson v, itemsFit_itemsToJson vs⟩

theorem membersFit_entriesToJson (es : List (String × Value)) :
    Json.MembersFit (entriesToJson es) := by
  match es with
  | [] => trivial
  | (_, v) :: es => exact ⟨fits_toJson v, membersFit_entriesToJson es⟩

end

/-- What came back once comes back unchanged. -/
theorem ofJson_toJson_ofJson_toJson (v : Value) :
    ofJson (ofJson v.toJson).toJson = ofJson v.toJson := by
  rw [toJson_ofJson _ (fits_toJson v)]

/-! ### Declared kinds -/

theorem isFinite_widen (i : Int64) : (widen i).isFinite = true := by
  have hlow : -2 ^ 63 ≤ i.toInt := i.minValue_le_toInt
  have hhigh : i.toInt ≤ 2 ^ 63 - 1 := i.toInt_le
  exact Binary64.isFinite_ofInt (by omega)

/-- A value that comes back unchanged still does so after it was fitted to a kind, if it is fitted to
the kind again: the bytes that were read from a text are written as a text that reads as them, and
the float that an integer was widened to is finite. -/
theorem carried_coerce {v : Value} (h : ofJson v.toJson = v) (kind : ValueKind) :
    carried kind (v.coerce kind) = v.coerce kind := by
  have hsame : v.coerce kind = v → carried kind (v.coerce kind) = v.coerce kind := by
    intro hv
    rw [hv, carried, h, hv]
  cases kind with
  | bytes =>
    cases v with
    | string s =>
      cases hbytes : Base64.decode s with
      | none => exact hsame (by rw [coerce, hbytes])
      | some bs =>
        have hcoerce : (string s).coerce .bytes = bytes bs := by rw [coerce, hbytes]
        rw [hcoerce]
        exact carried_of_faithful ⟨bs, rfl⟩
    | _ => exact hsame rfl
  | float =>
    cases v with
    | integer i => exact carried_of_faithful ⟨widen i, rfl, isFinite_widen i⟩
    | _ => exact hsame rfl
  | _ => exact hsame rfl

/-- **What was carried through JSON once is carried unchanged ever after.** -/
theorem carried_carried (kind : ValueKind) (v : Value) :
    carried kind (carried kind v) = carried kind v :=
  carried_coerce (ofJson_toJson_ofJson_toJson v) kind

/-- **One trip through JSON reaches a fixed point.** A value comes back with its bytes as texts in
base64 and with null for floats that are not finite, and otherwise as it was. A tree whose integers
have 64 bits with a sign and whose floats are finite comes back as it was. And a value of a declared
kind, which is fitted to this kind after each trip, does not change any more after the first one. -/
theorem json_trip_reaches_fixed_point :
    (∀ v : Value, ofJson v.toJson = v.mapScalars jsonScalar) ∧
      (∀ j : Json, j.Fits → (ofJson j).toJson = j) ∧
      ∀ (kind : ValueKind) (v : Value),
        (ofJson ((ofJson v.toJson).coerce kind).toJson).coerce kind =
          (ofJson v.toJson).coerce kind :=
  ⟨ofJson_toJson_eq, toJson_ofJson, carried_carried⟩

/-- The record of a photo, whose bytes and whose ratio do not come back; its tree, which does; and
its title, which reads as bytes where these are declared. -/
theorem json_trip_reaches_fixed_point_of_photo :
    ofJson (map [("data", bytes [1, 2]), ("ratio", float .nan), ("size", integer 2)]).toJson =
        map [("data", string "AQI="), ("ratio", null), ("size", integer 2)] ∧
      Json.Fits (.object [("data", .string "AQI="), ("ratio", .null), ("size", .integer 2)]) ∧
      (ofJson (.object [("data", .string "AQI="), ("ratio", .null), ("size", .integer 2)])).toJson =
        .object [("data", .string "AQI="), ("ratio", .null), ("size", .integer 2)] ∧
      (ofJson (string "AQI=").toJson).coerce .bytes = bytes [1, 2] ∧
      (ofJson (bytes [1, 2]).toJson).coerce .bytes = bytes [1, 2] := by
  obtain ⟨hvalue, htree, hfixed⟩ := json_trip_reaches_fixed_point
  have hfits : Json.Fits (.object [("data", .string "AQI="), ("ratio", .null),
      ("size", .integer 2)]) := ⟨trivial, trivial, ⟨2, rfl⟩, trivial⟩
  have htitle : (ofJson (string "AQI=").toJson).coerce .bytes = bytes [1, 2] := by decide
  refine ⟨(hvalue _).trans (by decide), hfits, htree _ hfits, htitle, ?_⟩
  rw [← htitle]
  exact hfixed .bytes (string "AQI=")

end Value

end VersionedModel
