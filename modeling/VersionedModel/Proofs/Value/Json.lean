import VersionedModel.Proofs.Json.RoundTrip
import VersionedModel.Value.Json

/-!
# Values on their way through JSON

The tree of a value whose maps are in order can be written and read back
(`Value.sendable_toJson`). What comes back for a leaf of a declared kind is `Value.carried`; it is
the value that was sent if JSON can carry it or the kind tells what it was (`Value.Faithful`).
-/

namespace VersionedModel

namespace Value

open Json (Sendable ItemsSendable MembersSendable)

/-! ### What can be sent -/

theorem keys_entriesToJson (entries : List (String × Value)) :
    (entriesToJson entries).map Prod.fst = entries.map Prod.fst := by
  induction entries with
  | nil => rfl
  | cons e entries ih => rw [entriesToJson, List.map_cons, List.map_cons, ih]

theorem sorted_entriesToJson {entries : List (String × Value)} (h : Entries.Sorted entries) :
    Entries.Sorted (entriesToJson entries) := by
  have hkeys : (entries.map Prod.fst).Pairwise (· < ·) := List.pairwise_map.2 h
  rw [← keys_entriesToJson] at hkeys
  exact List.pairwise_map.1 hkeys

mutual

/-- **The tree of a value can be written and read back**, if the maps in it are in order. -/
theorem sendable_toJson (v : Value) (h : v.Ordered) : Sendable v.toJson := by
  match v with
  | .null | .bool _ | .string _ | .bytes _ => rw [toJson]; trivial
  | .integer i => exact ⟨i.minValue_le_toInt, i.toInt_le⟩
  | .float x =>
    rw [toJson]
    split
    · next hx => exact hx
    · trivial
  | .array items => exact sendable_itemsToJson items h
  | .map entries => exact ⟨sorted_entriesToJson h.1, sendable_entriesToJson entries h.2⟩

theorem sendable_itemsToJson (vs : List Value) (h : ItemsOrdered vs) :
    ItemsSendable (itemsToJson vs) := by
  match vs with
  | [] => trivial
  | v :: vs => exact ⟨sendable_toJson v h.1, sendable_itemsToJson vs h.2⟩

theorem sendable_entriesToJson (es : List (String × Value)) (h : EntriesOrdered es) :
    MembersSendable (entriesToJson es) := by
  match es with
  | [] => trivial
  | (_, v) :: es => exact ⟨sendable_toJson v h.1, sendable_entriesToJson es h.2⟩

end

/-! ### What JSON can carry -/

mutual

/-- The value contains no bytes and no float that is not finite. -/
def Plain : Value → Prop
  | bytes _ => False
  | float x => x.isFinite = true
  | array items => ItemsPlain items
  | map entries => EntriesPlain entries
  | _ => True

/-- No item contains any. -/
def ItemsPlain : List Value → Prop
  | [] => True
  | v :: vs => v.Plain ∧ ItemsPlain vs

/-- No entry's value contains any. -/
def EntriesPlain : List (String × Value) → Prop
  | [] => True
  | (_, v) :: es => v.Plain ∧ EntriesPlain es

end

theorem itemsOfJson_eq_map (js : List Json) : itemsOfJson js = js.map ofJson := by
  induction js with
  | nil => rfl
  | cons j js ih => rw [itemsOfJson, ih, List.map_cons]

theorem entriesOfJson_eq_map (ms : List (String × Json)) :
    entriesOfJson ms = ms.map fun e => (e.1, ofJson e.2) := by
  induction ms with
  | nil => rfl
  | cons e ms ih => rw [entriesOfJson, ih, List.map_cons]

theorem entriesToJson_eq_map (es : List (String × Value)) :
    entriesToJson es = es.map fun e => (e.1, e.2.toJson) := by
  induction es with
  | nil => rfl
  | cons e es ih => rw [entriesToJson, ih, List.map_cons]

theorem int64?_toInt (i : Int64) : Json.int64? i.toInt = some i := by
  rw [Json.int64?, if_pos ⟨i.minValue_le_toInt, i.toInt_le⟩, Int64.ofInt_toInt]

theorem ofInt_toInt (i : Int64) : ofInt i.toInt = integer i := by
  rw [ofInt, int64?_toInt]

mutual

/-- JSON carries it as it is. -/
theorem ofJson_toJson (v : Value) (h : v.Plain) : ofJson v.toJson = v := by
  match v with
  | .null | .bool _ | .string _ => rw [toJson, ofJson]
  | .integer i => rw [toJson, ofJson, ofInt_toInt]
  | .float x =>
    have hx : x.isFinite = true := h
    rw [toJson, if_pos hx, ofJson]
  | .bytes _ => exact h.elim
  | .array items => rw [toJson, ofJson, itemsOfJson_itemsToJson items h]
  | .map entries => rw [toJson, ofJson, entriesOfJson_entriesToJson entries h]

theorem itemsOfJson_itemsToJson (vs : List Value) (h : ItemsPlain vs) :
    itemsOfJson (itemsToJson vs) = vs := by
  match vs with
  | [] => rfl
  | v :: vs =>
    rw [itemsToJson, itemsOfJson, ofJson_toJson v h.1, itemsOfJson_itemsToJson vs h.2]

theorem entriesOfJson_entriesToJson (es : List (String × Value)) (h : EntriesPlain es) :
    entriesOfJson (entriesToJson es) = es := by
  match es with
  | [] => rfl
  | (k, v) :: es =>
    rw [entriesToJson, entriesOfJson, ofJson_toJson v h.1, entriesOfJson_entriesToJson es h.2]

end

mutual

/-- Nothing else is carried as it is. -/
theorem plain_of_ofJson_toJson (v : Value) (h : ofJson v.toJson = v) : v.Plain := by
  match v with
  | .null | .bool _ | .string _ | .integer _ => trivial
  | .float x =>
    by_contra hx
    have hx : ¬x.isFinite = true := hx
    rw [toJson, if_neg hx, ofJson] at h
    cases h
  | .bytes _ =>
    rw [toJson, ofJson] at h
    cases h
  | .array items =>
    rw [toJson, ofJson] at h
    exact itemsPlain_of_itemsOfJson_itemsToJson items (Value.array.inj h)
  | .map entries =>
    rw [toJson, ofJson] at h
    exact entriesPlain_of_entriesOfJson_entriesToJson entries (Value.map.inj h)

theorem itemsPlain_of_itemsOfJson_itemsToJson (vs : List Value)
    (h : itemsOfJson (itemsToJson vs) = vs) : ItemsPlain vs := by
  match vs with
  | [] => trivial
  | v :: vs =>
    rw [itemsToJson, itemsOfJson] at h
    obtain ⟨hv, hvs⟩ := List.cons.inj h
    exact ⟨plain_of_ofJson_toJson v hv, itemsPlain_of_itemsOfJson_itemsToJson vs hvs⟩

theorem entriesPlain_of_entriesOfJson_entriesToJson (es : List (String × Value))
    (h : entriesOfJson (entriesToJson es) = es) : EntriesPlain es := by
  match es with
  | [] => trivial
  | (k, v) :: es =>
    rw [entriesToJson, entriesOfJson] at h
    obtain ⟨hv, hes⟩ := List.cons.inj h
    exact ⟨plain_of_ofJson_toJson v (congrArg Prod.snd hv),
      entriesPlain_of_entriesOfJson_entriesToJson es hes⟩

end

/-! ### What values can hold -/

end Value

namespace Json

mutual

/-- Values can hold the tree: its integers have 64 bits with a sign, and its floats are finite. -/
def Fits : Json → Prop
  | .integer n => ∃ i : Int64, n = i.toInt
  | .float x => x.isFinite = true
  | .array items => ItemsFit items
  | .object members => MembersFit members
  | _ => True

/-- They can hold every item. -/
def ItemsFit : List Json → Prop
  | [] => True
  | j :: js => j.Fits ∧ ItemsFit js

/-- They can hold every member's value. -/
def MembersFit : List (String × Json) → Prop
  | [] => True
  | (_, j) :: ms => j.Fits ∧ MembersFit ms

end

end Json

namespace Value

open Json (ItemsFit MembersFit)

mutual

/-- A tree that values can hold is the tree of its value. -/
theorem toJson_ofJson (j : Json) (h : j.Fits) : (ofJson j).toJson = j := by
  match j with
  | .null | .bool _ | .string _ => rw [ofJson, toJson]
  | .integer _ =>
    obtain ⟨i, rfl⟩ := h
    rw [ofJson, ofInt_toInt, toJson]
  | .float x =>
    have hx : x.isFinite = true := h
    rw [ofJson, toJson, if_pos hx]
  | .array items => rw [ofJson, toJson, itemsToJson_itemsOfJson items h]
  | .object members => rw [ofJson, toJson, entriesToJson_entriesOfJson members h]

theorem itemsToJson_itemsOfJson (js : List Json) (h : ItemsFit js) :
    itemsToJson (itemsOfJson js) = js := by
  match js with
  | [] => rfl
  | j :: js =>
    rw [itemsOfJson, itemsToJson, toJson_ofJson j h.1, itemsToJson_itemsOfJson js h.2]

theorem entriesToJson_entriesOfJson (ms : List (String × Json)) (h : MembersFit ms) :
    entriesToJson (entriesOfJson ms) = ms := by
  match ms with
  | [] => rfl
  | (k, j) :: ms =>
    rw [entriesOfJson, entriesToJson, toJson_ofJson j h.1, entriesToJson_entriesOfJson ms h.2]

end

/-! ### Leaves of a declared kind -/

/-- What comes back for a leaf of a kind that is sent as JSON. -/
def carried (kind : ValueKind) (v : Value) : Value :=
  (ofJson v.toJson).coerce kind

/-- A leaf of a kind comes back as it was sent: bytes where bytes are declared, a finite float where
floats are, and anywhere else what contains neither bytes nor a float that is not finite. -/
def Faithful (kind : ValueKind) (v : Value) : Prop :=
  match kind with
  | .bytes => ∃ bs, v = .bytes bs
  | .float => ∃ x : Binary64, v = .float x ∧ x.isFinite = true
  | _ => v.Plain

theorem carried_of_faithful {kind : ValueKind} {v : Value} (h : Faithful kind v) :
    carried kind v = v := by
  cases kind with
  | bytes =>
    obtain ⟨bs, rfl⟩ := h
    rw [carried, toJson, ofJson, coerce, Base64.decode_encode]
  | float =>
    obtain ⟨x, rfl, hx⟩ := h
    rw [carried, toJson, if_pos hx, ofJson]
    rfl
  | _ =>
    rw [carried, ofJson_toJson v h]
    rfl

end Value

end VersionedModel
