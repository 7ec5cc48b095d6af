import VersionedModel.Portable
import VersionedModel.Proofs.Lookup
import VersionedModel.Proofs.Outcome
import VersionedModel.Proofs.Value.Json

/-!
# Data as values

A value stands for data of a portable type if it is what the data becomes and becomes the data again
(`Portable.StandsFor`); sequences of such values stand for sequences. A record becomes a map with an
entry for each field, and the map may have other entries besides when it becomes the record again
(`Portable.IsRecord`); accounts whose limits are finite are records (`Portable.isRecord_account`).
-/

namespace VersionedModel

namespace Portable

variable {α : Type}

/-! ### Values that stand for data -/

/-- The value has the JSON form of the data, JSON carries it, and the data is read from the form. -/
structure StandsFor [Portable α] (v : Value) (a : α) : Prop where
  toJson_eq : toJson a = .ok v.toJson
  plain : v.Plain
  ofJson?_eq : ofJson? v.toJson = some a

theorem standsFor_integer (i : Int64) : StandsFor (.integer i) i where
  toJson_eq := by rw [Value.toJson]; rfl
  plain := trivial
  ofJson?_eq := by rw [Value.toJson]; exact Value.int64?_toInt i

theorem standsFor_string (s : String) : StandsFor (.string s) s where
  toJson_eq := by rw [Value.toJson]; rfl
  plain := trivial
  ofJson?_eq := by rw [Value.toJson]; rfl

theorem standsFor_float {x : Binary64} (hx : x.isFinite = true) : StandsFor (.float x) x where
  toJson_eq := by rw [Value.toJson]; rfl
  plain := hx
  ofJson?_eq := by rw [Value.toJson, if_pos hx]; rfl

theorem standsFor_null [Portable α] : StandsFor .null (none : Option α) where
  toJson_eq := by rw [Value.toJson]; rfl
  plain := trivial
  ofJson?_eq := by rw [Value.toJson]; rfl

/-- The form of what is there is not that of what is not. -/
theorem StandsFor.some [Portable α] {v : Value} {a : α} (h : StandsFor v a)
    (hv : v.toJson ≠ .null) : StandsFor v (Option.some a) where
  toJson_eq := h.toJson_eq
  plain := h.plain
  ofJson?_eq := by
    have hread : (ofJson? v.toJson).map Option.some = Option.some (Option.some a) := by
      rw [h.ofJson?_eq, Option.map_some]
    rw [← hread]
    cases hj : v.toJson with
    | null => exact absurd hj hv
    | _ => rfl

/-- The limit of an account, which may be absent. -/
theorem standsFor_limit {limit : Option Binary64}
    (h : ∀ x, limit = Option.some x → x.isFinite = true) :
    StandsFor (limit.elim .null .float) limit := by
  cases limit with
  | none => exact standsFor_null
  | some x =>
    refine (standsFor_float (h x rfl)).some ?_
    rw [Value.toJson, if_pos (h x rfl)]
    simp

/-- **Values stand for data item by item.** -/
theorem standsFor_array [Portable α] {vs : List Value} {as : List α}
    (h : List.Forall₂ StandsFor vs as) : StandsFor (.array vs) as := by
  refine ⟨?_, ?_, ?_⟩
  · have hform : as.mapM toJson = .ok (Value.itemsToJson vs) := by
      rw [Outcome.mapM_eq_ok]
      induction h with
      | nil => exact .nil
      | cons hv _ ih => exact .cons hv.toJson_eq ih
    change (as.mapM toJson >>= fun js => pure (Json.array js)) = _
    rw [hform, Value.toJson]
    rfl
  · induction h with
    | nil => trivial
    | cons hv _ ih => exact ⟨hv.plain, ih⟩
  · rw [Value.toJson]
    change (Value.itemsToJson vs).mapM ofJson? = Option.some as
    induction h with
    | nil => rfl
    | cons hv _ ih =>
      rw [Value.itemsToJson, List.mapM_cons, hv.ofJson?_eq, ih]
      rfl

/-! ### Members of objects -/

/-- Where no key is repeated, a member is what is there under its key. -/
theorem member?_eq {members : List (String × Json)} (hn : (members.map Prod.fst).Nodup)
    (key : String) : member? members key = some (Entries.get? key members) := by
  rw [member?, Entries.filter_key hn]
  cases Entries.get? key members <;> rfl

theorem required?_eq {members : List (String × Json)} (hn : (members.map Prod.fst).Nodup)
    (key : String) : required? members key = Entries.get? key members := by
  rw [required?, member?_eq hn]
  rfl

/-! ### Records -/

/-- The data becomes a map of the entries, one for each field, and every map that has these entries,
among whatever others, becomes the data. -/
structure IsRecord [Portable α] (a : α) (entries : List (String × Value)) : Prop where
  nodup_keys : (entries.map Prod.fst).Nodup
  mem_keys_iff : ∀ name, name ∈ entries.map Prod.fst ↔ name ∈ fields α
  ofData_eq : Value.ofData a = .ok (.map entries)
  toData_eq : ∀ all, (all.map Prod.fst).Nodup →
    (∀ e ∈ entries, Entries.get? e.1 all = some e.2) → Value.toData α (.map all) = .ok a

/-! ### Accounts -/

/-- What an account is written as. -/
theorem toJson_account (x : Account) : toJson x = (do
    return .object [("id", ← toJson x.id), ("limit", ← toJson x.limit), ("owner", .string x.owner),
      ("tags", ← toJson x.tags)]) :=
  rfl

/-- What an account is read from. -/
theorem ofJson?_account (members : List (String × Json)) : ofJson? (.object members) = (do
    let id ← required? members "id"
    let owner ← required? members "owner"
    let tags ← required? members "tags"
    let limit ← member? members "limit"
    return (⟨← ofJson? id, ← ofJson? owner, ← ofJson? tags, ← ofJson? (limit.getD .null)⟩ :
      Account)) :=
  rfl

end Portable

/-- The fields of an account as values, in the order of their names. -/
def Account.entries (x : Account) : List (String × Value) :=
  [("id", .integer x.id), ("limit", x.limit.elim .null .float), ("owner", .string x.owner),
    ("tags", .array (x.tags.map .string))]

namespace Portable

/-- **An account with a finite limit, or with none, becomes the map of its fields, and is read from
every map that has these fields.** -/
theorem isRecord_account {x : Account} (hlimit : ∀ y, x.limit = some y → y.isFinite = true) :
    IsRecord x x.entries := by
  have hid := standsFor_integer x.id
  have hlimit := standsFor_limit hlimit
  have howner := standsFor_string x.owner
  have htags : StandsFor (.array (x.tags.map .string)) x.tags := by
    refine standsFor_array (List.forall₂_map_left_iff.2 (List.forall₂_same.2 fun s _ => ?_))
    exact standsFor_string s
  refine ⟨by simp [Account.entries], fun name => ?_, ?_, fun all hn hall => ?_⟩
  · simp only [Account.entries, fields, List.map_cons, List.map_nil, List.mem_cons]
    tauto
  · have hform : toJson x = .ok (Value.map x.entries).toJson := by
      rw [toJson_account, hid.toJson_eq, hlimit.toJson_eq, htags.toJson_eq]
      simp only [Account.entries, Value.toJson, Value.entriesToJson]
      rfl
    have hplain : (Value.map x.entries).Plain :=
      ⟨hid.plain, hlimit.plain, howner.plain, htags.plain, trivial⟩
    rw [Value.ofData, hform]
    exact congrArg Except.ok (Value.ofJson_toJson _ hplain)
  · have hkeys : ((Value.entriesToJson all).map Prod.fst).Nodup := by
      rwa [Value.keys_entriesToJson]
    have hmembers : ∀ e ∈ x.entries,
        Entries.get? e.1 (Value.entriesToJson all) = some e.2.toJson := by
      intro e he
      rw [Value.entriesToJson_eq_map, Entries.get?_map, hall e he, Option.map_some]
    simp only [Account.entries, List.forall_mem_cons] at hmembers
    obtain ⟨gid, glimit, gowner, gtags, -⟩ := hmembers
    have hread : ofJson? (Value.map all).toJson = some x := by
      rw [Value.toJson, ofJson?_account, required?_eq hkeys, required?_eq hkeys,
        required?_eq hkeys, member?_eq hkeys, gid, glimit, gowner, gtags]
      simp only [Option.bind_eq_bind, Option.bind_some, Option.getD_some, hid.ofJson?_eq,
        howner.ofJson?_eq, htags.ofJson?_eq, hlimit.ofJson?_eq]
      rfl
    rw [Value.toData, hread]

end Portable

end VersionedModel
