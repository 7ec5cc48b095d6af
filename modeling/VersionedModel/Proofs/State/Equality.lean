import Mathlib.Data.List.Perm.Subperm
import VersionedModel.Proofs.State.Order

/-!
# Equality of states

A state that fields were put into, one by one or many at once, has no name twice
(`State.Built.nodup_keys`). The comparison of two states looks at their sizes and for the fields of
the one in the other; as no name occurs twice, it tells whether the two hold the same data under
every name (`State.same_iff_agree`). The same is told by comparing the dictionaries of the two entry
by entry (`Value.sameEntries_iff_agree`), so states are compared as finite maps
(`State.same_iff_same_toDict`).
-/

namespace VersionedModel

namespace Entries

/-! ### Agreement -/

/-- The entries hold the same data under every key. -/
def Agree (es fs : List (String × Value)) : Prop :=
  ∀ k, Option.Rel (fun x y => x.same y = true) (get? k es) (get? k fs)

section Agree

variable {es fs : List (String × Value)}

theorem Agree.symm (h : Agree es fs) : Agree fs es := by
  intro k
  have hk := h k
  generalize get? k es = x, get? k fs = y at hk ⊢
  cases hk with
  | none => exact .none
  | some hxy => exact .some (Value.same_comm _ _ ▸ hxy)

theorem Agree.mem_keys_iff (h : Agree es fs) {k : String} :
    k ∈ es.map Prod.fst ↔ k ∈ fs.map Prod.fst := by
  have hk := h k
  rw [← not_iff_not, ← get?_eq_none_iff, ← get?_eq_none_iff]
  generalize get? k es = x, get? k fs = y at hk ⊢
  cases hk <;> simp

end Agree

theorem agree_cons_iff {e f : String × Value} {es fs : List (String × Value)} (hkey : e.1 = f.1)
    (he : e.1 ∉ es.map Prod.fst) (hf : f.1 ∉ fs.map Prod.fst) :
    Agree (e :: es) (f :: fs) ↔ e.2.same f.2 = true ∧ Agree es fs := by
  constructor
  · intro h
    refine ⟨?_, fun k => ?_⟩
    · have hfirst := h e.1
      rw [get?_cons, get?_cons, if_pos rfl, if_pos hkey.symm] at hfirst
      cases hfirst with
      | some hvalue => exact hvalue
    · by_cases hk : e.1 = k
      · -- The first key does not come again.
        rw [← hk, get?_eq_none_iff.2 he, hkey, get?_eq_none_iff.2 hf]
        exact .none
      · have hother := h k
        rwa [get?_cons, get?_cons, ← hkey, if_neg hk, if_neg hk] at hother
  · rintro ⟨hvalue, hrest⟩ k
    rw [get?_cons, get?_cons, ← hkey]
    split
    · exact .some hvalue
    · exact hrest k

/-- Entries in order with the same keys start with the same one, the least. -/
theorem Sorted.head_key_eq {e f : String × Value} {es fs : List (String × Value)}
    (he : Sorted (e :: es)) (hf : Sorted (f :: fs))
    (h : ∀ k, k ∈ (e :: es).map Prod.fst ↔ k ∈ (f :: fs).map Prod.fst) : e.1 = f.1 := by
  have hmem := (h e.1).1 (List.mem_map_of_mem List.mem_cons_self)
  have hmem' := (h f.1).2 (List.mem_map_of_mem List.mem_cons_self)
  rw [List.map_cons, List.mem_cons] at hmem hmem'
  rcases hmem with heq | hmem
  · exact heq
  rcases hmem' with heq | hmem'
  · exact heq.symm
  obtain ⟨a, ha, hae⟩ := List.mem_map.1 hmem
  obtain ⟨b, hb, hbf⟩ := List.mem_map.1 hmem'
  have hlt : f.1 < e.1 := hae ▸ (List.pairwise_cons.1 hf).1 a ha
  have hgt : e.1 < f.1 := hbf ▸ (List.pairwise_cons.1 he).1 b hb
  exact absurd (String.lt_trans hlt hgt) (String.lt_irrefl _)

end Entries

namespace Value

open Entries (Agree Sorted)

/-- **Entries in order that are compared one by one are compared key by key.** The induction is on
both lists: if they agree, their first keys are the least ones and therefore equal. -/
theorem sameEntries_iff_agree {es fs : List (String × Value)} (he : Sorted es) (hf : Sorted fs) :
    sameEntries es fs = true ↔ Agree es fs := by
  induction es generalizing fs with
  | nil =>
    cases fs with
    | nil => exact ⟨fun _ _ => .none, fun _ => rfl⟩
    | cons f fs =>
      refine ⟨nofun, fun h => ?_⟩
      have hmem := h.mem_keys_iff.2 (List.mem_map_of_mem List.mem_cons_self)
      cases hmem
  | cons e es ih =>
    cases fs with
    | nil =>
      refine ⟨nofun, fun h => ?_⟩
      have hmem := h.mem_keys_iff.1 (List.mem_map_of_mem List.mem_cons_self)
      cases hmem
    | cons f fs =>
      have hfirst := (List.nodup_cons.1 he.nodup_keys).1
      have hfirst' := (List.nodup_cons.1 hf.nodup_keys).1
      have hiff := ih (List.pairwise_cons.1 he).2 (List.pairwise_cons.1 hf).2
      rw [sameEntries, Bool.and_eq_true, Bool.and_eq_true, beq_iff_eq, hiff]
      constructor
      · rintro ⟨⟨hkey, hvalue⟩, hrest⟩
        exact (Entries.agree_cons_iff hkey hfirst hfirst').2 ⟨hvalue, hrest⟩
      · intro h
        have hkey := he.head_key_eq hf fun _ => h.mem_keys_iff
        obtain ⟨hvalue, hrest⟩ := (Entries.agree_cons_iff hkey hfirst hfirst').1 h
        exact ⟨⟨hkey, hvalue⟩, hrest⟩

end Value

namespace State

open Entries (Agree)

/-! ### States that were built -/

/-- A state that fields were put into: it was empty or collected from pairs at first, and then
fields were set. -/
inductive Built : State → Prop
  /-- No field was put in. -/
  | empty : Built empty
  /-- Many fields were put in at once. -/
  | collect (pairs : List (String × Value)) : Built (ofList pairs)
  /-- One more field was put in. -/
  | insert {s : State} (h : Built s) (name : String) (v : Value) : Built (s.insert name v)

/-- **No name comes twice**, however often fields were replaced. -/
theorem Built.nodup_keys {s : State} (h : s.Built) : s.keys.Nodup := by
  induction h with
  | empty => exact List.nodup_nil
  | collect pairs => exact Listing.nodup_keys_ofList pairs
  | insert _ name v ih => exact Listing.nodup_keys_put ih

section Equality

variable {s t : State} (hs : s.keys.Nodup) (ht : t.keys.Nodup)
include hs ht

/-- **Equal states hold the same data under every name.** A state that has as many fields as another
and has all fields of it has no others. -/
theorem same_iff_agree : s.same t = true ↔ Agree s.toList t.toList := by
  rw [same_eq_true_iff hs]
  constructor
  · rintro ⟨hsize, hfields⟩ name
    have hsub : s.keys ⊆ t.keys := by
      intro k hk
      obtain ⟨x, hx⟩ := mem_keys_iff.1 hk
      obtain ⟨y, hy, -⟩ := hfields k x hx
      exact mem_keys_iff.2 ⟨y, hy⟩
    have hperm : s.keys.Perm t.keys :=
      (hs.subperm hsub).perm_of_length_le (by rw [length_keys, length_keys, hsize])
    change Option.Rel _ (s.get? name) (t.get? name)
    cases hx : s.get? name with
    | none =>
      have hnone : t.get? name = none :=
        get?_eq_none_iff.2 (mt hperm.mem_iff.2 (get?_eq_none_iff.1 hx))
      rw [hnone]
      exact .none
    | some x =>
      obtain ⟨y, hy, hxy⟩ := hfields name x hx
      rw [hy]
      exact .some hxy
  · intro h
    have hperm : s.keys.Perm t.keys := (List.perm_ext_iff_of_nodup hs ht).2 fun _ => h.mem_keys_iff
    refine ⟨by rw [← length_keys, ← length_keys, hperm.length_eq], fun name x hx => ?_⟩
    have hname : Option.Rel _ (s.get? name) (t.get? name) := h name
    rw [hx] at hname
    generalize t.get? name = o at hname
    cases hname with
    | some hxy => exact ⟨_, rfl, hxy⟩

theorem same_comm : s.same t = t.same s := by
  rw [Bool.eq_iff_iff, same_iff_agree hs ht, same_iff_agree ht hs]
  exact ⟨Agree.symm, Agree.symm⟩

theorem same_iff_sameEntries_toDict :
    s.same t = true ↔ Value.sameEntries s.toDict.toList t.toDict.toList = true := by
  rw [same_iff_agree hs ht, Value.sameEntries_iff_agree s.toDict.sorted t.toDict.sorted]
  refine forall_congr' fun k => ?_
  rw [toDict, toDict, Dict.ofList, Dict.ofList, Entries.get?_ofList hs, Entries.get?_ofList ht]

end Equality

/-- **Equality of states is equality of finite maps.** In states that were built in any way no name
comes twice; one is equal to another exactly if the other is equal to it, and exactly if their
dictionaries are equal entry by entry, which is so if the two hold the same data under every name. -/
theorem same_iff_same_toDict {s t : State} (hs : s.Built) (ht : t.Built) :
    s.keys.Nodup ∧ t.keys.Nodup ∧ (s.same t = true ↔ t.same s = true) ∧
      (s.same t = true ↔ Value.sameEntries s.toDict.toList t.toDict.toList = true) ∧
      (s.same t = true ↔
        ∀ name, Option.Rel (fun x y => x.same y = true) (s.get? name) (t.get? name)) := by
  have hs' := hs.nodup_keys
  have ht' := ht.nodup_keys
  exact ⟨hs', ht', by rw [same_comm hs' ht'], same_iff_sameEntries_toDict hs' ht',
    same_iff_agree hs' ht'⟩

/-- A name that was replaced, in one state, and put in last, in another. -/
theorem same_iff_same_toDict_of_renumbered :
    (ofList [("id", .integer 1), ("name", .string "x"), ("id", .integer 2)]).Built ∧
      ((ofList [("name", .string "x")]).insert "id" (.integer 2)).Built ∧
      (ofList [("id", .integer 1), ("name", .string "x"), ("id", .integer 2)]).same
        ((ofList [("name", .string "x")]).insert "id" (.integer 2)) = true ∧
      ((ofList [("name", .string "x")]).insert "id" (.integer 2)).same
        (ofList [("id", .integer 1), ("name", .string "x"), ("id", .integer 2)]) = true := by
  have hs : (ofList [("id", .integer 1), ("name", .string "x"), ("id", .integer 2)]).Built :=
    .collect _
  have ht : ((ofList [("name", .string "x")]).insert "id" (.integer 2)).Built :=
    .insert (.collect _) _ _
  obtain ⟨-, -, hcomm, hdict, -⟩ := same_iff_same_toDict hs ht
  have hsame := hdict.2 (by decide)
  exact ⟨hs, ht, hsame, hcomm.1 hsame⟩

end State

end VersionedModel
