import Mathlib.Data.List.Induction
import Mathlib.Data.List.Nodup
import VersionedModel.Dict
import VersionedModel.Listing
import VersionedModel.Proofs.FirstAppearance

/-!
# Looking keys up

What dictionaries and listings that are built from pairs hold under a key. If no key occurs twice
among the pairs, the order in which they are put in does not matter, and a listing of them is the
list itself.
-/

namespace VersionedModel

variable {α β : Type}

namespace Entries

theorem get?_cons (k : String) (e : String × α) (es : List (String × α)) :
    get? k (e :: es) = if e.1 = k then some e.2 else get? k es := by
  by_cases h : e.1 = k <;> simp [get?, h]

theorem get?_eq_none_iff {k : String} {es : List (String × α)} :
    get? k es = none ↔ k ∉ es.map Prod.fst := by
  induction es with
  | nil => simp [get?]
  | cons e es ih =>
    rw [get?_cons, List.map_cons, List.mem_cons, not_or, ← ih]
    split
    · next h => simp [h]
    · next h => simp [Ne.symm h]

theorem get?_map (f : α → β) (k : String) (es : List (String × α)) :
    get? k (es.map fun e => (e.1, f e.2)) = (get? k es).map f := by
  induction es with
  | nil => rfl
  | cons e es ih =>
    rw [List.map_cons, get?_cons, get?_cons, ih]
    split <;> rfl

theorem mem_of_get?_eq_some {k : String} {x : α} {es : List (String × α)}
    (h : get? k es = some x) : (k, x) ∈ es := by
  obtain ⟨e, he, rfl⟩ := Option.map_eq_some_iff.1 h
  have hk : e.1 = k := by simpa using List.find?_some he
  exact hk ▸ List.mem_of_find?_eq_some he

theorem get?_eq_some_of_mem {k : String} {x : α} {es : List (String × α)}
    (hn : (es.map Prod.fst).Nodup) (h : (k, x) ∈ es) : get? k es = some x := by
  induction es with
  | nil => cases h
  | cons e es ih =>
    rw [List.map_cons, List.nodup_cons] at hn
    rw [get?_cons]
    rcases List.mem_cons.1 h with rfl | h
    · exact if_pos rfl
    · have hne : e.1 ≠ k := by
        rintro rfl
        exact hn.1 (List.mem_map.2 ⟨_, h, rfl⟩)
      rw [if_neg hne]
      exact ih hn.2 h

/-- No other entry has the key of the one that is found. -/
theorem filter_key {es : List (String × α)} (hn : (es.map Prod.fst).Nodup) (k : String) :
    es.filter (fun e => e.1 == k) = ((get? k es).map (k, ·)).toList := by
  induction es with
  | nil => rfl
  | cons e es ih =>
    rw [List.map_cons, List.nodup_cons] at hn
    rw [List.filter_cons, get?_cons, ih hn.2]
    by_cases h : e.1 = k
    · rw [get?_eq_none_iff.2 (h ▸ hn.1)]
      simp [← h]
    · simp [h]

theorem get?_insert (k j : String) (x : α) (es : List (String × α)) :
    get? j (insert k x es) = if k = j then some x else get? j es := by
  split
  · next h => exact h ▸ get?_insert_self k x es
  · next h => exact get?_insert_of_ne (Ne.symm h) x es

theorem get?_insertMany {new : List (String × α)} (hn : (new.map Prod.fst).Nodup) (k : String)
    (es : List (String × α)) : get? k (insertMany es new) = (get? k new).or (get? k es) := by
  induction new generalizing es with
  | nil => rfl
  | cons e new ih =>
    rw [List.map_cons, List.nodup_cons] at hn
    change get? k (insertMany (insert e.1 e.2 es) new) = _
    rw [ih hn.2, get?_insert, get?_cons]
    split
    · next he =>
      rw [get?_eq_none_iff.2 (he ▸ hn.1)]
      rfl
    · rfl

theorem get?_ofList {es : List (String × α)} (hn : (es.map Prod.fst).Nodup) (k : String) :
    get? k (ofList es) = get? k es := by
  rw [ofList, get?_insertMany hn]
  exact Option.or_none

theorem mem_of_mem_ofList {e : String × α} {es : List (String × α)} (h : e ∈ ofList es) :
    e ∈ es := by
  have key : ∀ (new es : List (String × α)), e ∈ insertMany es new → e ∈ es ∨ e ∈ new := by
    intro new
    induction new with
    | nil => exact fun es h => .inl h
    | cons a new ih =>
      intro es h
      rcases ih (insert a.1 a.2 es) h with h | h
      · rcases mem_insert h with h | h <;> simp [h]
      · simp [h]
  exact (key es [] h).resolve_left List.not_mem_nil

theorem Sorted.nodup_keys {es : List (String × α)} (h : Sorted es) : (es.map Prod.fst).Nodup := by
  refine List.pairwise_map.2 (h.imp fun hlt => ?_)
  rintro heq
  rw [heq] at hlt
  exact String.lt_irrefl _ hlt

/-- If no key occurs twice, every entry counts. -/
theorem mem_ofList {e : String × α} {es : List (String × α)} (hn : (es.map Prod.fst).Nodup)
    (h : e ∈ es) : e ∈ ofList es :=
  mem_of_get?_eq_some ((get?_ofList hn e.1).trans (get?_eq_some_of_mem hn h))

/-- Entries in order are told by what they hold under each key. -/
theorem Sorted.ext {es fs : List (String × α)} (he : Sorted es) (hf : Sorted fs)
    (h : ∀ k, get? k es = get? k fs) : es = fs := by
  have hmem : ∀ e, e ∈ es ↔ e ∈ fs := by
    rintro ⟨k, x⟩
    constructor
    · intro hx
      exact mem_of_get?_eq_some ((h k).symm.trans (get?_eq_some_of_mem he.nodup_keys hx))
    · intro hx
      exact mem_of_get?_eq_some ((h k).trans (get?_eq_some_of_mem hf.nodup_keys hx))
  have hperm : es.Perm fs :=
    (List.perm_ext_iff_of_nodup he.nodup_keys.of_map hf.nodup_keys.of_map).2 hmem
  exact hperm.eq_of_pairwise
    (fun _ _ _ _ hab hba => absurd (String.lt_trans hab hba) (String.lt_irrefl _)) he hf

/-- Entries in order are what putting them in order makes of them. -/
theorem ofList_of_sorted {es : List (String × α)} (h : Sorted es) : ofList es = es :=
  Sorted.ext (sorted_ofList es) h fun k => get?_ofList h.nodup_keys k

/-- If no key occurs twice, putting entries in order only rearranges them. -/
theorem ofList_perm {es : List (String × α)} (hn : (es.map Prod.fst).Nodup) :
    (ofList es).Perm es :=
  (List.perm_ext_iff_of_nodup (sorted_ofList es).nodup_keys.of_map hn.of_map).2 fun _ =>
    ⟨mem_of_mem_ofList, mem_ofList hn⟩

/-- A new key is put between others. -/
theorem exists_split_insert {k : String} {es : List (String × α)} (h : k ∉ es.map Prod.fst)
    (x : α) :
    ∃ fs gs, es = fs ++ gs ∧ insert k x es = fs ++ (k, x) :: gs := by
  induction es with
  | nil => exact ⟨[], [], rfl, rfl⟩
  | cons e es ih =>
    obtain ⟨hne, h⟩ : k ≠ e.1 ∧ k ∉ es.map Prod.fst := by simpa using h
    rw [insert_cons]
    split
    · exact ⟨[], e :: es, rfl, rfl⟩
    · split
      · obtain ⟨fs, gs, hes, hinsert⟩ := ih h
        exact ⟨e :: fs, gs, by rw [hes, List.cons_append], by rw [hinsert, List.cons_append]⟩
      · next hlt hgt => exact absurd (eq_of_not_lt hlt hgt) hne

/-- A key that occurs once is taken out from between others. -/
theorem exists_split_erase {k : String} {x : α} {es : List (String × α)}
    (hn : (es.map Prod.fst).Nodup) (h : get? k es = some x) :
    ∃ fs gs, es = fs ++ (k, x) :: gs ∧ erase k es = fs ++ gs := by
  obtain ⟨fs, gs, rfl⟩ := List.append_of_mem (mem_of_get?_eq_some h)
  refine ⟨fs, gs, rfl, ?_⟩
  rw [List.map_append, List.map_cons, List.nodup_middle, List.nodup_cons, ← List.map_append] at hn
  have hother : ∀ e ∈ fs ++ gs, (!e.1 == k) = true := by
    intro e he
    have hne : e.1 ≠ k := fun hk => hn.1 (List.mem_map.2 ⟨e, he, hk⟩)
    simpa using hne
  rw [← List.filter_eq_self.2 hother, erase, List.filter_append, List.filter_append,
    List.filter_cons_of_neg (by simp)]

theorem mem_erase {k : String} {e : String × α} {es : List (String × α)} :
    e ∈ erase k es ↔ e ∈ es ∧ e.1 ≠ k := by
  rw [erase, List.mem_filter]
  simp

theorem insert_map (g : String → α → β) (k : String) (x : α) (es : List (String × α)) :
    insert k (g k x) (es.map fun e => (e.1, g e.1 e.2)) =
      (insert k x es).map fun e => (e.1, g e.1 e.2) := by
  induction es with
  | nil => rfl
  | cons e es ih =>
    rw [List.map_cons, insert, insert, ih]
    split
    · rfl
    · split <;> rfl

/-- Values may be changed before the entries are put in order or afterwards. -/
theorem ofList_map (g : String → α → β) (es : List (String × α)) :
    ofList (es.map fun e => (e.1, g e.1 e.2)) = (ofList es).map fun e => (e.1, g e.1 e.2) := by
  have key : ∀ new es : List (String × α),
      insertMany (es.map fun e => (e.1, g e.1 e.2)) (new.map fun e => (e.1, g e.1 e.2)) =
        (insertMany es new).map fun e => (e.1, g e.1 e.2) := by
    intro new
    induction new with
    | nil => exact fun es => rfl
    | cons a new ih =>
      intro es
      change insertMany (insert a.1 (g a.1 a.2) _) _ = _
      rw [insert_map, ih]
      rfl
  exact key es []

end Entries

namespace Dict

theorem get?_overlay (d upper : Dict α) (k : String) :
    (d.overlay upper).get? k = (upper.get? k).or (d.get? k) :=
  Entries.get?_insertMany upper.sorted.nodup_keys k d.toList

theorem ofList_toList (d : Dict α) : ofList d.toList = d :=
  toList_injective (Entries.ofList_of_sorted d.sorted)

theorem overlay_empty (d : Dict α) : d.overlay ∅ = d := rfl

theorem empty_overlay (d : Dict α) : (∅ : Dict α).overlay d = d :=
  ofList_toList d

end Dict

namespace Listing

theorem put_of_not_mem {k : String} {x : α} {es : List (String × α)} (h : k ∉ keys es) :
    put k x es = es ++ [(k, x)] := by
  induction es with
  | nil => rfl
  | cons e es ih =>
    obtain ⟨hne, h⟩ : k ≠ e.1 ∧ k ∉ keys es := by simpa [keys] using h
    rw [put_cons, if_neg (Ne.symm hne), ih h]
    rfl

theorem keys_put_of_mem {k : String} {x : α} {es : List (String × α)} (h : k ∈ keys es) :
    keys (put k x es) = keys es := by
  induction es with
  | nil => cases h
  | cons e es ih =>
    simp only [keys, List.map_cons, List.mem_cons] at h ih ⊢
    rw [put_cons]
    split
    · next he => rw [List.map_cons, he]
    · next he => rw [List.map_cons, ih (h.resolve_left (Ne.symm he))]

theorem ofList_append_singleton (pairs : List (String × α)) (e : String × α) :
    ofList (pairs ++ [e]) = put e.1 e.2 (ofList pairs) := by
  rw [ofList, List.foldl_append]
  rfl

/-- Keys stand in the order in which they first came. -/
theorem keys_ofList (pairs : List (String × α)) :
    keys (ofList pairs) = (keys pairs).eraseDups := by
  induction pairs using List.reverseRecOn with
  | nil => rfl
  | append_singleton pairs e ih =>
    have hmem : e.1 ∈ keys (ofList pairs) ↔ e.1 ∈ keys pairs := by
      rw [ih, List.mem_eraseDups]
    have hkeys : ∀ es : List (String × α), keys (es ++ [e]) = keys es ++ [e.1] :=
      fun es => List.map_append
    rw [ofList_append_singleton, hkeys, List.eraseDups_append, ← ih]
    by_cases h : e.1 ∈ keys (ofList pairs)
    · rw [keys_put_of_mem h]
      simp [List.removeAll, hmem.1 h]
    · rw [put_of_not_mem h, hkeys]
      simp [List.removeAll, mt hmem.2 h, List.eraseDups_cons]

theorem nodup_keys_ofList (pairs : List (String × α)) : (keys (ofList pairs)).Nodup := by
  rw [keys_ofList]
  exact nodup_eraseDups _

theorem get?_cons (k : String) (e : String × α) (es : List (String × α)) :
    get? k (e :: es) = if e.1 = k then some e.2 else get? k es :=
  Entries.get?_cons k e es

/-- Of several values for one key the last one counts. -/
theorem get?_ofList (k : String) (pairs : List (String × α)) :
    get? k (ofList pairs) = get? k pairs.reverse := by
  induction pairs using List.reverseRecOn with
  | nil => rfl
  | append_singleton pairs e ih =>
    rw [ofList_append_singleton, List.reverse_append, List.reverse_singleton,
      List.singleton_append, get?_cons]
    by_cases h : e.1 = k
    · rw [if_pos h, h, get?_put_self]
    · rw [if_neg h, get?_put_of_ne (Ne.symm h), ih]

/-- Pairs without a key twice are their own listing. -/
theorem ofList_of_nodup {pairs : List (String × α)} (h : (keys pairs).Nodup) :
    ofList pairs = pairs := by
  induction pairs using List.reverseRecOn with
  | nil => rfl
  | append_singleton pairs e ih =>
    rw [keys, List.map_append] at h
    obtain ⟨hpairs, -, hlast⟩ := List.nodup_append.1 h
    have hmem : e.1 ∉ keys pairs := fun hmem =>
      hlast e.1 hmem e.1 (List.mem_singleton_self e.1) rfl
    rw [ofList_append_singleton, ih hpairs, put_of_not_mem hmem]

theorem mem_put {k : String} {x : α} {e : String × α} {es : List (String × α)}
    (h : e ∈ put k x es) : e = (k, x) ∨ e ∈ es := by
  induction es with
  | nil => simpa [put_nil] using h
  | cons a es ih =>
    rw [put_cons] at h
    split at h
    · rcases List.mem_cons.1 h with h | h <;> simp [h]
    · rcases List.mem_cons.1 h with h | h
      · simp [h]
      · rcases ih h with h | h <;> simp [h]

theorem mem_of_mem_ofList {e : String × α} {pairs : List (String × α)} (h : e ∈ ofList pairs) :
    e ∈ pairs := by
  induction pairs using List.reverseRecOn with
  | nil => exact h
  | append_singleton pairs a ih =>
    rw [ofList_append_singleton] at h
    rcases mem_put h with rfl | h
    · simp
    · exact List.mem_append_left _ (ih h)

/-! ### Pairs of those that have a value -/

section FilterMap

variable {γ : Type} {name : γ → String} {value : γ → Option α}

theorem keys_filterMap_sublist (name : γ → String) (value : γ → Option α) (l : List γ) :
    (keys (l.filterMap fun p => (value p).map (name p, ·))).Sublist (l.map name) := by
  induction l with
  | nil => exact .slnil
  | cons p l ih =>
    rw [List.filterMap_cons, List.map_cons]
    cases value p with
    | none => exact ih.cons _
    | some x => exact ih.cons_cons _

/-- Those that have different names are found with their values. -/
theorem get?_filterMap {l : List γ} (hn : (l.map name).Nodup) {p : γ} (hp : p ∈ l) :
    Entries.get? (name p) (l.filterMap fun p => (value p).map (name p, ·)) = value p := by
  induction l with
  | nil => cases hp
  | cons q l ih =>
    obtain ⟨hq, hn⟩ := List.nodup_cons.1 hn
    rw [List.filterMap_cons]
    rcases List.mem_cons.1 hp with rfl | hp
    · cases value p with
      | none =>
        -- No other one has the name.
        refine Entries.get?_eq_none_iff.2 fun hmem => hq ?_
        exact (keys_filterMap_sublist name value l).subset hmem
      | some x =>
        rw [Option.map_some]
        simp [Entries.get?_cons]
    · have hne : name q ≠ name p := by
        intro he
        exact hq (he ▸ List.mem_map_of_mem hp)
      cases value q with
      | none => exact ih hn hp
      | some x =>
        rw [Option.map_some]
        simpa [Entries.get?_cons, hne] using ih hn hp

end FilterMap

end Listing

end VersionedModel
