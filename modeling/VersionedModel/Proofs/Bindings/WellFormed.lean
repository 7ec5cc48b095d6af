import Mathlib.Data.List.Nodup
import VersionedModel.Bindings
import VersionedModel.Proofs.Outcome

/-!
# Well-formed binding tables

In a table that `bind` and `bindAlias` have made no name is bound twice, the primaries own the slots
in order, and every alias forwards to a primary (`Bindings.WellFormed`). Hence every bound name
resolves to a primary (`WellFormed.resolve?_isSome`), a primary's own name resolves to itself
(`WellFormed.resolve?_name`), and different primaries own different slots
(`WellFormed.eq_of_slot_eq`).
-/

namespace VersionedModel

namespace Bindings

variable {γ : Type} {table table' : List (Binding γ)}

/-- No name is bound twice, slots are numbered in order, and aliases forward to primaries. -/
structure WellFormed (table : List (Binding γ)) : Prop where
  /-- Names are different. -/
  nodup : (table.map Binding.name).Nodup
  /-- Slots are numbered in order. -/
  slots : (primaries table).map Primary.slot = List.range (primaries table).length
  /-- Aliases forward to primaries. -/
  aliases : ∀ name target, .aliasOf name target ∈ table → ∃ p ∈ primaries table, p.name = target

/-! ### Primaries -/

theorem mem_primaries {p : Primary γ} :
    p ∈ primaries table ↔ .primary p.name p.slot p.target ∈ table := by
  induction table with
  | nil => simp [primaries]
  | cons b table ih =>
    cases b with
    | primary name slot target =>
      obtain ⟨n, i, c⟩ := p
      simp [primaries, ih]
    | aliasOf name target => simp [primaries, ih]

theorem primaries_append : primaries (table ++ table') = primaries table ++ primaries table' := by
  induction table with
  | nil => rfl
  | cons b table ih => cases b <;> simp [primaries, ih]

/-- An alias owns no slot. -/
theorem primaries_snoc_aliasOf (table : List (Binding γ)) (name target : String) :
    primaries (table ++ [.aliasOf name target]) = primaries table := by
  rw [primaries_append]
  exact List.append_nil _

theorem map_name_primaries_sublist :
    ((primaries table).map Primary.name).Sublist (table.map Binding.name) := by
  induction table with
  | nil => exact .slnil
  | cons b table ih =>
    cases b with
    | primary name slot target => exact ih.cons_cons name
    | aliasOf name target => exact ih.cons name

/-! ### Looking names up -/

theorem mem_of_find?_eq_some {name : String} {b : Binding γ} (h : find? table name = some b) :
    b ∈ table ∧ b.name = name :=
  ⟨List.mem_of_find?_eq_some h, by simpa using List.find?_some h⟩

theorem contains_iff {name : String} :
    contains table name = true ↔ name ∈ table.map Binding.name := by
  simp [contains, find?]

/-- A name that is not bound does not lead anywhere. -/
theorem resolve?_of_not_contains {name : String}
    (h : ¬contains table name = true) : resolve? table name = none := by
  rw [contains, Option.not_isSome_iff_eq_none] at h
  rw [resolve?, h]

theorem contains_name {p : Primary γ} (hp : p ∈ primaries table) :
    contains table p.name = true :=
  contains_iff.2 (map_name_primaries_sublist.subset (List.mem_map_of_mem hp))

theorem mem_primaries_of_resolve? {name : String} {p : Primary γ}
    (h : resolve? table name = some p) : p ∈ primaries table := by
  rw [resolve?] at h
  split at h
  · next hf =>
    cases h
    exact mem_primaries.2 (mem_of_find?_eq_some hf).1
  · split at h
    · next hf =>
      cases h
      exact mem_primaries.2 (mem_of_find?_eq_some hf).1
    · cases h
  · cases h

namespace WellFormed

theorem find?_name (h : WellFormed table) {b : Binding γ} (hb : b ∈ table) :
    find? table b.name = some b := by
  have hn := h.nodup
  clear h
  induction table with
  | nil => cases hb
  | cons a table ih =>
    rw [List.map_cons, List.nodup_cons] at hn
    rcases List.mem_cons.1 hb with rfl | hb
    · simp [find?]
    · have hne : a.name ≠ b.name := fun he => hn.1 (he ▸ List.mem_map_of_mem hb)
      simpa [find?, List.find?_cons, hne] using ih hb hn.2

/-- A primary's own name resolves to it. -/
theorem resolve?_name (h : WellFormed table) {p : Primary γ} (hp : p ∈ primaries table) :
    resolve? table p.name = some p := by
  have := h.find?_name (mem_primaries.1 hp)
  simp only [Binding.name] at this
  rw [resolve?, this]

/-- An alias leads to its primary. -/
theorem resolve?_alias (h : WellFormed table) {p : Primary γ}
    (hp : p ∈ primaries table) {a : String} (ha : .aliasOf a p.name ∈ table) :
    resolve? table a = some p := by
  have hf := h.find?_name ha
  have hf' := h.find?_name (mem_primaries.1 hp)
  simp only [Binding.name] at hf hf'
  rw [resolve?, hf]
  dsimp only
  rw [hf']

/-- Whatever is bound resolves to a primary. -/
theorem resolve?_isSome (h : WellFormed table) {name : String}
    (hc : contains table name = true) : (resolve? table name).isSome := by
  obtain ⟨b, hb, rfl⟩ := List.mem_map.1 (contains_iff.1 hc)
  cases b with
  | primary name slot target =>
    have hp : (⟨name, slot, target⟩ : Primary γ) ∈ primaries table := mem_primaries.2 hb
    have := h.resolve?_name hp
    simp only [Binding.name] at this ⊢
    rw [this]
    rfl
  | aliasOf name target =>
    obtain ⟨p, hp, rfl⟩ := h.aliases name target hb
    simp only [Binding.name]
    rw [h.resolve?_alias hp hb]
    rfl

/-- No primary has the name of an alias. -/
theorem ne_of_alias (h : WellFormed table) {p : Primary γ} (hp : p ∈ primaries table)
    {a target : String} (ha : .aliasOf a target ∈ table) : p.name ≠ a := by
  rintro rfl
  have hf := h.find?_name ha
  have hf' := h.find?_name (mem_primaries.1 hp)
  simp only [Binding.name] at hf hf'
  rw [hf] at hf'
  cases hf'

theorem nodup_names (h : WellFormed table) : ((primaries table).map Primary.name).Nodup :=
  h.nodup.sublist map_name_primaries_sublist

theorem nodup_slots (h : WellFormed table) : ((primaries table).map Primary.slot).Nodup := by
  rw [h.slots]
  exact List.nodup_range

theorem eq_of_name_eq (h : WellFormed table) {p q : Primary γ} (hp : p ∈ primaries table)
    (hq : q ∈ primaries table) (he : p.name = q.name) : p = q :=
  List.inj_on_of_nodup_map h.nodup_names hp hq he

/-- Different primaries own different slots. -/
theorem eq_of_slot_eq (h : WellFormed table) {p q : Primary γ} (hp : p ∈ primaries table)
    (hq : q ∈ primaries table) (he : p.slot = q.slot) : p = q :=
  List.inj_on_of_nodup_map h.nodup_slots hp hq he

theorem slot_lt (h : WellFormed table) {p : Primary γ} (hp : p ∈ primaries table) :
    p.slot < (primaries table).length := by
  have : p.slot ∈ (primaries table).map Primary.slot := List.mem_map_of_mem hp
  rw [h.slots] at this
  exact List.mem_range.1 this

/-- A primary stands among the primaries where its slot says. -/
theorem getElem?_slot (h : WellFormed table) {p : Primary γ} (hp : p ∈ primaries table) :
    (primaries table)[p.slot]? = some p := by
  obtain ⟨j, hj⟩ := List.mem_iff_getElem?.1 hp
  have hlt := (List.getElem?_eq_some_iff.1 hj).1
  have hslot : ((primaries table).map Primary.slot)[j]? = some p.slot := by
    rw [List.getElem?_map, hj, Option.map_some]
  rw [h.slots, List.getElem?_range hlt] at hslot
  rw [← Option.some.inj hslot, hj]

/-! ### Tables that are made -/

theorem nil : WellFormed ([] : List (Binding γ)) :=
  ⟨List.nodup_nil, rfl, fun _ _ h => by cases h⟩

theorem nodup_append (h : WellFormed table) {b : Binding γ}
    (hb : ¬contains table b.name = true) : ((table ++ [b]).map Binding.name).Nodup := by
  rw [contains_iff] at hb
  rw [List.map_append]
  exact h.nodup.append (List.nodup_singleton _) (by simpa using hb)

theorem bind (h : WellFormed table) {name : String} {target : γ}
    (hb : Bindings.bind table name target = .ok table') :
    WellFormed table' ∧
      primaries table' = primaries table ++ [⟨name, slotCount table, target⟩] := by
  rw [Bindings.bind] at hb
  split at hb
  · cases hb
  · next hc =>
    cases hb
    have hp : primaries (table ++ [.primary name (slotCount table) target]) =
        primaries table ++ [⟨name, slotCount table, target⟩] := primaries_append
    refine ⟨⟨?_, ?_, fun n t hmem => ?_⟩, hp⟩
    · exact h.nodup_append hc
    · rw [hp, List.map_append, h.slots, List.length_append, List.length_singleton,
        List.range_succ]
      rfl
    · rw [hp]
      rcases List.mem_append.1 hmem with hmem | hmem
      · obtain ⟨p, hp, ht⟩ := h.aliases n t hmem
        exact ⟨p, List.mem_append_left _ hp, ht⟩
      · cases List.mem_singleton.1 hmem

end WellFormed

theorem exists_primary_of_follow {name target current primary : String} {visited : List String}
    {steps : Nat} (h : follow table name target visited current steps = .ok primary) :
    ∃ p ∈ primaries table, p.name = primary := by
  induction steps generalizing visited current with
  | zero => cases h
  | succ steps ih =>
    rw [follow] at h
    split at h
    · cases h
    · split at h
      · next hf =>
        cases h
        exact ⟨⟨_, _, _⟩, mem_primaries.2 (mem_of_find?_eq_some hf).1, rfl⟩
      · exact ih h
      · cases h

theorem WellFormed.bindAlias (h : WellFormed table) {name target : String}
    (hb : Bindings.bindAlias table name target = .ok table') :
    WellFormed table' ∧ primaries table' = primaries table := by
  obtain ⟨primary, hf, hb⟩ := Outcome.bind_eq_ok.1 hb
  split at hb
  · cases hb
  · next hc =>
    cases hb
    have hp := primaries_snoc_aliasOf table name primary
    refine ⟨⟨?_, by rw [hp]; exact h.slots, fun n t hmem => ?_⟩, hp⟩
    · exact h.nodup_append hc
    · rw [hp]
      rcases List.mem_append.1 hmem with hmem | hmem
      · exact h.aliases n t hmem
      · cases List.mem_singleton.1 hmem
        exact exists_primary_of_follow hf

end Bindings

end VersionedModel
