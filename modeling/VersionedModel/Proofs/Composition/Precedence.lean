import VersionedModel.Proofs.Composition.Prerequisites
import VersionedModel.Proofs.Composition.RunOrder

/-!
# Prerequisites before their dependents

A composition asks for prerequisites by name, in the capability of the dependent feature and in
those before it. Where a prerequisite stands in the table is another matter: names stand where they
first came up, so the features of another name all stand before a dependent one or all behind it
(`Composition.precedes_iff`), and features that need their own name have an older layer before them
or have not. So a dependent feature runs behind its prerequisite exactly if the names came up in
that order (`Composition.InTime`, `Composition.provided_of_compose`).
-/

namespace VersionedModel

namespace Composition

open Contribution (Before)

variable {c : Composition}

/-! ### Earlier and later in the table -/

variable (c) in
/-- Both contributions are in the table, the one before the other. -/
def Precedes (x y : Contribution) : Prop :=
  [x, y].Sublist c.arranged

variable {x y : Contribution}

/-- Of two values in a list, one stands before the other. -/
theorem pair_sublist_or {α : Type} {l : List α} {a b : α} (ha : a ∈ l) (hb : b ∈ l)
    (hne : a ≠ b) : [a, b].Sublist l ∨ [b, a].Sublist l := by
  obtain ⟨before, behind, rfl⟩ := List.append_of_mem ha
  rcases List.mem_append.1 hb with hb | hb
  · exact .inr ((List.singleton_sublist.2 hb).append (List.singleton_sublist.2 List.mem_cons_self))
  · have hb := (List.mem_cons.1 hb).resolve_left (Ne.symm hne)
    exact .inl ((List.singleton_sublist.2 hb).cons_cons a |>.trans (List.sublist_append_right ..))

/-- **One contribution precedes another exactly if its name came up first**, or they have one name
and it was contributed first. -/
theorem precedes_iff (hx : c.Holds x) (hy : c.Holds y) :
    c.Precedes x y ↔
      c.firstPlace x.feature.name < c.firstPlace y.feature.name ∨
        x.feature.name = y.feature.name ∧ x.Before y := by
  have key : ∀ {x y}, c.Precedes x y →
      c.firstPlace x.feature.name < c.firstPlace y.feature.name ∨
        x.feature.name = y.feature.name ∧ x.Before y := fun h =>
    (List.pairwise_cons.1 (pairwise_arranged.sublist h)).1 _ List.mem_cons_self
  refine ⟨key, fun h => ?_⟩
  have hne : x ≠ y := by
    rintro rfl
    exact h.elim (Nat.lt_irrefl _) fun h => h.2.ne rfl
  rcases pair_sublist_or (mem_arranged.2 hx) (mem_arranged.2 hy) hne with hxy | hyx
  · exact hxy
  · -- The other way round the table would be out of order.
    rcases key hyx with hlt | ⟨hname, hbefore⟩
    · rcases h with h | ⟨hname, -⟩
      · exact absurd h (Nat.lt_asymm hlt)
      · exact absurd hlt (hname ▸ Nat.lt_irrefl _)
    · rcases h with h | ⟨-, h⟩
      · exact absurd h (hname ▸ Nat.lt_irrefl _)
      · exact absurd h (Before.asymm _ _ hbefore)

theorem Precedes.holds (h : c.Precedes x y) : c.Holds x ∧ c.Holds y :=
  ⟨mem_arranged.1 (h.subset List.mem_cons_self),
    mem_arranged.1 (h.subset (List.mem_cons_of_mem _ List.mem_cons_self))⟩

/-- What precedes in the table runs first. -/
theorem Precedes.sublist_filter (h : c.Precedes x y)
    (htable : c.arranged.map Contribution.feature = c.table.features) {goes : Feature → Bool}
    (hx : goes x.feature = true) (hy : goes y.feature = true) :
    [x.feature, y.feature].Sublist (c.table.features.filter goes) := by
  have hboth := (h.map Contribution.feature).filter goes
  rw [htable] at hboth
  simpa [hx, hy] using hboth

/-! ### Names that came up in time -/

/-- Something of every contributed name is in the table. -/
theorem exists_holds_of_mem (hy : y ∈ c.contributions) :
    ∃ z, c.Holds z ∧ z.feature.name = y.feature.name := by
  have hne : c.layersOf y.feature.name ≠ [] := by
    rw [layersOf, Ne, FeatureTable.layered_eq_nil_iff]
    exact List.ne_nil_of_mem (List.mem_filter.2 ⟨hy, beq_self_eq_true _⟩)
  obtain ⟨z, hz⟩ := List.exists_mem_of_ne_nil _ hne
  exact ⟨z, mem_layersOf.1 hz⟩

/-- What does not override leaves an older layer of its name in the table. -/
theorem exists_precedes_of_before (hx : c.Holds x) (hover : x.feature.overriding = false)
    (hy : y ∈ c.contributions) (hbefore : y.Before x) (hname : y.feature.name = x.feature.name) :
    ∃ z, c.Precedes z x ∧ z.feature.name = x.feature.name := by
  have hmem : ∀ z ∈ c.contributions, z.feature.name = x.feature.name →
      z ∈ c.contributions.filter fun z => z.feature.name == x.feature.name :=
    fun z hz hname => List.mem_filter.2 ⟨hz, by simpa using hname⟩
  obtain ⟨older, newer, hsplit⟩ := List.append_of_mem (hmem x hx.1 rfl)
  have hsorted := c.pairwise_contributions.filter fun z => z.feature.name == x.feature.name
  rw [hsplit, List.pairwise_append, List.pairwise_cons] at hsorted
  obtain ⟨-, ⟨hnewer, -⟩, hcross⟩ := hsorted
  -- Neither the contribution itself nor a newer one of its name overrides.
  have hplain : ∀ z ∈ x :: newer, z.feature.overriding = false := by
    refine List.forall_mem_cons.2 ⟨hover, fun z hz => ?_⟩
    have hz' : z ∈ c.contributions.filter fun z => z.feature.name == x.feature.name := by
      simp [hsplit, hz]
    obtain ⟨hzmem, hzname⟩ := List.mem_filter.1 hz'
    exact hx.2 z hzmem (hnewer z hz) (by simpa using hzname)
  have hlayers : c.layersOf x.feature.name =
      FeatureTable.layered Contribution.feature older ++ x :: newer := by
    rw [layersOf, hsplit, FeatureTable.layered, List.foldl_append,
      FeatureTable.foldl_onTop_of_plain _ _ hplain]
    rfl
  have hy : y ∈ older := by
    have hy := hmem y hy hname
    rw [hsplit, List.mem_append, List.mem_cons] at hy
    rcases hy with hy | rfl | hy
    · exact hy
    · exact absurd rfl hbefore.ne
    · exact absurd (hnewer y hy) (Before.asymm _ _ hbefore)
  obtain ⟨z, hz⟩ := List.exists_mem_of_ne_nil _
    (mt (FeatureTable.layered_eq_nil_iff Contribution.feature).1 (List.ne_nil_of_mem hy))
  obtain ⟨hzholds, hzname⟩ := mem_layersOf.1 (hlayers ▸ List.mem_append_left _ hz)
  have hzx := hcross z ((FeatureTable.layered_sublist _ _).subset hz) x List.mem_cons_self
  exact ⟨z, (precedes_iff hzholds hx).2 (.inr ⟨hzname, hzx⟩), hzname⟩

variable (c) in
/-- The name that a contribution requires came up in time: before the contribution's own name, or,
if it is this name, with a layer that the contribution does not override. -/
def InTime (x : Contribution) (required : String) : Prop :=
  if required = x.feature.name then
    x.feature.overriding = false ∧
      ∃ y ∈ c.contributions, y.Before x ∧ y.feature.name = required
  else c.firstPlace required < c.firstPlace x.feature.name

/-- Something of a contributed name precedes a contribution in the table exactly if the name came up
in time. -/
theorem exists_precedes_iff (hx : c.Holds x) {required : String} (hy : y ∈ c.contributions)
    (hrequired : y.feature.name = required) :
    (∃ z, c.Precedes z x ∧ z.feature.name = required) ↔ c.InTime x required := by
  rw [InTime]
  split
  · next hself =>
    constructor
    · rintro ⟨z, hz, hname⟩
      have hholds := hz.holds.1
      rcases (precedes_iff hholds hx).1 hz with hlt | ⟨hsame, hbefore⟩
      · rw [hname, hself] at hlt
        exact absurd hlt (Nat.lt_irrefl _)
      · exact ⟨hholds.2 x hx.1 hbefore hsame.symm, z, hholds.1, hbefore, hname⟩
    · rintro ⟨hover, z, hz, hbefore, hname⟩
      rw [hself] at hname ⊢
      exact exists_precedes_of_before hx hover hz hbefore hname
  · next hother =>
    constructor
    · rintro ⟨z, hz, rfl⟩
      exact ((precedes_iff hz.holds.1 hx).1 hz).resolve_right fun h => hother h.1
    · intro hlt
      obtain ⟨z, hz, hname⟩ := exists_holds_of_mem hy
      rw [hrequired] at hname
      exact ⟨z, (precedes_iff hz hx).2 (.inl (hname ▸ hlt)), hname⟩

/-! ### What a composition asks for -/

theorem mem_contributions :
    x ∈ c.contributions ↔ ∃ p, c.order[x.capability]? = some p ∧
      p.table.features[x.place]? = some x.feature := by
  simp only [contributions, List.mem_flatMap, List.mem_map, List.mem_zipIdx_iff_getElem?]
  constructor
  · rintro ⟨⟨p, i⟩, hp, ⟨f, j⟩, hf, rfl⟩
    exact ⟨p, hp, hf⟩
  · rintro ⟨p, hp, hf⟩
    exact ⟨(p, x.capability), hp, (x.feature, x.place), hf, rfl⟩

open CapabilityDeclaration (inOrder capability)

variable {ds : List CapabilityDeclaration} {codec : String} {names : List String}

/-- What a declared capability contributes comes from its enabled features, and has all their
names. -/
theorem exists_contribution (h : compose (Registry.ofDeclarations ds) codec names = .ok c)
    {i : Nat} {d : CapabilityDeclaration} (hd : (inOrder ds names)[i]? = some d) {f : Feature}
    (hf : f ∈ d.enabled) : ∃ y ∈ c.contributions, y.feature.name = f.name ∧ y.capability = i := by
  rw [compose_ofDeclarations] at h
  obtain ⟨t, -, rfl⟩ := Outcome.map_eq_ok.1 h
  have hname : f.name ∈ (FeatureTable.empty.insertAll d.contributed).names := by
    rw [FeatureTable.names_insertAll_empty, List.mem_eraseDups]
    exact List.mem_map_of_mem (d.mem_contributed.2 hf)
  obtain ⟨g, hg, hgname⟩ :=
    (FeatureTable.wellFormed_insertAll_empty d.contributed).exists_mem_features _ hname
  obtain ⟨j, hj⟩ := List.mem_iff_getElem?.1 hg
  exact ⟨⟨i, j, g⟩, mem_contributions.2 ⟨d.capability, by simp [hd], hj⟩, hgname, rfl⟩

/-- A composition has found every prerequisite in the same capability or in an earlier one. -/
theorem exists_prerequisite (h : compose (Registry.ofDeclarations ds) codec names = .ok c)
    (hx : x ∈ c.contributions) {required : String}
    (hrequires : x.feature.requires = some required) :
    ∃ y ∈ c.contributions, y.feature.name = required ∧ y.capability ≤ x.capability := by
  have hcomposed := h
  rw [compose_ofDeclarations] at h
  obtain ⟨t, ht, rfl⟩ := Outcome.map_eq_ok.1 h
  obtain ⟨p, hp, hf⟩ := mem_contributions.1 hx
  rw [List.getElem?_map, Option.map_eq_some_iff] at hp
  obtain ⟨d, hd, rfl⟩ := hp
  have hdependent : x.feature ∈ d.dependents := by
    have hmem := FeatureTable.mem_of_mem_features (List.mem_of_getElem? hf)
    refine List.mem_filter.2 ⟨d.mem_contributed.1 hmem, ?_⟩
    rw [Feature.isDependent, hrequires]
    rfl
  obtain ⟨k, hk⟩ := List.mem_iff_getElem?.1 hdependent
  have hdeclared : Declared ((inOrder ds names).take (x.capability + 1)) required := by
    by_contra hmissing
    exact (foldlM_layer_eq_ok.1 ht).1 _ k x.feature required ⟨⟨d, hd, hk⟩, hrequires, hmissing⟩
  obtain ⟨e, he, g, hg, hname⟩ := hdeclared
  obtain ⟨i, hi⟩ := List.mem_iff_getElem?.1 he
  rw [List.getElem?_take] at hi
  split at hi
  · next hle =>
    obtain ⟨y, hy, hyname, rfl⟩ := exists_contribution hcomposed hi hg
    exact ⟨y, hy, hyname.trans hname, Nat.le_of_lt_succ hle⟩
  · cases hi

variable (c) in
/-- What a contribution in the table finds of the feature that it requires. -/
structure Provided (x : Contribution) (required : String) : Prop where
  /-- Its own capability or an earlier one has contributed it. -/
  contributed : ∃ y ∈ c.contributions, y.feature.name = required ∧ y.capability ≤ x.capability
  /-- It is in the table. -/
  held : ∃ y ∈ c.arranged, y.feature.name = required
  /-- It precedes exactly if its name came up in time. -/
  precedes_iff : (∃ y, c.Precedes y x ∧ y.feature.name = required) ↔ c.InTime x required
  /-- What precedes runs first where both go before one operation. -/
  runs_before : ∀ y operation, c.Precedes y x → y.feature.before = some operation →
    x.feature.before = some operation → [y.feature, x.feature].Sublist (c.hooksBefore operation)
  /-- So it does where both go after one. -/
  runs_after : ∀ y operation, c.Precedes y x → y.feature.after = some operation →
    x.feature.after = some operation → [y.feature, x.feature].Sublist (c.hooksAfter operation)

/-- **Where prerequisites stand.** A dependent feature in the table of a composition has its
prerequisite there, from its own capability or an earlier one, and stands behind it exactly if the
prerequisite's name came up in time. -/
theorem provided_of_compose (h : compose (Registry.ofDeclarations ds) codec names = .ok c) :
    c.arranged.map Contribution.feature = c.table.features ∧ c.arranged.Nodup ∧
      ∀ x ∈ c.arranged, ∀ required, x.feature.requires = some required →
        c.Provided x required := by
  have htable := map_feature_arranged h
  refine ⟨htable, nodup_arranged, fun x hx required hrequires => ?_⟩
  have hholds := mem_arranged.1 hx
  obtain ⟨y, hy, hname, hle⟩ := exists_prerequisite h hholds.1 hrequires
  obtain ⟨z, hz, hzname⟩ := exists_holds_of_mem hy
  refine ⟨⟨y, hy, hname, hle⟩, ⟨z, mem_arranged.2 hz, hzname.trans hname⟩,
    exists_precedes_iff hholds hy hname, fun y operation hyx hbefore hbefore' => ?_,
    fun y operation hyx hafter hafter' => ?_⟩
  · exact hyx.sublist_filter htable (by simpa using hbefore) (by simpa using hbefore')
  · exact hyx.sublist_filter htable (by simpa using hafter) (by simpa using hafter')

end Composition

/-! ### A chain of prerequisites -/

namespace Composition.Sample

open CapabilityDeclaration (capability contributed)

/-- A hook that goes before values are turned into payloads, and needs another feature. -/
def hookAfter (name required : String) : Feature :=
  { hookBefore name 0 with requires := some required }

/-- Whoever seals has to sign, and whoever signs has to pack; the seal is declared first. -/
def parcelHooks : List CapabilityDeclaration :=
  [⟨"parcel", [hookAfter "seal" "sign", hookAfter "sign" "pack", hookBefore "pack" 0]⟩]

/-- The features of a codec that does all of it. -/
def parcelCodec : Composition :=
  ⟨"codec", parcelHooks.map capability, .insertAll .empty (parcelHooks.flatMap contributed)⟩

theorem compose_parcel :
    compose (Registry.ofDeclarations parcelHooks) "codec" ["parcel"] = .ok parcelCodec := rfl

end Composition.Sample

namespace Composition

open Sample (hookBefore hookAfter parcelHooks parcelCodec compose_parcel)

/-- The parcel is packed before it is signed. -/
theorem provided_of_compose_parcel :
    compose (Registry.ofDeclarations parcelHooks) "codec" ["parcel"] = .ok parcelCodec ∧
      ⟨0, 2, hookAfter "sign" "pack"⟩ ∈ parcelCodec.arranged ∧
      (hookAfter "sign" "pack").requires = some "pack" ∧
      ∃ y, parcelCodec.Precedes y ⟨0, 2, hookAfter "sign" "pack"⟩ ∧ y.feature.name = "pack" := by
  have hmem : ⟨0, 2, hookAfter "sign" "pack"⟩ ∈ parcelCodec.arranged :=
    List.mem_of_getElem? (i := 2) rfl
  refine ⟨compose_parcel, hmem, rfl, ?_⟩
  refine ((provided_of_compose compose_parcel).2.2 _ hmem "pack" rfl).precedes_iff.2 ?_
  have hpack : parcelCodec.firstPlace "pack" = 0 := rfl
  have hsign : parcelCodec.firstPlace "sign" = 2 := rfl
  rw [InTime, if_neg (by decide), hpack]
  exact hsign ▸ Nat.two_pos

/-- But it is sealed before that. -/
theorem not_precedes_of_compose_parcel :
    compose (Registry.ofDeclarations parcelHooks) "codec" ["parcel"] = .ok parcelCodec ∧
      parcelCodec.table.features =
        [hookBefore "pack" 0, hookAfter "seal" "sign", hookAfter "sign" "pack"] ∧
      parcelCodec.hooksBefore dumpOperation = parcelCodec.table.features ∧
      (hookAfter "seal" "sign").requires = some "sign" ∧
      ¬∃ i < 1, ∃ g, parcelCodec.table.features[i]? = some g ∧ g.name = "sign" := by
  refine ⟨compose_parcel, rfl, rfl, rfl, ?_⟩
  rintro ⟨i, hi, g, hg, hname⟩
  obtain rfl := Nat.lt_one_iff.1 hi
  cases hg
  revert hname
  decide

end Composition

end VersionedModel
