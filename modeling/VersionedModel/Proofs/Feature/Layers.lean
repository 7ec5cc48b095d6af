import Mathlib.Data.List.Induction
import Mathlib.Data.List.Nodup
import VersionedModel.Feature.Table
import VersionedModel.Proofs.FirstAppearance

/-!
# What a feature table holds

A table that features were put into has their names in the order in which they first came
(`FeatureTable.names_insertAll`), and the layers of a name are what `FeatureTable.layered` makes of
the features of that name, one after the other (`FeatureTable.layers_insertAll`): the last
overriding one and what came behind it (`layered_append_cons`), or all of them if none overrides
(`layered_of_plain`). So no name that has come is lost (`FeatureTable.layers_of_history`). A table is
told by its names and layers (`FeatureTable.ext`).

Hence nothing changes when features go through a table of their own on the way
(`FeatureTable.insertAll_features`): what such a table has dropped would be dropped later, by the
same overriding feature.
-/

namespace VersionedModel

theorem flatMap_ite_eq {α β : Type} [DecidableEq α] {l : List α} (hl : l.Nodup) (a : α)
    (bs : List β) :
    (l.flatMap fun b => if b = a then bs else []) = if a ∈ l then bs else [] := by
  induction l with
  | nil => rfl
  | cons b l ih =>
    obtain ⟨hb, hl⟩ := List.nodup_cons.1 hl
    rw [List.flatMap_cons, ih hl]
    by_cases hab : b = a
    · subst hab
      simp [hb]
    · simp [hab, Ne.symm hab]

namespace FeatureTable

/-! ### Layers -/

section Layered

variable {α : Type} (feature : α → Feature)

/-- Put something that stands for a feature on the layers of its name. -/
def onTop (layers : List α) (x : α) : List α :=
  if (feature x).overriding then [x] else layers ++ [x]

variable {feature} in
theorem mem_onTop {layers : List α} {x a : α} :
    x ∈ onTop feature layers a ↔ x = a ∨ x ∈ layers ∧ (feature a).overriding = false := by
  rw [onTop]
  split
  · next ha => simp [ha]
  · next ha => simp [ha, or_comm]

/-- The layers that features of one name form, one put on the other. -/
def layered (xs : List α) : List α :=
  xs.foldl (onTop feature) []

theorem layered_append_singleton (xs : List α) (x : α) :
    layered feature (xs ++ [x]) = onTop feature (layered feature xs) x := by
  rw [layered, List.foldl_append]
  rfl

theorem layered_sublist (xs : List α) : (layered feature xs).Sublist xs := by
  induction xs using List.reverseRecOn with
  | nil => exact .slnil
  | append_singleton xs x ih =>
    rw [layered_append_singleton, onTop]
    split
    · exact List.sublist_append_right xs [x]
    · exact ih.append_right [x]

/-- The layers are the features that no later one overrides. -/
theorem mem_layered {R : α → α → Prop} (hasymm : ∀ a b, R a b → ¬R b a) {xs : List α}
    (hxs : xs.Pairwise R) {x : α} :
    x ∈ layered feature xs ↔ x ∈ xs ∧ ∀ y ∈ xs, R x y → (feature y).overriding = false := by
  induction xs using List.reverseRecOn with
  | nil => exact ⟨nofun, fun h => nomatch h.1⟩
  | append_singleton xs a ih =>
    obtain ⟨hxs, -, hlast⟩ := List.pairwise_append.1 hxs
    have hlast : ∀ y ∈ xs, R y a := fun y hy => hlast y hy a (List.mem_singleton_self a)
    -- Nothing stands behind the last one.
    have hnone : ∀ y ∈ xs ++ [a], ¬R a y := by
      intro y hy hay
      rcases List.mem_append.1 hy with hy | hy
      · exact hasymm y a (hlast y hy) hay
      · exact hasymm a y hay (List.mem_singleton.1 hy ▸ hay)
    have hself : ∀ y ∈ xs ++ [a], R a y → (feature y).overriding = false :=
      fun y hy hay => absurd hay (hnone y hy)
    rw [layered_append_singleton, mem_onTop, ih hxs]
    constructor
    · rintro (rfl | ⟨⟨hx, hover⟩, ha⟩)
      · exact ⟨by simp, hself⟩
      · refine ⟨List.mem_append_left _ hx, List.forall_mem_append.2 ⟨hover, ?_⟩⟩
        exact List.forall_mem_singleton.2 fun _ => ha
    · rintro ⟨hx, hover⟩
      obtain ⟨hover, ha⟩ := List.forall_mem_append.1 hover
      rcases List.mem_append.1 hx with hx | hx
      · exact .inr ⟨⟨hx, hover⟩, ha a (List.mem_singleton_self a) (hlast x hx)⟩
      · exact .inl (List.mem_singleton.1 hx)

/-- Whatever stands for features, their layers are the same. -/
theorem map_foldl_onTop (xs layers : List α) :
    (xs.foldl (onTop feature) layers).map feature =
      (xs.map feature).foldl (onTop id) (layers.map feature) := by
  rw [List.foldl_map]
  induction xs generalizing layers with
  | nil => rfl
  | cons x xs ih =>
    rw [List.foldl_cons, List.foldl_cons, ih, onTop, onTop]
    congr 1
    rw [id]
    split
    · rfl
    · rw [List.map_append, List.map_singleton]

theorem map_layered (xs : List α) :
    (layered feature xs).map feature = layered id (xs.map feature) :=
  map_foldl_onTop feature xs []

/-- Features may form layers among themselves before they are put on others. -/
theorem foldl_onTop_layered (layers xs : List α) :
    (layered feature xs).foldl (onTop feature) layers = xs.foldl (onTop feature) layers := by
  induction xs using List.reverseRecOn with
  | nil => rfl
  | append_singleton xs x ih =>
    rw [layered_append_singleton, List.foldl_append, List.foldl_cons, List.foldl_nil, ← ih, onTop]
    split
    · next hx => rw [List.foldl_cons, List.foldl_nil, onTop, onTop, if_pos hx, if_pos hx]
    · rw [List.foldl_append, List.foldl_cons, List.foldl_nil]

/-- Features that override nothing stay beside what was there. -/
theorem foldl_onTop_of_plain (layers : List α) {xs : List α}
    (h : ∀ x ∈ xs, (feature x).overriding = false) :
    xs.foldl (onTop feature) layers = layers ++ xs := by
  induction xs generalizing layers with
  | nil => exact (List.append_nil layers).symm
  | cons x xs ih =>
    obtain ⟨hx, hxs⟩ := List.forall_mem_cons.1 h
    rw [List.foldl_cons, ih _ hxs, onTop, hx, if_neg Bool.false_ne_true, List.append_assoc,
      List.singleton_append]

theorem layered_eq_nil_iff {xs : List α} : layered feature xs = [] ↔ xs = [] := by
  induction xs using List.reverseRecOn with
  | nil => exact ⟨fun _ => rfl, fun _ => rfl⟩
  | append_singleton xs x ih =>
    rw [layered_append_singleton, onTop]
    split <;> simp

/-- The newest layer is the last feature, whether it overrides or not. -/
theorem getLast?_layered (xs : List α) : (layered feature xs).getLast? = xs.getLast? := by
  induction xs using List.reverseRecOn with
  | nil => rfl
  | append_singleton xs x ih =>
    rw [layered_append_singleton, onTop]
    split <;> simp

/-- Features of which none overrides are all layers. -/
theorem layered_of_plain {xs : List α} (h : ∀ x ∈ xs, (feature x).overriding = false) :
    layered feature xs = xs :=
  foldl_onTop_of_plain feature [] h

/-- The layers start at the last feature that overrides. -/
theorem layered_append_cons (before : List α) {x : α} {after : List α}
    (hx : (feature x).overriding = true) (h : ∀ y ∈ after, (feature y).overriding = false) :
    layered feature (before ++ x :: after) = x :: after := by
  rw [layered, List.foldl_append, List.foldl_cons, onTop, if_pos hx,
    foldl_onTop_of_plain feature [x] h, List.singleton_append]

end Layered

/-! ### One feature -/

variable (t : FeatureTable) (f : Feature) (fs : List Feature) (name : String)

theorem layers_insert :
    (t.insert f).layers name =
      if f.name = name then onTop id (t.layers name) f else t.layers name := by
  obtain ⟨entries⟩ := t
  simp only [insert, layers, onTop, id]
  induction entries with
  | nil =>
    by_cases hf : f.name = name <;> simp [insertInto, hf]
  | cons e entries ih =>
    obtain ⟨n, ls⟩ := e
    rw [insertInto]
    by_cases hn : n = f.name
    · subst hn
      by_cases hf : f.name = name <;> simp [hf]
    · by_cases hname : n = name
      · subst hname
        simp [hn, Ne.symm hn]
      · simpa [List.find?_cons, hn, hname] using ih

variable {t f} in
theorem names_insert_of_mem (h : f.name ∈ t.names) : (t.insert f).names = t.names := by
  obtain ⟨entries⟩ := t
  simp only [insert, names] at h ⊢
  induction entries with
  | nil => cases h
  | cons e entries ih =>
    obtain ⟨n, ls⟩ := e
    rw [insertInto]
    split
    · rfl
    · next hn =>
      rw [List.map_cons, List.mem_cons] at h
      rw [List.map_cons, List.map_cons, ih (h.resolve_left (Ne.symm hn))]

variable {t f} in
theorem names_insert_of_not_mem (h : f.name ∉ t.names) :
    (t.insert f).names = t.names ++ [f.name] := by
  obtain ⟨entries⟩ := t
  simp only [insert, names] at h ⊢
  induction entries with
  | nil => rfl
  | cons e entries ih =>
    obtain ⟨n, ls⟩ := e
    rw [List.map_cons, List.mem_cons, not_or] at h
    rw [insertInto, if_neg (Ne.symm h.1), List.map_cons, List.map_cons, ih h.2]
    rfl

/-! ### Many features -/

theorem insertAll_append (gs : List Feature) :
    t.insertAll (fs ++ gs) = (t.insertAll fs).insertAll gs :=
  List.foldl_append

theorem layers_insertAll :
    (t.insertAll fs).layers name =
      (fs.filter fun f => f.name == name).foldl (onTop id) (t.layers name) := by
  induction fs generalizing t with
  | nil => rfl
  | cons f fs ih =>
    change ((t.insert f).insertAll fs).layers name = _
    rw [ih, layers_insert]
    by_cases hf : f.name = name <;> simp [hf]

theorem layers_insertAll_empty :
    (empty.insertAll fs).layers name = layered id (fs.filter fun f => f.name == name) :=
  layers_insertAll empty fs name

variable {t}

/-- Names stand in the order in which they first came. -/
theorem names_insertAll (h : t.names.Nodup) :
    (t.insertAll fs).names = (t.names ++ fs.map (·.name)).eraseDups := by
  induction fs generalizing t with
  | nil => rw [List.map_nil, List.append_nil, eraseDups_of_nodup h]; rfl
  | cons f fs ih =>
    change ((t.insert f).insertAll fs).names = _
    by_cases hf : f.name ∈ t.names
    · have hnames := names_insert_of_mem hf
      rw [ih (hnames ▸ h), hnames, List.map_cons, List.eraseDups_append, List.eraseDups_append]
      congr 2
      simp [List.removeAll, hf]
    · have hnames := names_insert_of_not_mem hf
      have hnodup : (t.names ++ [f.name]).Nodup :=
        h.append (List.nodup_singleton _) (by simpa using hf)
      rw [ih (hnames ▸ hnodup), hnames, List.append_assoc]
      rfl

theorem nodup_names_empty : empty.names.Nodup := List.nodup_nil

theorem names_insertAll_empty :
    (empty.insertAll fs).names = (fs.map (·.name)).eraseDups :=
  names_insertAll fs nodup_names_empty

theorem nodup_names_insertAll (h : t.names.Nodup) : (t.insertAll fs).names.Nodup := by
  rw [names_insertAll fs h]
  exact nodup_eraseDups _

/-! ### Tables by their names and layers -/

theorem layers_of_not_mem {n : String} (h : n ∉ t.names) : t.layers n = [] := by
  rw [layers, List.find?_eq_none.2]
  · rfl
  · intro e he hn
    exact h (List.mem_map.2 ⟨e, he, by simpa using hn⟩)

theorem entries_eq (h : t.names.Nodup) : t.entries = t.names.map fun n => (n, t.layers n) := by
  obtain ⟨entries⟩ := t
  simp only [names, layers] at h ⊢
  induction entries with
  | nil => rfl
  | cons e entries ih =>
    obtain ⟨he, hentries⟩ := List.nodup_cons.1 h
    simp only [List.map_cons, List.find?_cons, beq_self_eq_true, Option.map_some,
      Option.getD_some]
    conv_lhs => rw [ih hentries]
    refine congrArg (e :: ·) (List.map_congr_left fun n hn => ?_)
    have hne : (e.1 == n) = false := by
      rw [beq_eq_false_iff_ne]
      rintro rfl
      exact he hn
    rw [hne]

/-- **A table is told by its names and their layers.** -/
theorem ext {u : FeatureTable} (h : t.names.Nodup) (hnames : t.names = u.names)
    (hlayers : ∀ n, t.layers n = u.layers n) : t = u := by
  have ht := entries_eq h
  rw [hnames, funext hlayers, ← entries_eq (hnames ▸ h)] at ht
  cases t
  cases u
  exact congrArg mk ht

/-- No name occurs twice, and every name has layers, which have this name. -/
structure WellFormed (t : FeatureTable) : Prop where
  /-- Names are different. -/
  nodup : t.names.Nodup
  /-- There are layers. -/
  ne_nil : ∀ n ∈ t.names, t.layers n ≠ []
  /-- They have the name. -/
  name_eq : ∀ n, ∀ f ∈ t.layers n, f.name = n

theorem wellFormed_insertAll_empty : (empty.insertAll fs).WellFormed where
  nodup := nodup_names_insertAll fs nodup_names_empty
  ne_nil n hn := by
    rw [names_insertAll_empty, List.mem_eraseDups, List.mem_map] at hn
    obtain ⟨f, hf, hname⟩ := hn
    rw [layers_insertAll_empty, Ne, layered_eq_nil_iff]
    exact List.ne_nil_of_mem (List.mem_filter.2 ⟨hf, by simpa using hname⟩)
  name_eq n f hf := by
    rw [layers_insertAll_empty] at hf
    simpa using (List.mem_filter.1 ((layered_sublist id _).subset hf)).2

theorem features_eq (h : t.names.Nodup) : t.features = t.names.flatMap t.layers := by
  rw [features, entries_eq h, List.flatMap_map]

variable {fs f} in
/-- Nothing is in the table but what was put in. -/
theorem mem_of_mem_features (h : f ∈ (empty.insertAll fs).features) : f ∈ fs := by
  rw [features_eq (nodup_names_insertAll fs nodup_names_empty), List.mem_flatMap] at h
  obtain ⟨n, -, hf⟩ := h
  rw [layers_insertAll_empty] at hf
  exact (List.mem_filter.1 ((layered_sublist id _).subset hf)).1

namespace WellFormed

variable (h : t.WellFormed)
include h

theorem contains_iff : t.contains name = true ↔ name ∈ t.names := by
  rw [contains, Bool.not_eq_true', List.isEmpty_eq_false_iff]
  refine ⟨fun hne => ?_, h.ne_nil name⟩
  by_contra hname
  exact hne (layers_of_not_mem hname)

theorem exists_mem_features (hname : name ∈ t.names) : ∃ f ∈ t.features, f.name = name := by
  obtain ⟨f, hf⟩ := List.exists_mem_of_ne_nil _ (h.ne_nil name hname)
  rw [features_eq h.nodup]
  exact ⟨f, List.mem_flatMap.2 ⟨name, hname, hf⟩, h.name_eq name f hf⟩

/-- The features that have a name are its layers. -/
theorem filter_features : (t.features.filter fun f => f.name == name) = t.layers name := by
  have hlayers : ∀ n, (t.layers n).filter (fun f => f.name == name) =
      if n = name then t.layers name else [] := by
    intro n
    split
    · next hn =>
      subst hn
      exact List.filter_eq_self.2 fun f hf => by simpa using h.name_eq n f hf
    · next hn =>
      exact List.filter_eq_nil_iff.2 fun f hf => by simpa [h.name_eq n f hf] using hn
  rw [features_eq h.nodup, List.filter_flatMap, funext hlayers, flatMap_ite_eq h.nodup]
  split
  · rfl
  · next hname => exact (layers_of_not_mem hname).symm

/-- The features come in the order of the names. -/
theorem eraseDups_names_features : (t.features.map (·.name)).eraseDups = t.names := by
  rw [features_eq h.nodup, List.map_flatMap]
  refine eraseDups_flatMap h.nodup (fun n hn => ?_) fun n m hm => ?_
  · simpa using h.ne_nil n hn
  · obtain ⟨f, hf, rfl⟩ := List.mem_map.1 hm
    exact h.name_eq n f hf

end WellFormed

theorem contains_insertAll_empty :
    (empty.insertAll fs).contains name = true ↔ ∃ f ∈ fs, f.name = name := by
  rw [(wellFormed_insertAll_empty fs).contains_iff, names_insertAll_empty, List.mem_eraseDups,
    List.mem_map]

/-- **What a table holds after its whole history.** Each name stands where it first came, and has
layers. These are the features of the name from the last overriding one on, or all of them if none
overrides; so the last one is what is looked up. No name that has come is ever lost. -/
theorem layers_of_history :
    (empty.insertAll fs).names.Nodup ∧
      (∀ name, name ∈ (empty.insertAll fs).names ↔ ∃ f ∈ fs, f.name = name) ∧
      ((empty.insertAll fs).names.Pairwise fun a b =>
        (fs.map (·.name)).idxOf a < (fs.map (·.name)).idxOf b) ∧
      (∀ e ∈ (empty.insertAll fs).entries, e.2 ≠ [] ∧ e.2 = (empty.insertAll fs).layers e.1) ∧
      (∀ name,
        ((∀ f ∈ fs.filter (·.name == name), f.overriding = false) →
          (empty.insertAll fs).layers name = fs.filter (·.name == name)) ∧
        (∀ before f after, fs.filter (·.name == name) = before ++ f :: after →
          f.overriding = true → (∀ g ∈ after, g.overriding = false) →
            (empty.insertAll fs).layers name = f :: after) ∧
        (empty.insertAll fs).get? name = (fs.filter (·.name == name)).getLast?) ∧
      ∀ name, (empty.insertAll fs).contains name = true →
        ∀ more, (empty.insertAll (fs ++ more)).contains name = true := by
  have hwf := wellFormed_insertAll_empty fs
  refine ⟨hwf.nodup, fun name => ?_, ?_, fun e he => ?_, fun name => ⟨?_, ?_, ?_⟩, ?_⟩
  · rw [← hwf.contains_iff, contains_insertAll_empty]
  · rw [names_insertAll_empty]
    exact pairwise_idxOf_eraseDups _
  · rw [entries_eq hwf.nodup] at he
    obtain ⟨name, hname, rfl⟩ := List.mem_map.1 he
    exact ⟨hwf.ne_nil name hname, rfl⟩
  · intro hplain
    rw [layers_insertAll_empty]
    exact layered_of_plain id hplain
  · intro before f after hfs hover hafter
    rw [layers_insertAll_empty, hfs]
    exact layered_append_cons id before hover hafter
  · rw [get?, layers_insertAll_empty, getLast?_layered]
  · intro name hname more
    rw [contains_insertAll_empty] at hname ⊢
    obtain ⟨f, hf, hn⟩ := hname
    exact ⟨f, List.mem_append_left more hf, hn⟩

/-! ### Features that went through a table -/

/-- **Features may go through a table of their own** on the way into another one. -/
theorem insertAll_features (h : t.names.Nodup) :
    t.insertAll (empty.insertAll fs).features = t.insertAll fs := by
  have hwf := wellFormed_insertAll_empty fs
  refine ext (nodup_names_insertAll _ h) ?_ fun n => ?_
  · rw [names_insertAll _ h, names_insertAll _ h]
    refine eraseDups_append_congr _ ?_
    rw [hwf.eraseDups_names_features, names_insertAll_empty]
  · rw [layers_insertAll, layers_insertAll, hwf.filter_features, layers_insertAll_empty,
      foldl_onTop_layered]

end FeatureTable

end VersionedModel
