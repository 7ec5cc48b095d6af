import VersionedModel.Composition
import VersionedModel.Proofs.Feature.Layers
import VersionedModel.Proofs.Lookup
import VersionedModel.Proofs.Outcome

/-!
# Prerequisites

A registry comes from declarations, of which the first of each name counts
(`Registry.get?_ofDeclarations`). The declarations that a codec asks for, those with fewer dependent
features first, make up the order in which it is composed (`Registry.plugins_ofDeclarations`).

A composition fails at the first dependent feature whose prerequisite is declared neither by its own
capability nor by an earlier one; if there is none it succeeds, and its table is the one into which
all enabled features were put, one after the other (`Composition.outcome_of_declarations`). The
tables that the capabilities themselves keep make no difference, although they have already dropped
what is overridden there.
-/

namespace VersionedModel

/-! ### The order -/

namespace Capability

theorem place_append {c : Capability} {before behind : List Capability}
    (hbefore : ∀ d ∈ before, d.weight < c.weight) (hbehind : ∀ d ∈ behind, c.weight ≤ d.weight) :
    place c (before ++ behind) = before ++ c :: behind := by
  induction before with
  | nil =>
    cases behind with
    | nil => rfl
    | cons d behind => exact if_pos (hbehind d List.mem_cons_self)
  | cons d before ih =>
    obtain ⟨hd, hbefore⟩ := List.forall_mem_cons.1 hbefore
    rw [List.cons_append, place, if_neg (Nat.not_le_of_lt hd), ih hbefore, List.cons_append]

/-- Capabilities are sorted by their weight, and those of one weight stay in their order. -/
theorem inOrder_eq_mergeSort (cs : List Capability) :
    inOrder cs = cs.mergeSort fun c d => c.weight ≤ d.weight := by
  have htrans : ∀ a b c : Capability, decide (a.weight ≤ b.weight) = true →
      decide (b.weight ≤ c.weight) = true → decide (a.weight ≤ c.weight) = true := by
    simp only [decide_eq_true_eq]
    exact fun _ _ _ => Nat.le_trans
  have htotal : ∀ a b : Capability,
      (decide (a.weight ≤ b.weight) || decide (b.weight ≤ a.weight)) = true := by
    simp only [Bool.or_eq_true, decide_eq_true_eq]
    exact fun a b => Nat.le_total a.weight b.weight
  induction cs with
  | nil => exact List.mergeSort_nil.symm
  | cons c cs ih =>
    obtain ⟨before, behind, hcons, hsorted, hbefore⟩ := List.mergeSort_cons htrans htotal c cs
    have hpairwise := List.pairwise_mergeSort htrans htotal (c :: cs)
    rw [hcons, List.pairwise_append] at hpairwise
    change place c (inOrder cs) = _
    rw [ih, hsorted, hcons]
    refine place_append (fun d hd => ?_) fun d hd => ?_
    · simpa using hbefore d hd
    · simpa using (List.pairwise_cons.1 hpairwise.2.1).1 d hd

end Capability

/-! ### Declarations -/

/-- A capability as declared: features under a name. -/
structure CapabilityDeclaration where
  /-- Its name. -/
  name : String
  /-- Its features. -/
  features : List Feature

namespace CapabilityDeclaration

variable (d : CapabilityDeclaration)

/-- The capability that was declared. -/
def capability : Capability :=
  .bundle d.name d.features

/-- Its enabled features, in order of declaration. -/
def enabled : List Feature :=
  d.features.filter fun f => !f.disabled

/-- Its enabled features that have a prerequisite, in order of declaration. -/
def dependents : List Feature :=
  d.enabled.filter Feature.isDependent

/-- Its enabled features that have none, in order of declaration. -/
def independents : List Feature :=
  d.enabled.filter fun f => !f.isDependent

/-- What it adds to a composition, one by one. -/
def contributed : List Feature :=
  d.independents ++ d.dependents

theorem features_capability :
    d.capability.table.features = (FeatureTable.empty.insertAll d.contributed).features := rfl

theorem mem_contributed {f : Feature} : f ∈ d.contributed ↔ f ∈ d.enabled := by
  rw [contributed, independents, dependents, List.mem_append, List.mem_filter, List.mem_filter]
  cases f.isDependent <;> simp

/-- The declarations of some names, those with fewer dependent features first; names without one are
passed over, and those with equally many stay in their order. -/
def inOrder (ds : List CapabilityDeclaration) (names : List String) :
    List CapabilityDeclaration :=
  (names.filterMap fun name => ds.find? fun d => d.name == name).mergeSort
    fun d e => d.dependents.length ≤ e.dependents.length

end CapabilityDeclaration

namespace Registry

/-- Declare a capability; if its name is taken the registry stays as it is. -/
def declare (r : Registry) (d : CapabilityDeclaration) : Registry :=
  match r.register d.capability with
  | .ok r => r
  | .error _ => r

/-- What declarations, one after the other, make of the registry without capabilities. -/
def ofDeclarations (ds : List CapabilityDeclaration) : Registry :=
  ds.foldl declare ∅

theorem declare_eq (r : Registry) (d : CapabilityDeclaration) :
    r.declare d = if r.contains d.name then r else r.insert d.name d.capability := by
  rw [declare, register, show d.capability.name = d.name from rfl]
  cases r.contains d.name <;> rfl

theorem get?_declare (r : Registry) (d : CapabilityDeclaration) (name : String) :
    (r.declare d).get? name =
      (r.get? name).or (if d.name = name then some d.capability else none) := by
  rw [declare_eq, Dict.contains]
  by_cases hname : d.name = name
  · subst hname
    rw [if_pos rfl]
    cases h : r.get? d.name with
    | some c => simp [h]
    | none => simp
  · rw [if_neg hname, Option.or_none]
    split
    · rfl
    · exact r.get?_insert_of_ne (Ne.symm hname) d.capability

/-- Of the declarations of a name the first counts. -/
theorem get?_ofDeclarations (ds : List CapabilityDeclaration) (name : String) :
    (ofDeclarations ds).get? name =
      (ds.find? fun d => d.name == name).map CapabilityDeclaration.capability := by
  have key : ∀ r : Registry, (ds.foldl declare r).get? name =
      (r.get? name).or ((ds.find? fun d => d.name == name).map
        CapabilityDeclaration.capability) := by
    induction ds with
    | nil => exact fun r => Option.or_none.symm
    | cons d ds ih =>
      intro r
      rw [List.foldl_cons, ih, get?_declare, Option.or_assoc]
      by_cases hname : d.name = name <;> simp [hname]
  exact key ∅

open CapabilityDeclaration (capability inOrder)

/-- What a codec is composed of, in order. -/
theorem plugins_ofDeclarations (ds : List CapabilityDeclaration) (names : List String) :
    (ofDeclarations ds).plugins names = (inOrder ds names).map capability := by
  have hplugins : names.filterMap (ofDeclarations ds).get? =
      (names.filterMap fun name => ds.find? fun d => d.name == name).map capability := by
    rw [List.map_filterMap]
    exact List.filterMap_congr fun name _ => get?_ofDeclarations ds name
  rw [plugins, Capability.inOrder_eq_mergeSort, hplugins, inOrder]
  exact (List.map_mergeSort (f := capability) fun _ _ _ _ => rfl).symm

end Registry

namespace Composition

open CapabilityDeclaration (capability contributed inOrder)

/-! ### Checking prerequisites -/

/-- Check that one feature finds its prerequisite. -/
def checkPrerequisite (t : FeatureTable) (f : Feature) : Except Error Unit :=
  match f.requires with
  | none => .ok ()
  | some required =>
    if t.contains required then .ok () else .error (.missingPrerequisite f.name required)

theorem checkPrerequisites_eq_forM (t : FeatureTable) (fs : List Feature) :
    checkPrerequisites t fs = fs.forM (checkPrerequisite t) := by
  induction fs with
  | nil => rfl
  | cons f fs ih =>
    rw [checkPrerequisites, ih, List.forM_eq_forM, List.forM_cons, checkPrerequisite]
    cases f.requires with
    | none => rfl
    | some required =>
      dsimp only
      split <;> rfl

variable {t : FeatureTable} {f : Feature} {e : Error}

theorem checkPrerequisite_eq_ok :
    checkPrerequisite t f = .ok () ↔
      ∀ required, f.requires = some required → t.contains required = true := by
  rw [checkPrerequisite]
  cases f.requires with
  | none => simp
  | some required =>
    dsimp only
    split <;> simp [*]

theorem checkPrerequisite_eq_error :
    checkPrerequisite t f = .error e ↔
      ∃ required, f.requires = some required ∧ t.contains required = false ∧
        e = .missingPrerequisite f.name required := by
  rw [checkPrerequisite]
  cases f.requires with
  | none => simp
  | some required =>
    dsimp only
    split
    · simp [*]
    · simp only [Except.error.injEq, Option.some.injEq, exists_eq_left', *]
      exact ⟨fun h => ⟨trivial, h.symm⟩, fun h => h.2.symm⟩

/-! ### Composing declarations -/

/-- The table into which the enabled features of declarations are put one by one. -/
def tableOf (ds : List CapabilityDeclaration) : FeatureTable :=
  FeatureTable.empty.insertAll (ds.flatMap contributed)

/-- Some declaration has an enabled feature of a name. -/
def Declared (ds : List CapabilityDeclaration) (name : String) : Prop :=
  ∃ d ∈ ds, ∃ f ∈ d.enabled, f.name = name

theorem contains_tableOf {ds : List CapabilityDeclaration} {name : String} :
    (tableOf ds).contains name = true ↔ Declared ds name := by
  rw [tableOf, (FeatureTable.wellFormed_insertAll_empty _).contains_iff,
    FeatureTable.names_insertAll_empty, List.mem_eraseDups, List.mem_map]
  constructor
  · rintro ⟨f, hf, hname⟩
    obtain ⟨d, hd, hf⟩ := List.mem_flatMap.1 hf
    exact ⟨d, hd, f, d.mem_contributed.1 hf, hname⟩
  · rintro ⟨d, hd, f, hf, hname⟩
    exact ⟨f, List.mem_flatMap.2 ⟨d, hd, d.mem_contributed.2 hf⟩, hname⟩

/-- One more capability: its features are put in, then its prerequisites are checked. -/
theorem layer_capability (done : List CapabilityDeclaration) (d : CapabilityDeclaration) :
    layer (tableOf done) d.capability =
      (fun _ => tableOf (done ++ [d])) <$>
        d.dependents.forM (checkPrerequisite (tableOf (done ++ [d]))) := by
  have htable : (tableOf done).insertAll d.capability.table.features = tableOf (done ++ [d]) := by
    rw [d.features_capability, tableOf, FeatureTable.insertAll_features _
      (FeatureTable.nodup_names_insertAll _ FeatureTable.nodup_names_empty), tableOf,
      List.flatMap_append, FeatureTable.insertAll_append, List.flatMap_singleton]
  rw [layer, htable, checkPrerequisites_eq_forM]
  rfl

/-- The dependent feature at place `k` of the declaration at place `i` needs a feature that is
declared neither by this declaration nor by one before it; some were composed already. -/
structure UnmetAfter (done order : List CapabilityDeclaration) (i k : Nat) (f : Feature)
    (required : String) : Prop where
  /-- It is the one at this place. -/
  place : ∃ d, order[i]? = some d ∧ d.dependents[k]? = some f
  /-- This is what it needs. -/
  requires : f.requires = some required
  /-- Nobody has it. -/
  missing : ¬Declared (done ++ order.take (i + 1)) required

/-- The dependent feature at place `k` of the declaration at place `i` needs a feature that is
declared neither by this declaration nor by one before it. -/
abbrev Unmet (order : List CapabilityDeclaration) (i k : Nat) (f : Feature) (required : String) :
    Prop :=
  UnmetAfter [] order i k f required

variable {done order : List CapabilityDeclaration} {d : CapabilityDeclaration} {i k : Nat}
  {required : String}

theorem unmetAfter_cons_zero :
    UnmetAfter done (d :: order) 0 k f required ↔
      d.dependents[k]? = some f ∧ f.requires = some required ∧
        (tableOf (done ++ [d])).contains required = false := by
  rw [← Bool.not_eq_true, contains_tableOf]
  constructor
  · rintro ⟨⟨_, ⟨⟩, hf⟩, hrequires, hmissing⟩
    exact ⟨hf, hrequires, hmissing⟩
  · rintro ⟨hf, hrequires, hmissing⟩
    exact ⟨⟨d, rfl, hf⟩, hrequires, hmissing⟩

theorem unmetAfter_cons_succ :
    UnmetAfter done (d :: order) (i + 1) k f required ↔
      UnmetAfter (done ++ [d]) order i k f required := by
  have happend : done ++ (d :: order).take (i + 1 + 1) = done ++ [d] ++ order.take (i + 1) := by
    rw [List.take_succ_cons, List.append_assoc, List.singleton_append]
  constructor
  · rintro ⟨hplace, hrequires, hmissing⟩
    exact ⟨hplace, hrequires, happend ▸ hmissing⟩
  · rintro ⟨hplace, hrequires, hmissing⟩
    exact ⟨hplace, hrequires, happend ▸ hmissing⟩

variable (order) in
/-- What comes of the checks of one capability. -/
theorem forM_checkPrerequisite_eq_ok :
    d.dependents.forM (checkPrerequisite (tableOf (done ++ [d]))) = .ok () ↔
      ∀ k f required, ¬UnmetAfter done (d :: order) 0 k f required := by
  rw [Outcome.forM_eq_ok]
  constructor
  · intro h k f required hunmet
    obtain ⟨hf, hrequires, hmissing⟩ := unmetAfter_cons_zero.1 hunmet
    have hcheck := checkPrerequisite_eq_ok.1 (h f (List.mem_of_getElem? hf)) required hrequires
    rw [hcheck] at hmissing
    cases hmissing
  · intro h f hf
    refine checkPrerequisite_eq_ok.2 fun required hrequires => ?_
    obtain ⟨k, hk⟩ := List.mem_iff_getElem?.1 hf
    by_contra hmissing
    exact h k f required
      (unmetAfter_cons_zero.2 ⟨hk, hrequires, Bool.not_eq_true _ ▸ hmissing⟩)

variable (order) in
theorem forM_checkPrerequisite_eq_error :
    d.dependents.forM (checkPrerequisite (tableOf (done ++ [d]))) = .error e ↔
      ∃ k f required, UnmetAfter done (d :: order) 0 k f required ∧
        e = .missingPrerequisite f.name required ∧
        ∀ k' f' required', UnmetAfter done (d :: order) 0 k' f' required' → k ≤ k' := by
  rw [Outcome.forM_eq_error]
  constructor
  · rintro ⟨k, f, hf, he, hbefore⟩
    obtain ⟨required, hrequires, hmissing, rfl⟩ := checkPrerequisite_eq_error.1 he
    refine ⟨k, f, required, unmetAfter_cons_zero.2 ⟨hf, hrequires, hmissing⟩, rfl, ?_⟩
    intro k' f' required' hunmet
    obtain ⟨hf', hrequires', hmissing'⟩ := unmetAfter_cons_zero.1 hunmet
    by_contra hlt
    have hcheck := checkPrerequisite_eq_ok.1 (hbefore k' (Nat.lt_of_not_le hlt) f' hf')
      required' hrequires'
    rw [hcheck] at hmissing'
    cases hmissing'
  · rintro ⟨k, f, required, hunmet, rfl, hfirst⟩
    obtain ⟨hf, hrequires, hmissing⟩ := unmetAfter_cons_zero.1 hunmet
    refine ⟨k, f, hf, checkPrerequisite_eq_error.2 ⟨required, hrequires, hmissing, rfl⟩, ?_⟩
    intro j hj g hg
    refine checkPrerequisite_eq_ok.2 fun required' hrequires' => ?_
    by_contra hmissing'
    exact Nat.not_le_of_lt hj (hfirst j g required'
      (unmetAfter_cons_zero.2 ⟨hg, hrequires', Bool.not_eq_true _ ▸ hmissing'⟩))

/-- Composing further declarations succeeds if all prerequisites are met. -/
theorem foldlM_layer_eq_ok {t : FeatureTable} :
    (order.map capability).foldlM layer (tableOf done) = .ok t ↔
      (∀ i k f required, ¬UnmetAfter done order i k f required) ∧ t = tableOf (done ++ order) := by
  induction order generalizing done with
  | nil =>
    rw [List.append_nil]
    constructor
    · rintro ⟨⟩
      refine ⟨fun i k f required h => ?_, rfl⟩
      obtain ⟨d, hd, -⟩ := h.place
      cases hd
    · rintro ⟨-, rfl⟩
      rfl
  | cons d order ih =>
    have happend : done ++ d :: order = done ++ [d] ++ order := by simp
    rw [List.map_cons, List.foldlM_cons, Outcome.bind_eq_ok, layer_capability, happend]
    constructor
    · rintro ⟨u, hu, ht⟩
      obtain ⟨_, hchecks, rfl⟩ := Outcome.map_eq_ok.1 hu
      obtain ⟨hrest, rfl⟩ := ih.1 ht
      refine ⟨fun i k f required hunmet => ?_, rfl⟩
      cases i with
      | zero => exact (forM_checkPrerequisite_eq_ok order).1 hchecks k f required hunmet
      | succ i => exact hrest i k f required (unmetAfter_cons_succ.1 hunmet)
    · rintro ⟨hmet, rfl⟩
      refine ⟨_, Outcome.map_eq_ok.2 ⟨(), (forM_checkPrerequisite_eq_ok order).2 (hmet 0), rfl⟩,
        ih.2 ⟨fun i k f required hunmet => ?_, rfl⟩⟩
      exact hmet (i + 1) k f required (unmetAfter_cons_succ.2 hunmet)

/-- Composing further declarations fails at the first prerequisite that is not met. -/
theorem foldlM_layer_eq_error :
    (order.map capability).foldlM layer (tableOf done) = .error e ↔
      ∃ i k f required, UnmetAfter done order i k f required ∧
        e = .missingPrerequisite f.name required ∧
        ∀ i' k' f' required', UnmetAfter done order i' k' f' required' →
          i < i' ∨ i = i' ∧ k ≤ k' := by
  induction order generalizing done with
  | nil =>
    constructor
    · nofun
    · rintro ⟨i, k, f, required, h, -⟩
      obtain ⟨d, hd, -⟩ := h.place
      cases hd
  | cons d order ih =>
    rw [List.map_cons, List.foldlM_cons, Outcome.bind_eq_error, layer_capability,
      Outcome.map_eq_error]
    constructor
    · rintro (hchecks | ⟨u, hu, he⟩)
      · obtain ⟨k, f, required, hunmet, rfl, hfirst⟩ :=
          (forM_checkPrerequisite_eq_error order).1 hchecks
        refine ⟨0, k, f, required, hunmet, rfl, fun i' k' f' required' hunmet' => ?_⟩
        cases i' with
        | zero => exact .inr ⟨rfl, hfirst k' f' required' hunmet'⟩
        | succ i' => exact .inl i'.succ_pos
      · obtain ⟨_, hchecks, rfl⟩ := Outcome.map_eq_ok.1 hu
        obtain ⟨i, k, f, required, hunmet, rfl, hfirst⟩ := ih.1 he
        refine ⟨i + 1, k, f, required, unmetAfter_cons_succ.2 hunmet, rfl, ?_⟩
        intro i' k' f' required' hunmet'
        cases i' with
        | zero =>
          exact absurd hunmet' ((forM_checkPrerequisite_eq_ok order).1 hchecks k' f' required')
        | succ i' =>
          exact (hfirst i' k' f' required' (unmetAfter_cons_succ.1 hunmet')).imp Nat.succ_lt_succ
            fun h => ⟨congrArg Nat.succ h.1, h.2⟩
    · rintro ⟨i, k, f, required, hunmet, rfl, hfirst⟩
      cases i with
      | zero =>
        refine .inl ((forM_checkPrerequisite_eq_error order).2 ⟨k, f, required, hunmet, rfl, ?_⟩)
        intro k' f' required' hunmet'
        exact ((hfirst 0 k' f' required' hunmet').resolve_left (Nat.lt_irrefl 0)).2
      | succ i =>
        refine .inr ⟨_, Outcome.map_eq_ok.2 ⟨(), (forM_checkPrerequisite_eq_ok order).2 ?_, rfl⟩,
          ih.2 ⟨i, k, f, required, unmetAfter_cons_succ.1 hunmet, rfl, ?_⟩⟩
        · intro k' f' required' hunmet'
          rcases hfirst 0 k' f' required' hunmet' with h | h
          · exact Nat.not_lt_zero _ h
          · exact Nat.succ_ne_zero i h.1
        · intro i' k' f' required' hunmet'
          exact (hfirst (i' + 1) k' f' required' (unmetAfter_cons_succ.2 hunmet')).imp
            Nat.lt_of_succ_lt_succ fun h => ⟨Nat.succ.inj h.1, h.2⟩

/-! ### Outcomes -/

theorem compose_ofDeclarations (ds : List CapabilityDeclaration) (codec : String)
    (names : List String) :
    compose (Registry.ofDeclarations ds) codec names =
      (⟨codec, (inOrder ds names).map capability, ·⟩) <$>
        ((inOrder ds names).map capability).foldlM layer (tableOf []) := by
  rw [compose, Registry.plugins_ofDeclarations]
  rfl

/-- **What comes of a composition.** It fails exactly if some dependent feature needs what nobody has
declared so far, and it says so of the first such feature. Otherwise its table is the one into which
the features are put one by one. -/
theorem outcome_of_declarations (ds : List CapabilityDeclaration) (codec : String)
    (names : List String) :
    ((∃ e, compose (Registry.ofDeclarations ds) codec names = .error e) ↔
        ∃ i k f required, Unmet (inOrder ds names) i k f required) ∧
      (∀ e, compose (Registry.ofDeclarations ds) codec names = .error e →
        ∃ i k f required, Unmet (inOrder ds names) i k f required ∧
          e = .missingPrerequisite f.name required ∧
          ∀ i' k' f' required', Unmet (inOrder ds names) i' k' f' required' →
            i < i' ∨ i = i' ∧ k ≤ k') ∧
      ∀ c, compose (Registry.ofDeclarations ds) codec names = .ok c →
        c = ⟨codec, (inOrder ds names).map capability,
          FeatureTable.empty.insertAll ((inOrder ds names).flatMap contributed)⟩ := by
  rw [compose_ofDeclarations]
  refine ⟨⟨?_, ?_⟩, ?_, ?_⟩
  · rintro ⟨e, he⟩
    obtain ⟨i, k, f, required, hunmet, -⟩ :=
      foldlM_layer_eq_error.1 (Outcome.map_eq_error.1 he)
    exact ⟨i, k, f, required, hunmet⟩
  · rintro ⟨i, k, f, required, hunmet⟩
    cases hrun : ((inOrder ds names).map capability).foldlM layer (tableOf []) with
    | error e => exact ⟨e, rfl⟩
    | ok t => exact absurd hunmet ((foldlM_layer_eq_ok.1 hrun).1 i k f required)
  · intro e he
    exact foldlM_layer_eq_error.1 (Outcome.map_eq_error.1 he)
  · intro c hc
    obtain ⟨t, ht, rfl⟩ := Outcome.map_eq_ok.1 hc
    rw [(foldlM_layer_eq_ok.1 ht).2]
    rfl

end Composition

end VersionedModel
