import VersionedModel.Proofs.Definition.Reading
import VersionedModel.Proofs.Definition.RoundTrip

/-!
# Exporting a stack and building it again

A schema of leaf components can be exported: described, written as JSON, read back and built again, in
whatever workspace. The members that are built are those that were exported, in order, with their
names, kinds, versions, flags and permissions to be copied (`Rebuilt`). Their defaults, however, are
what JSON makes of them (`Value.revived`), whatever kind is declared: a default of bytes comes back as
a text, since it is not fitted to the declared kind. A default comes back exactly if it is not null
and has neither bytes nor floats that are not finite in it (`Schema.rebuilt_of_members`); were it
fitted to the declared kind, bytes would come back as well (`Component.Rebuilt.map_coerce_default`).
-/

namespace VersionedModel

open Workspace (Accounted Reachable)

/-! ### Defaults -/

namespace Value

/-- What becomes of a default that is written in a definition and read back, if anything does. -/
def revived (v : Value) : Option Value :=
  v.toJson.present?.map ofJson

theorem revived_of_ne_null {v : Value} (h : v.Ordered) (hne : v.toJson ≠ .null) :
    v.revived = some (ofJson v.toJson) := by
  rw [revived, Json.present?_of_ne_null hne, Json.ordered_of_sendable _ (sendable_toJson v h)]
  rfl

theorem revived_eq_some_iff {v : Value} (h : v.Ordered) :
    v.revived = some v ↔ v ≠ .null ∧ v.Plain := by
  constructor
  · intro hv
    have hne : v.toJson ≠ .null := by
      intro hnull
      rw [revived, hnull] at hv
      cases hv
    rw [revived_of_ne_null h hne] at hv
    refine ⟨?_, plain_of_ofJson_toJson v (Option.some.inj hv)⟩
    rintro rfl
    exact hne rfl
  · rintro ⟨hne, hplain⟩
    have hback := ofJson_toJson v hplain
    have hne : v.toJson ≠ .null := by
      intro hnull
      rw [hnull] at hback
      exact hne hback.symm
    rw [revived_of_ne_null h hne, hback]

/-- Fitted to the kind of its leaf, a default would come back. -/
theorem map_coerce_revived {kind : ValueKind} {v : Value} (h : v.Ordered) (hne : v ≠ .null)
    (hv : Faithful kind v) : v.revived.map (coerce · kind) = some v := by
  have hback := carried_of_faithful hv
  have hne : v.toJson ≠ .null := by
    intro hnull
    have hcoerce : (ofJson .null).coerce kind = null := by cases kind <;> rfl
    rw [carried, hnull, hcoerce] at hback
    exact hne hback.symm
  rw [revived_of_ne_null h hne]
  exact congrArg some hback

end Value

/-! ### Components -/

/-- The component is a leaf of a kind that definitions know, and its default is in order. -/
def Component.Exportable (c : Component Schema) : Prop :=
  (∃ kind, kind ≠ .null ∧ c.kind = .leaf kind) ∧ ∀ v ∈ c.default, v.Ordered

/-- One component was exported and built again as the other. -/
structure Component.Rebuilt (c c' : Component Schema) : Prop where
  /-- They have one name. -/
  name_eq : c'.name = c.name
  /-- They have one kind. -/
  kind_eq : c'.kind = c.kind
  /-- They take part from one version on. -/
  firstVersion_eq : c'.firstVersion = c.firstVersion
  /-- They take part up to one version. -/
  lastVersion_eq : c'.lastVersion = c.lastVersion
  /-- They want the same flags. -/
  flags_eq : c'.flags = c.flags
  /-- Both may be copied or neither. -/
  copyable_eq : c'.copyable = c.copyable
  /-- What is left of the default. -/
  default_eq : c'.default = c.default.bind Value.revived

namespace Component

variable {c c' : Component Schema}

theorem Rebuilt.default_eq_iff (h : Rebuilt c c') (hc : c.Exportable) :
    c'.default = c.default ↔ ∀ v ∈ c.default, v ≠ .null ∧ v.Plain := by
  rw [h.default_eq]
  cases hd : c.default with
  | none => simp
  | some v =>
    rw [Option.bind_some, Value.revived_eq_some_iff (hc.2 v hd)]
    simp

/-- If only the default that came back is fitted to the declared kind, it is the one that was
exported, bytes included. -/
theorem Rebuilt.map_coerce_default {kind : ValueKind} (h : Rebuilt c c') (hc : c.Exportable)
    (hdefault : ∀ v ∈ c.default, v ≠ .null ∧ v.Faithful kind) :
    c'.default.map (Value.coerce · kind) = c.default := by
  rw [h.default_eq]
  cases hd : c.default with
  | none => rfl
  | some v =>
    obtain ⟨hne, hv⟩ := hdefault v hd
    exact Value.map_coerce_revived (hc.2 v hd) hne hv

end Component

namespace ComponentDefinition

/-- The definition describes a leaf: it nests nothing, its name is valid, and what is made from it
once it is read is the component. -/
structure Describes (d : ComponentDefinition) (c : Component Schema) : Prop where
  /-- The name is valid. -/
  valid : Path.validateName d.normal.name = .ok ()
  /-- Nothing is nested. -/
  parts_eq : d.normal.parts = []
  /-- What is made from it. -/
  rebuilt : ∀ (w : Workspace) (floor : Nat) (c' : Component Schema),
    d.normal.MadeAs w floor c' → Component.Rebuilt c c'

theorem exists_describes (w : Workspace) {c : Component Schema} {name : String}
    (hname : c.name = some name) (hvalid : Path.validateName name = .ok ()) (hc : c.Exportable) :
    ∃ d : ComponentDefinition, ofComponent w c = .ok d ∧ d.Describes c := by
  obtain ⟨⟨kind, hne, hkind⟩, -⟩ := hc
  refine ⟨_, describe_leaf w _ hname hkind, hvalid, rfl, fun w' floor c' hmade => ?_⟩
  rw [normal, MadeAs] at hmade
  rw [hmade]
  exact
    { name_eq := hname.symm
      kind_eq := by rw [hkind]; exact congrArg FieldKind.leaf (LeafKind.val_ofKind hne)
      firstVersion_eq := rfl
      lastVersion_eq := rfl
      flags_eq := rfl
      copyable_eq := Bool.not_not _
      default_eq := by cases c.default <;> rfl }

end ComponentDefinition

/-! ### Stacks -/

/-- Two relations that hold item by item hold one after the other. -/
theorem forall₂_comp {α β γ : Type} {R : α → β → Prop} {S : β → γ → Prop} {T : α → γ → Prop}
    (hT : ∀ a b c, R a b → S b c → T a c) {as : List α} {bs : List β} {cs : List γ}
    (h : List.Forall₂ R as bs) (h' : List.Forall₂ S bs cs) : List.Forall₂ T as cs := by
  induction h generalizing cs with
  | nil =>
    cases h'
    exact .nil
  | cons hab _ ih =>
    cases h' with
    | cons hbc h' => exact .cons (hT _ _ _ hab hbc) (ih h')

namespace ComponentDefinition

theorem normalList_eq_map (ds : List ComponentDefinition) : normalList ds = ds.map normal := by
  induction ds with
  | nil => rfl
  | cons d ds ih => rw [normalList, ih, List.map_cons]

theorem partsOf_eq_nil {ds : List ComponentDefinition} (h : ∀ d ∈ ds, d.parts = []) :
    partsOf ds = [] := by
  induction ds with
  | nil => rfl
  | cons d ds ih =>
    obtain ⟨hd, hds⟩ := List.forall_mem_cons.1 h
    rw [partsOf, hd, ih hds]
    rfl

end ComponentDefinition

/-- A stack of leaves has no other names than theirs. -/
theorem StackDefinition.validNames_of_leaves {d : StackDefinition}
    (h : ∀ c ∈ d.components, Path.validateName c.name = .ok () ∧ c.parts = []) :
    ∀ p ∈ d.parts, p.ValidNames := by
  cases d with
  | mk name settings rule components =>
    have hparts : ComponentDefinition.partsOf components = [] :=
      ComponentDefinition.partsOf_eq_nil fun c hc => (h c hc).2
    rw [parts, hparts]
    exact List.forall_mem_singleton.2 fun c hc => (h c hc).1

namespace Schema

open Component (Exportable Rebuilt)

/-- The members of a stack of leaves are described, exported, read and built. -/
theorem exists_rebuilt {w : Workspace} (hw : w.Reachable) (s : Schema)
    (h : ∀ c ∈ w.members s.stack, c.Exportable) (w₀ : Workspace) :
    ∃ d d' k w', StackDefinition.ofSchema w s = .ok d ∧ StackDefinition.ofJson d.toJson = .ok d' ∧
      d'.buildStack w₀ = .ok k w' ∧
      List.Forall₂ Rebuilt (w.members s.stack) (w'.members k) := by
  have hdescribed : ∀ c ∈ w.members s.stack, ∃ d : ComponentDefinition,
      ComponentDefinition.ofComponent w c = .ok d ∧ d.Describes c := by
    intro c hc
    obtain ⟨name, hname, hvalid⟩ := hw.accounted.exists_name_of_mem_members hc
    exact ComponentDefinition.exists_describes w hname hvalid (h c hc)
  obtain ⟨ds, hds, hdescribes⟩ := Outcome.exists_mapM hdescribed
  let d : StackDefinition := .mk s.name (s.settings.map Value.toJson) .version ds
  have hd : StackDefinition.ofSchema w s = .ok d := by
    rw [StackDefinition.ofSchema, StackDefinition.ofStack, hds]
    rfl
  have hcomponents : d.normal.components = ds.map ComponentDefinition.normal :=
    ComponentDefinition.normalList_eq_map ds
  have hleaf : ∀ p ∈ d.normal.components, Path.validateName p.name = .ok () ∧ p.parts = [] := by
    rw [hcomponents, List.forall_mem_map]
    have hleaf := (hdescribes.imp fun c p hp => And.intro (And.intro hp.valid hp.parts_eq) hp).flip
    exact ((List.forall₂_and_left ds (w.members s.stack)).1 hleaf).1
  obtain ⟨k, w', floor, hbuild, hmade⟩ :=
    d.normal.exists_buildStack w₀ (StackDefinition.validNames_of_leaves hleaf)
  refine ⟨d, d.normal, k, w', hd, d.ofJson_toJson, hbuild, ?_⟩
  rw [hcomponents, List.forall₂_map_left_iff] at hmade
  exact forall₂_comp (fun c p c' hp hc' => hp.rebuilt w' floor c' hc') hdescribes hmade

/-- **An exported schema can be built again**, and its members are those that were exported up to
their defaults. A default comes back exactly if it is not null and JSON can say it: bytes cannot come
back, even where bytes are declared. -/
theorem rebuilt_of_members {w : Workspace} (hw : w.Reachable) (s : Schema)
    (h : ∀ c ∈ w.members s.stack, c.Exportable) (w₀ : Workspace) :
    ∃ d d' k w', StackDefinition.ofSchema w s = .ok d ∧ StackDefinition.ofJson d.toJson = .ok d' ∧
      d'.buildStack w₀ = .ok k w' ∧
      List.Forall₂
        (fun c c' => Rebuilt c c' ∧
          (c'.default = c.default ↔ ∀ v ∈ c.default, v ≠ .null ∧ v.Plain))
        (w.members s.stack) (w'.members k) := by
  obtain ⟨d, d', k, w', hd, hd', hk, hmembers⟩ := exists_rebuilt hw s h w₀
  refine ⟨d, d', k, w', hd, hd', hk, ?_⟩
  have hexportable := (List.forall₂_and_left _ _).2 ⟨h, hmembers⟩
  exact hexportable.imp fun c c' hc => ⟨hc.2, hc.2.default_eq_iff hc.1⟩

end Schema

/-! ### A car and its photo -/

namespace Schema.Sample

/-- The number of seats, which is four unless it is said. -/
def seats : Component Schema :=
  { Component.ofKind (.leaf .integer) with
    name := some "seats"
    default := some (.integer 4)
    firstVersion := some 2 }

/-- A photo, which is two bytes unless there is another. -/
def photo : Component Schema :=
  { Component.ofKind (.leaf .bytes) with
    id := 1
    name := some "photo"
    default := some (.bytes [1, 2]) }

/-- One stack has the seats, and one has the photo. -/
def garage : Workspace :=
  Workspace.empty.run [.declare seats, .declare photo, .openStack (.version .usual),
    .openStack (.version .usual), .push 0 (.built 0), .push 1 (.built 1)]

/-- The car, compiled for version 2. -/
def car : Schema :=
  .mk "car" (.ofList [(versionKey, .integer 2)]) 0 [.primary "seats" 0 seats]

/-- The photo album. -/
def album : Schema :=
  .mk "album" ∅ 1 [.primary "photo" 0 photo]

theorem reachable_garage : garage.Reachable := ⟨_, rfl⟩

theorem exportable_car : ∀ c ∈ garage.members car.stack, c.Exportable :=
  List.forall_mem_singleton.2 ⟨⟨.integer, by decide, rfl⟩, fun v hv => by cases hv; trivial⟩

theorem exportable_album : ∀ c ∈ garage.members album.stack, c.Exportable :=
  List.forall_mem_singleton.2 ⟨⟨.bytes, by decide, rfl⟩, fun v hv => by cases hv; trivial⟩

end Schema.Sample

namespace Schema

open Component (Rebuilt)
open Sample (car album garage seats photo reachable_garage exportable_car exportable_album)

/-- The car comes back with its seats, and four of them. -/
theorem rebuilt_of_members_car :
    Schema.ofStack "car" 0 (.ofList [(versionKey, .integer 2)]) garage = .ok car garage ∧
      ∃ d d' k w', StackDefinition.ofSchema garage car = .ok d ∧
        StackDefinition.ofJson d.toJson = .ok d' ∧
        d'.buildStack Workspace.empty = .ok k w' ∧
        ∃ c', w'.members k = [c'] ∧ Rebuilt seats c' ∧ c'.default = some (.integer 4) := by
  obtain ⟨d, d', k, w', hd, hd', hk, hmembers⟩ :=
    rebuilt_of_members reachable_garage car exportable_car Workspace.empty
  refine ⟨rfl, d, d', k, w', hd, hd', hk, ?_⟩
  obtain ⟨c', _, ⟨hc', hdefault⟩, hnil, hw'⟩ := List.forall₂_cons_left_iff.1 hmembers
  cases hnil
  refine ⟨c', hw', hc', hdefault.2 fun v hv => ?_⟩
  cases hv
  exact ⟨nofun, trivial⟩

/-- The photo comes back as a text. -/
theorem rebuilt_default_of_album :
    Schema.ofStack "album" 1 ∅ garage = .ok album garage ∧
      (garage.members album.stack).map Component.default = [some (.bytes [1, 2])] ∧
      ∃ d d' k w', StackDefinition.ofSchema garage album = .ok d ∧
        StackDefinition.ofJson d.toJson = .ok d' ∧
        d'.buildStack Workspace.empty = .ok k w' ∧
        (w'.members k).map Component.default = [some (.string "AQI=")] := by
  obtain ⟨d, d', k, w', hd, hd', hk, hmembers⟩ :=
    exists_rebuilt reachable_garage album exportable_album Workspace.empty
  refine ⟨rfl, rfl, d, d', k, w', hd, hd', hk, ?_⟩
  obtain ⟨c', _, hc', hnil, hw'⟩ := List.forall₂_cons_left_iff.1 hmembers
  cases hnil
  rw [hw', List.map_singleton, hc'.default_eq]
  rfl

end Schema

end VersionedModel
