import VersionedModel.Proofs.Definition.Building
import VersionedModel.Proofs.Value.Json

/-!
# Describing what was built

A schema that was built from a definition is described by this definition again
(`StackDefinition.ofSchema_of_buildSchema`), whatever is nested in it, if a description can say all
that the definition says (`StackDefinition.Describable`): it has the version rule, since rules are no
data, and its numbers are numbers of values.

Descriptions go only so deep as there are stacks. That is deep enough, because what is nested in a
stack is on later ones (`ComponentDefinition.describe_of_madeAs`).
-/

namespace VersionedModel

namespace ComponentDefinition

/-- The default of a leaf. -/
def default? : ComponentDefinition → Option Json
  | leaf _ _ default _ => default
  | model .. => none

end ComponentDefinition

namespace StackDefinition

/-- All that the definition itself says can be said of a schema. -/
structure Describable (d : StackDefinition) : Prop where
  /-- The rule is the one that descriptions have. -/
  rule_eq : d.rule = .version
  /-- Values can hold the settings. -/
  settings : Json.MembersFit d.jsonSettings.toList
  /-- Values can hold the defaults. -/
  defaults : ∀ c ∈ d.components, ∀ j ∈ c.default?, j.Fits

end StackDefinition

/-! ### What values hold -/

theorem map_toJson_map_ofJson {default : Option Json} (h : ∀ j ∈ default, j.Fits) :
    (default.map Value.ofJson).map Value.toJson = default := by
  cases default with
  | none => rfl
  | some j => exact congrArg some (Value.toJson_ofJson j (h j rfl))

theorem Dict.map_toJson_map_ofJson {settings : Dict Json} (h : Json.MembersFit settings.toList) :
    (settings.map Value.ofJson).map Value.toJson = settings := by
  refine Dict.toList_injective ?_
  have hmembers := Value.entriesToJson_entriesOfJson settings.toList h
  rw [Value.entriesOfJson_eq_map, Value.entriesToJson_eq_map] at hmembers
  exact hmembers

/-! ### Descriptions -/

/-- Describe a schema and what it nests, at most `levels` levels deep. -/
def StackDefinition.describe (w : Workspace) (levels : Nat) (s : Schema) :
    Except Error StackDefinition := do
  let components ← (w.members s.stack).mapM (ComponentDefinition.describe w levels)
  return .mk s.name (s.settings.map Value.toJson) .version components

theorem ComponentDefinition.describe_leaf (w : Workspace) (levels : Nat) {c : Component Schema}
    {name : String} {kind : ValueKind} (hname : c.name = some name) (hkind : c.kind = .leaf kind) :
    ComponentDefinition.describe w levels c =
      .ok (.leaf (.ofKind kind) ⟨name, c.firstVersion, c.lastVersion, c.flags⟩
        (c.default.map Value.toJson) (!c.copyable)) := by
  cases c
  cases hname
  cases hkind
  rw [ComponentDefinition.describe]
  rfl

theorem ComponentDefinition.describe_model (w : Workspace) (levels : Nat) (t : Terms) (s : Schema)
    (id : ComponentId) :
    ComponentDefinition.describe w (levels + 1) { t.component (.model s) with id := id } =
      .model t <$> StackDefinition.describe w levels s := by
  rw [ComponentDefinition.describe, StackDefinition.describe, map_bind]
  rfl

mutual

/-- What was made from a definition is described by it. -/
theorem ComponentDefinition.describe_of_madeAs {w : Workspace} (d : ComponentDefinition)
    {floor levels : Nat} (hlevels : w.stackTable.length ≤ floor + levels) {c : Component Schema}
    (hmade : d.MadeAs w floor c) (hdefault : ∀ j ∈ d.default?, j.Fits)
    (h : ∀ p ∈ d.parts, p.Describable) :
    ComponentDefinition.describe w levels c = .ok d := by
  match d with
  | .leaf kind t default exclusive =>
    have hdefault : ∀ j ∈ default, j.Fits := hdefault
    obtain ⟨id, rfl⟩ : ∃ id, c = { t.component (.leaf kind.val) with
        id := id
        default := default.map Value.ofJson
        copyable := !exclusive } := ⟨c.id, hmade⟩
    rw [ComponentDefinition.describe_leaf w levels rfl rfl, LeafKind.ofKind_val,
      map_toJson_map_ofJson hdefault, Bool.not_not]
    rfl
  | .model t nested =>
    obtain ⟨s, hc, hs⟩ := hmade
    obtain ⟨id, rfl⟩ : ∃ id, c = { t.component (.model s) with id := id } := ⟨c.id, hc⟩
    -- There is a stack that was not passed, so one level is left at least.
    have hlt := hs.floor_lt
    obtain ⟨levels, rfl⟩ : ∃ n, levels = n + 1 := Nat.exists_eq_succ_of_ne_zero (by omega)
    rw [ComponentDefinition.describe_model,
      StackDefinition.describe_of_madeAs nested (by omega) hs h]
    rfl

theorem ComponentDefinition.mapM_describe_of_allMadeAs {w : Workspace}
    (ds : List ComponentDefinition) {floor levels : Nat}
    (hlevels : w.stackTable.length ≤ floor + levels) {ids : List ComponentId}
    (hmade : ComponentDefinition.AllMadeAs w floor ds ids)
    (hdefaults : ∀ d ∈ ds, ∀ j ∈ d.default?, j.Fits)
    (h : ∀ p ∈ ComponentDefinition.partsOf ds, p.Describable) :
    (ids.filterMap w.component?).mapM (ComponentDefinition.describe w levels) = .ok ds := by
  match ds with
  | [] =>
    cases hmade
    rfl
  | d :: ds =>
    obtain ⟨id, rest, c, rfl, hc, hd, hds⟩ := hmade
    obtain ⟨hdefault, hdefaults⟩ := List.forall_mem_cons.1 hdefaults
    obtain ⟨hp, hps⟩ := List.forall_mem_append.1 h
    rw [List.filterMap_cons, hc]
    dsimp only
    rw [List.mapM_cons, ComponentDefinition.describe_of_madeAs d hlevels hd hdefault hp,
      ComponentDefinition.mapM_describe_of_allMadeAs ds hlevels hds hdefaults hps]
    rfl

theorem StackDefinition.describe_of_madeAs {w : Workspace} (d : StackDefinition)
    {floor levels : Nat} (hlevels : w.stackTable.length ≤ floor + 1 + levels) {s : Schema}
    (hmade : d.MadeAs w floor s) (h : ∀ p ∈ d.parts, p.Describable) :
    StackDefinition.describe w levels s = .ok d := by
  match d with
  | .mk name settings rule components =>
    obtain ⟨hname, hsettings, hfloor, ids, ht, hall⟩ := hmade
    obtain ⟨⟨hrule, hd, hdefaults⟩, hparts⟩ := List.forall_mem_cons.1 h
    have hmembers : w.members s.stack = ids.filterMap w.component? := by
      rw [Workspace.members, Workspace.memberIds_eq ht]
    have hrule : rule = .version := hrule
    have hd : Json.MembersFit settings.toList := hd
    have hlevels : w.stackTable.length ≤ s.stack + 1 + levels := by omega
    rw [StackDefinition.describe, hmembers,
      ComponentDefinition.mapM_describe_of_allMadeAs components hlevels hall hdefaults hparts, hname,
      hsettings, Dict.map_toJson_map_ofJson hd, hrule]
    rfl

end

/-- **A definition that is built and described comes back as it was.** It can be built exactly if all
names of components in it are valid. -/
theorem StackDefinition.ofSchema_of_buildSchema (d : StackDefinition) (w : Workspace)
    (h : ∀ p ∈ d.parts, p.Describable) :
    ((∃ s w', d.buildSchema w = .ok s w') ↔ ∀ p ∈ d.parts, p.ValidNames) ∧
      ∀ s w', d.buildSchema w = .ok s w' → StackDefinition.ofSchema w' s = .ok d :=
  ⟨exists_buildSchema_iff d w, fun _ _ hs =>
    describe_of_madeAs d (Nat.le_add_left _ _) (madeAs_of_buildSchema hs) h⟩

/-! ### A person with an address -/

namespace StackDefinition.Sample

/-- An address: a city, which is a text, and lately a number of rooms. -/
def address : StackDefinition :=
  .mk "address" ∅ .version
    [.leaf ⟨.string, by decide⟩ ⟨"city", none, none, []⟩ (some (.string "Oslo")) true,
      .leaf ⟨.integer, by decide⟩ ⟨"rooms", some 2, none, ["beta"]⟩ (some (.integer 3)) false]

/-- A person: a name, and an address. -/
def person : StackDefinition :=
  .mk "person" (.ofList [(versionKey, .integer 1)]) .version
    [.leaf ⟨.string, by decide⟩ ⟨"name", none, none, []⟩ none false,
      .model ⟨"home", none, some 4, []⟩ address]

theorem describable_person : ∀ p ∈ person.parts, p.Describable := by
  have hperson : person.Describable := by
    refine ⟨rfl, ⟨⟨1, rfl⟩, trivial⟩, fun c hc j hj => ?_⟩
    simp only [person, components, List.mem_cons, List.not_mem_nil, or_false] at hc
    rcases hc with rfl | rfl <;> cases hj
  have haddress : address.Describable := by
    refine ⟨rfl, trivial, fun c hc j hj => ?_⟩
    simp only [address, components, List.mem_cons, List.not_mem_nil, or_false] at hc
    rcases hc with rfl | rfl
    · cases hj
      trivial
    · cases hj
      exact ⟨3, rfl⟩
  rw [show person.parts = [person, address] from rfl]
  exact List.forall_mem_cons.2 ⟨hperson, List.forall_mem_singleton.2 haddress⟩

theorem validNames_person : ∀ p ∈ person.parts, p.ValidNames := by
  have hperson : person.ValidNames := by
    simp only [ValidNames, person, components, List.forall_mem_cons]
    exact ⟨rfl, rfl, fun _ h => absurd h List.not_mem_nil⟩
  have haddress : address.ValidNames := by
    simp only [ValidNames, address, components, List.forall_mem_cons]
    exact ⟨rfl, rfl, fun _ h => absurd h List.not_mem_nil⟩
  rw [show person.parts = [person, address] from rfl]
  exact List.forall_mem_cons.2 ⟨hperson, List.forall_mem_singleton.2 haddress⟩

end StackDefinition.Sample

namespace StackDefinition

open Sample (person describable_person validNames_person)

/-- The person can be built, and is described as it was. -/
theorem ofSchema_of_buildSchema_person :
    (∀ p ∈ person.parts, p.Describable) ∧
      ∃ s w', person.buildSchema Workspace.empty = .ok s w' ∧ ofSchema w' s = .ok person := by
  obtain ⟨hiff, hsame⟩ := ofSchema_of_buildSchema person Workspace.empty describable_person
  obtain ⟨s, w', hs⟩ := hiff.2 validNames_person
  exact ⟨describable_person, s, w', hs, hsame s w' hs⟩

end StackDefinition

end VersionedModel
