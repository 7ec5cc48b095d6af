import VersionedModel.Definition.Build
import VersionedModel.Proofs.Schema.Compilation
import VersionedModel.Proofs.Workspace.Naming

/-!
# Building what a definition describes

A definition can be built, in whatever workspace, exactly if all names of components in it are
valid, at every depth (`StackDefinition.exists_buildSchema_iff`). What building makes of it is told
by `StackDefinition.MadeAs`: the schema's stack holds one component for each that is described, in
order, and the schemas that these nest are made from the nested definitions.

Building touches nothing that was there before (`Workspace.KeepsBut`), and nested schemas are on
stacks that were made later than the one they are nested in. So what was made stays as it was made
while the stack around it is filled.
-/

namespace VersionedModel

open Workspace (Action)

/-! ### Parts -/

mutual

/-- The definitions in a component's definition, at every depth. -/
def ComponentDefinition.parts : ComponentDefinition → List StackDefinition
  | .leaf .. => []
  | .model _ model => model.parts

/-- The definitions in components' definitions, at every depth. -/
def ComponentDefinition.partsOf : List ComponentDefinition → List StackDefinition
  | [] => []
  | c :: cs => c.parts ++ ComponentDefinition.partsOf cs

/-- A definition and those in it, at every depth. -/
def StackDefinition.parts : StackDefinition → List StackDefinition
  | .mk name settings rule components =>
    .mk name settings rule components :: ComponentDefinition.partsOf components

end

namespace StackDefinition

/-- The names of the components are valid. -/
def ValidNames (d : StackDefinition) : Prop :=
  ∀ c ∈ d.components, Path.validateName c.name = .ok ()

end StackDefinition

/-! ### What is kept -/

namespace Workspace

/-- All components are kept as they were, and all stacks that stay. -/
structure Keeps (stays : StackId → Prop) (w w' : Workspace) : Prop where
  /-- Components are kept. -/
  component? : ∀ id c, w.component? id = some c → w'.component? id = some c
  /-- Stacks are kept. -/
  stack? : ∀ s t, stays s → w.stack? s = some t → w'.stack? s = some t

section Keeps

variable {stays stays' : StackId → Prop} {w w' w'' : Workspace}

theorem Keeps.refl (stays : StackId → Prop) (w : Workspace) : Keeps stays w w :=
  ⟨fun _ _ h => h, fun _ _ _ h => h⟩

theorem Keeps.trans (h : Keeps stays w w') (h' : Keeps stays w' w'') : Keeps stays w w'' :=
  ⟨fun id c hc => h'.component? id c (h.component? id c hc),
    fun s t hs ht => h'.stack? s t hs (h.stack? s t hs ht)⟩

theorem Keeps.mono (hle : ∀ s, stays' s → stays s) (h : Keeps stays w w') : Keeps stays' w w' :=
  ⟨h.component?, fun s t hs => h.stack? s t (hle s hs)⟩

theorem keeps_declare (w : Workspace) (c : Component Schema) :
    Keeps (fun _ => True) w (w.declare c).2 := by
  refine ⟨fun id c' hc' => ?_, fun _ _ _ h => h⟩
  have hid : id < w.holdings.length := component?_isSome.1 (by simp [hc'])
  rwa [component?_declare, if_neg (Nat.ne_of_lt hid)]

theorem lt_of_stack? {s : StackId} {t : Stack} (h : w.stack? s = some t) :
    s < w.stackTable.length :=
  (stackTable_eq h).choose

/-- The only stack that does not stay was just made, so all stacks are kept. -/
theorem keeps_of_openStack {rule : Rule}
    (h : Keeps (· ≠ w.stackTable.length) (w.openStack rule).2 w') :
    Keeps (fun _ => True) w w' := by
  refine ⟨h.component?, fun s t _ ht => ?_⟩
  have hlt := lt_of_stack? ht
  refine h.stack? s t (Nat.ne_of_lt hlt) ?_
  rw [stack?] at ht ⊢
  exact (congrArg Option.join (List.getElem?_append_left hlt)).trans ht

end Keeps

variable {k : StackId} {w : Workspace} {id : ComponentId} {c : Component Schema}

theorem stack?_openStack (w : Workspace) (rule : Rule) :
    (w.openStack rule).2.stack? w.stackTable.length = some ⟨rule, []⟩ := by
  simp [Workspace.openStack, stack?]

theorem getElem?_declare (w : Workspace) (c : Component Schema) :
    (w.declare c).2.holdings[w.holdings.length]? =
      some ⟨{ c with id := w.holdings.length }, false⟩ :=
  List.getElem?_concat_length

/-- What a workspace is when a component has been put on a stack. -/
def enter (w : Workspace) (k : StackId) (id : ComponentId) : Workspace :=
  (w.mark id true).setMembers k (w.memberIds k ++ [id])

theorem component?_enter (j : ComponentId) : (w.enter k id).component? j = w.component? j := by
  rw [enter, component?_setMembers, component?_mark]

theorem stack?_enter {t : Stack} (ht : w.stack? k = some t) :
    (w.enter k id).stack? k = some ⟨t.rule, t.members ++ [id]⟩ := by
  rw [enter, memberIds_eq ht]
  exact Schema.stack?_setMembers ht _

theorem keeps_enter : Keeps (· ≠ k) w (w.enter k id) := by
  refine ⟨fun j c hc => (component?_enter j).trans hc, fun s t hs ht => ?_⟩
  refine Eq.trans (congrArg Option.join ?_) ht
  exact List.getElem?_modify_ne _ _ (Ne.symm hs)

/-- A component that nobody owns is put on a stack if its name is valid. -/
theorem push_built_apply {t : Stack} {name : String} (ht : w.stack? k = some t)
    (hid : w.holdings[id]? = some ⟨c, false⟩) (hname : c.name = some name) :
    Workspace.push k (.built id) w =
      match Path.validateName name with
      | .error e => .error e ((w.mark id true).mark id false)
      | .ok () => .ok id (w.enter k id) := by
  have hc : (w.mark id true).component? id = some c := by
    rw [component?_mark, component?, hid]
    rfl
  rw [Workspace.push, add_apply, ht, receive_apply, arrive, claim_apply]
  simp only [Option.isNone_some, Bool.false_eq_true, if_false, hid]
  rw [settleName_apply, hc]
  simp only [hname, Option.some_or, Option.isSome_some, if_true]
  cases Path.validateName name <;> rfl

end Workspace

/-! ### What is made -/

open Workspace (Keeps)

mutual

/-- The component was made from the definition. A schema that it nests is on a stack no earlier
than a given one. -/
def ComponentDefinition.MadeAs (w : Workspace) (floor : Nat) :
    ComponentDefinition → Component Schema → Prop
  | .leaf kind t default exclusive, c =>
    c = { t.component (.leaf kind.val) with
      id := c.id
      default := default.map Value.ofJson
      copyable := !exclusive }
  | .model t model, c =>
    ∃ s, c = { t.component (.model s) with id := c.id } ∧ model.MadeAs w floor s

/-- The components with these identities were made from the definitions, one from each. -/
def ComponentDefinition.AllMadeAs (w : Workspace) (floor : Nat) :
    List ComponentDefinition → List ComponentId → Prop
  | [], ids => ids = []
  | d :: ds, ids => ∃ id rest c, ids = id :: rest ∧ w.component? id = some c ∧
      d.MadeAs w floor c ∧ ComponentDefinition.AllMadeAs w floor ds rest

/-- The schema was made from the definition, on a stack no earlier than a given one; those that it
nests are on later stacks. -/
def StackDefinition.MadeAs (w : Workspace) (floor : Nat) : StackDefinition → Schema → Prop
  | .mk name settings rule components, s =>
    s.name = name ∧ s.settings = settings.map Value.ofJson ∧ floor ≤ s.stack ∧
      ∃ ids, w.stack? s.stack = some ⟨rule.rule, ids⟩ ∧
        ComponentDefinition.AllMadeAs w (s.stack + 1) components ids

end

mutual

/-- What was made stays as it was made while only earlier stacks change. -/
theorem ComponentDefinition.MadeAs.keep {w w' : Workspace} (d : ComponentDefinition) {floor : Nat}
    (h : Keeps (floor ≤ ·) w w') {c : Component Schema} (hd : d.MadeAs w floor c) :
    d.MadeAs w' floor c := by
  match d with
  | .leaf .. => exact hd
  | .model t model =>
    obtain ⟨s, hc, hs⟩ := hd
    exact ⟨s, hc, StackDefinition.MadeAs.keep model h hs⟩

theorem ComponentDefinition.AllMadeAs.keep {w w' : Workspace} (ds : List ComponentDefinition)
    {floor : Nat} (h : Keeps (floor ≤ ·) w w') {ids : List ComponentId}
    (hds : ComponentDefinition.AllMadeAs w floor ds ids) :
    ComponentDefinition.AllMadeAs w' floor ds ids := by
  match ds with
  | [] => exact hds
  | d :: ds =>
    obtain ⟨id, rest, c, hids, hc, hd, hds⟩ := hds
    exact ⟨id, rest, c, hids, h.component? id c hc, ComponentDefinition.MadeAs.keep d h hd,
      ComponentDefinition.AllMadeAs.keep ds h hds⟩

theorem StackDefinition.MadeAs.keep {w w' : Workspace} (d : StackDefinition) {floor : Nat}
    (h : Keeps (floor ≤ ·) w w') {s : Schema} (hd : d.MadeAs w floor s) : d.MadeAs w' floor s := by
  match d with
  | .mk name settings rule components =>
    obtain ⟨hname, hsettings, hfloor, ids, ht, hall⟩ := hd
    have hlater : Keeps (s.stack + 1 ≤ ·) w w' :=
      h.mono fun _ hle => Nat.le_trans hfloor (Nat.le_of_succ_le hle)
    exact ⟨hname, hsettings, hfloor, ids, h.stack? _ _ hfloor ht,
      ComponentDefinition.AllMadeAs.keep components hlater hall⟩

end

namespace ComponentDefinition

variable {w : Workspace} {floor : Nat}

theorem MadeAs.name_eq {d : ComponentDefinition} {c : Component Schema} (h : d.MadeAs w floor c) :
    c.name = some d.name := by
  cases d with
  | leaf kind t default exclusive =>
    rw [MadeAs] at h
    rw [h]
    rfl
  | model t model =>
    obtain ⟨s, h, -⟩ := h
    rw [h]
    rfl

theorem forall₂_of_allMadeAs {ds : List ComponentDefinition} {ids : List ComponentId}
    (h : AllMadeAs w floor ds ids) :
    List.Forall₂ (fun d c => d.MadeAs w floor c) ds (ids.filterMap w.component?) := by
  induction ds generalizing ids with
  | nil =>
    cases h
    exact .nil
  | cons d ds ih =>
    obtain ⟨id, rest, c, rfl, hc, hd, hds⟩ := h
    rw [List.filterMap_cons, hc]
    exact .cons hd (ih hds)

theorem MadeAs.mono {d : ComponentDefinition} {c : Component Schema} {floor' : Nat}
    (hle : floor' ≤ floor) (h : d.MadeAs w floor c) : d.MadeAs w floor' c := by
  cases d with
  | leaf kind t default exclusive => exact h
  | model t model =>
    obtain ⟨s, hc, hs⟩ := h
    cases model
    obtain ⟨hname, hsettings, hfloor, hrest⟩ := hs
    exact ⟨s, hc, hname, hsettings, Nat.le_trans hle hfloor, hrest⟩

end ComponentDefinition

theorem StackDefinition.MadeAs.floor_lt {w : Workspace} {floor : Nat} {d : StackDefinition}
    {s : Schema} (h : d.MadeAs w floor s) : floor < w.stackTable.length := by
  cases d
  obtain ⟨-, -, hfloor, ids, ht, -⟩ := h
  exact Nat.lt_of_le_of_lt hfloor (Workspace.lt_of_stack? ht)

/-! ### Building -/

mutual

theorem ComponentDefinition.exists_build (d : ComponentDefinition) (w : Workspace)
    (h : ∀ p ∈ d.parts, p.ValidNames) :
    ∃ id w' c, d.build w = .ok id w' ∧ Keeps (fun _ => True) w w' ∧
      w'.holdings[id]? = some ⟨c, false⟩ ∧ d.MadeAs w' w.stackTable.length c := by
  match d with
  | .leaf kind t default exclusive =>
    refine ⟨w.holdings.length, _, _, rfl, Workspace.keeps_declare w _,
      Workspace.getElem?_declare w _, ?_⟩
    rw [ComponentDefinition.MadeAs]
  | .model t model =>
    obtain ⟨s, w', hs, hkeep, hmade⟩ := StackDefinition.exists_buildSchema model w h
    have hdeclare := Workspace.keeps_declare w' (t.component (.model s))
    refine ⟨w'.holdings.length, (w'.declare (t.component (.model s))).2, _, ?_,
      hkeep.trans hdeclare, Workspace.getElem?_declare w' _, s, rfl, ?_⟩
    · rw [ComponentDefinition.build, Outcome.bind_apply, hs]
      rfl
    · exact StackDefinition.MadeAs.keep model (hdeclare.mono fun _ _ => trivial) hmade

theorem ComponentDefinition.exists_pushAll (ds : List ComponentDefinition) (w : Workspace)
    {k : StackId} {rule : Rule} {ids : List ComponentId} (ht : w.stack? k = some ⟨rule, ids⟩)
    (hnames : ∀ d ∈ ds, Path.validateName d.name = .ok ())
    (h : ∀ p ∈ ComponentDefinition.partsOf ds, p.ValidNames) :
    ∃ w' new, ComponentDefinition.pushAll k ds w = .ok () w' ∧ Keeps (· ≠ k) w w' ∧
      w'.stack? k = some ⟨rule, ids ++ new⟩ ∧
      ComponentDefinition.AllMadeAs w' (k + 1) ds new := by
  match ds with
  | [] => exact ⟨w, [], rfl, .refl _ w, by rwa [List.append_nil], rfl⟩
  | d :: ds =>
    obtain ⟨hname, hnames⟩ := List.forall_mem_cons.1 hnames
    obtain ⟨hd, hds⟩ := List.forall_mem_append.1 h
    obtain ⟨id, w₁, c, hbuild, hkeep₁, hid, hmade⟩ := ComponentDefinition.exists_build d w hd
    have ht₁ := hkeep₁.stack? k _ trivial ht
    have hpush := Workspace.push_built_apply ht₁ hid hmade.name_eq
    rw [hname] at hpush
    have hkeep₂ : Keeps (· ≠ k) w₁ (w₁.enter k id) := Workspace.keeps_enter
    obtain ⟨w', new, hall, hkeep₃, ht', hmades⟩ := ComponentDefinition.exists_pushAll ds
      (w₁.enter k id) (Workspace.stack?_enter ht₁) hnames hds
    have hkeep : Keeps (· ≠ k) w₁ w' := hkeep₂.trans hkeep₃
    refine ⟨w', id :: new, ?_, (hkeep₁.mono fun _ _ => trivial).trans hkeep, ?_, id, new, c, rfl,
      ?_, ?_, hmades⟩
    · rw [ComponentDefinition.pushAll, Outcome.bind_apply, hbuild]
      dsimp only
      rw [Outcome.bind_apply, hpush]
      exact hall
    · rw [ht', List.append_assoc, List.singleton_append]
    · refine hkeep.component? id c ?_
      rw [Workspace.component?, hid]
      rfl
    · -- What the component nests is on stacks behind this one.
      have hk : k + 1 ≤ w.stackTable.length := Workspace.lt_of_stack? ht
      refine ComponentDefinition.MadeAs.keep d (hkeep.mono fun s hs => ?_) (hmade.mono hk)
      exact Nat.ne_of_gt hs

theorem StackDefinition.exists_buildSchema (d : StackDefinition) (w : Workspace)
    (h : ∀ p ∈ d.parts, p.ValidNames) :
    ∃ s w', d.buildSchema w = .ok s w' ∧ Keeps (fun _ => True) w w' ∧
      d.MadeAs w' w.stackTable.length s := by
  match d with
  | .mk name settings rule components =>
    obtain ⟨hnames, hparts⟩ := List.forall_mem_cons.1 h
    obtain ⟨w', ids, hall, hkeep, ht, hmade⟩ := ComponentDefinition.exists_pushAll components
      (w.openStack rule.rule).2 (Workspace.stack?_openStack w rule.rule) hnames hparts
    obtain ⟨bindings, hs⟩ :=
      Schema.exists_ofStack name w.stackTable.length (settings.map Value.ofJson) w'
    refine ⟨.mk name (settings.map Value.ofJson) w.stackTable.length bindings, w', ?_,
      Workspace.keeps_of_openStack hkeep, rfl, rfl, Nat.le_refl _, ids, ht, hmade⟩
    rw [StackDefinition.buildSchema, Workspace.withStack_apply, Outcome.bind_apply, hall]
    dsimp only
    rw [hs]

end

/-- The members of the stack that a definition is built to are made from its components. -/
theorem StackDefinition.exists_buildStack (d : StackDefinition) (w : Workspace)
    (h : ∀ p ∈ d.parts, p.ValidNames) :
    ∃ k w' floor, d.buildStack w = .ok k w' ∧
      List.Forall₂ (fun p c => p.MadeAs w' floor c) d.components (w'.members k) := by
  cases d with
  | mk name settings rule components =>
    obtain ⟨hnames, hparts⟩ := List.forall_mem_cons.1 h
    obtain ⟨w', ids, hall, -, ht, hmade⟩ := ComponentDefinition.exists_pushAll components
      (w.openStack rule.rule).2 (Workspace.stack?_openStack w rule.rule) hnames hparts
    refine ⟨w.stackTable.length, w', w.stackTable.length + 1, ?_, ?_⟩
    · rw [buildStack, StackDefinition.rule, StackDefinition.components, Workspace.withStack_apply,
        Outcome.bind_apply, hall]
      rfl
    · rw [Workspace.members, Workspace.memberIds_eq ht]
      exact ComponentDefinition.forall₂_of_allMadeAs hmade

/-! ### Building fails -/

mutual

theorem ComponentDefinition.validNames_of_build (d : ComponentDefinition) {w w' : Workspace}
    {id : ComponentId} (h : d.build w = .ok id w') : ∀ p ∈ d.parts, p.ValidNames := by
  match d with
  | .leaf .. => exact fun p hp => absurd hp List.not_mem_nil
  | .model t model =>
    obtain ⟨s, w₁, hs, -⟩ := Outcome.bind_apply_eq_ok.1 h
    exact StackDefinition.validNames_of_buildSchema model hs

theorem ComponentDefinition.validNames_of_pushAll (ds : List ComponentDefinition)
    {w w' : Workspace} {k : StackId} {t : Stack} (ht : w.stack? k = some t)
    (h : ComponentDefinition.pushAll k ds w = .ok () w') :
    (∀ d ∈ ds, Path.validateName d.name = .ok ()) ∧
      ∀ p ∈ ComponentDefinition.partsOf ds, p.ValidNames := by
  match ds with
  | [] => exact ⟨fun d hd => absurd hd List.not_mem_nil, fun p hp => absurd hp List.not_mem_nil⟩
  | d :: ds =>
    obtain ⟨id, w₁, hbuild, h⟩ := Outcome.bind_apply_eq_ok.1 h
    obtain ⟨_, w₂, hpush, h⟩ := Outcome.bind_apply_eq_ok.1 h
    have hd := ComponentDefinition.validNames_of_build d hbuild
    -- Now it is known what was built.
    obtain ⟨id', w₁', c, hbuild', hkeep, hid, hmade⟩ := ComponentDefinition.exists_build d w hd
    obtain ⟨rfl, rfl⟩ : id = id' ∧ w₁ = w₁' := by
      rw [hbuild] at hbuild'
      cases hbuild'
      exact ⟨rfl, rfl⟩
    have ht₁ := hkeep.stack? k t trivial ht
    rw [Workspace.push_built_apply ht₁ hid hmade.name_eq] at hpush
    split at hpush
    · cases hpush
    · next hname =>
      cases hpush
      obtain ⟨hnames, hds⟩ := ComponentDefinition.validNames_of_pushAll ds
        (Workspace.stack?_enter ht₁) h
      exact ⟨List.forall_mem_cons.2 ⟨hname, hnames⟩, List.forall_mem_append.2 ⟨hd, hds⟩⟩

theorem StackDefinition.validNames_of_buildSchema (d : StackDefinition) {w w' : Workspace}
    {s : Schema} (h : d.buildSchema w = .ok s w') : ∀ p ∈ d.parts, p.ValidNames := by
  match d with
  | .mk name settings rule components =>
    rw [StackDefinition.buildSchema, Workspace.withStack_apply, Outcome.bind_apply] at h
    cases hall : ComponentDefinition.pushAll w.stackTable.length components
        (w.openStack rule.rule).2 with
    | error e w₁ =>
      rw [hall] at h
      cases h
    | ok u w₁ =>
      exact List.forall_mem_cons.2 (ComponentDefinition.validNames_of_pushAll components
        (Workspace.stack?_openStack w rule.rule) hall)

end

/-- **A definition can be built exactly if all names of components in it are valid**, at every
depth. -/
theorem StackDefinition.exists_buildSchema_iff (d : StackDefinition) (w : Workspace) :
    (∃ s w', d.buildSchema w = .ok s w') ↔ ∀ p ∈ d.parts, p.ValidNames := by
  constructor
  · rintro ⟨s, w', h⟩
    exact validNames_of_buildSchema d h
  · intro h
    obtain ⟨s, w', hs, -⟩ := exists_buildSchema d w h
    exact ⟨s, w', hs⟩

/-- What a definition was built to was made from it. -/
theorem StackDefinition.madeAs_of_buildSchema {d : StackDefinition} {w w' : Workspace} {s : Schema}
    (h : d.buildSchema w = .ok s w') : d.MadeAs w' w.stackTable.length s := by
  obtain ⟨s', w'', hs, -, hmade⟩ := exists_buildSchema d w (validNames_of_buildSchema d h)
  rw [h] at hs
  cases hs
  exact hmade

end VersionedModel
