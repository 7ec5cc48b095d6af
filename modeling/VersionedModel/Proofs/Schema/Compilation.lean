import VersionedModel.Proofs.Bindings.WellFormed
import VersionedModel.Proofs.Lookup
import VersionedModel.Proofs.Workspace.Matching
import VersionedModel.Proofs.Workspace.Ownership

/-!
# What compilations give

However a schema is compiled, its binding table is well formed and its primaries are bound to
members of its stack, under the names that these have (`Schema.Coherent`). A schema that was built
from a declaration has all members of its stack for primaries, in order (`Schema.Exact`). Both last
as long as the stack is left alone (`Schema.Coherent.later`), whatever else is done to the
workspace.
-/

namespace VersionedModel

namespace Component

variable {c : Component Schema}

theorem schema?_eq_some_iff {t : Schema} : c.schema? = some t ↔ c.kind = .model t := by
  rw [schema?]
  cases c.kind <;> simp

theorem schema?_eq_none_iff : c.schema? = none ↔ ∃ k, c.kind = .leaf k := by
  rw [schema?]
  cases c.kind <;> simp

end Component

namespace Schema

open Workspace (Action Accounted Orderly Later Reachable)
open Workspace.Action (Ensures)

/-! ### Ways to compile -/

/-- A way to compile a schema. -/
inductive Compilation where
  /-- From a declaration. -/
  | build (d : Declaration)
  /-- From what a stack matches. -/
  | ofStack (name : String) (stack : StackId) (settings : Settings)
  /-- From loose components. -/
  | ofComponents (name : String) (args : List Argument) (settings : Settings)
  /-- The schema without fields. -/
  | empty (name : String)

/-- Compile. -/
def Compilation.run : Compilation → Action Schema
  | .build d => Schema.build d
  | .ofStack name stack settings => Schema.ofStack name stack settings
  | .ofComponents name args settings => Schema.ofComponents name args settings
  | .empty name => Schema.empty name

/-- A schema that was compiled in some way, in a workspace that a run led to. -/
def Compiled (s : Schema) : Prop :=
  ∃ (c : Compilation) (before after : Workspace), before.Reachable ∧ c.run before = .ok s after

/-- In the workspace `w`, to which a run has led since, the schema's stack is as it was when the
schema was compiled in a way that `how` allows. -/
def Kept (how : Compilation → Prop) (w : Workspace) (s : Schema) : Prop :=
  ∃ (c : Compilation) (before after : Workspace) (since : List Workspace.Operation),
    how c ∧ before.Reachable ∧ c.run before = .ok s after ∧ w = after.run since ∧
      w.stack? s.stack = after.stack? s.stack

/-- A property of a schema and of those that it nests, at every depth. -/
inductive Everywhere (P : Schema → Prop) : Schema → Prop
  | intro {s : Schema} (here : P s)
      (nested : ∀ p ∈ s.primaries, ∀ t, p.target.schema? = some t → Everywhere P t) :
      Everywhere P s

theorem Everywhere.here {P : Schema → Prop} {s : Schema} (h : Everywhere P s) : P s := by
  cases h
  assumption

theorem Everywhere.nested {P : Schema → Prop} {s : Schema} (h : Everywhere P s)
    {p : Primary (Component Schema)} (hp : p ∈ s.primaries) {t : Schema}
    (ht : p.target.schema? = some t) : Everywhere P t := by
  cases h with
  | intro _ nested => exact nested p hp t ht

theorem Everywhere.mono {P Q : Schema → Prop} (h : ∀ s, P s → Q s) {s : Schema}
    (hs : Everywhere P s) : Everywhere Q s := by
  induction hs with
  | intro here _ ih => exact .intro (h _ here) ih

/-! ### Schemas that fit their stacks -/

/-- The table is well formed, and every primary is bound to a member of the stack, under its
name. -/
structure Coherent (w : Workspace) (s : Schema) : Prop where
  /-- The table. -/
  wellFormed : Bindings.WellFormed s.bindings
  /-- The members. -/
  mem_members : ∀ p ∈ s.primaries, p.target ∈ w.members s.stack
  /-- The names. -/
  name_eq : ∀ p ∈ s.primaries, p.target.name = some p.name

/-- The members of the stack are the primaries' components, in order. -/
structure Exact (w : Workspace) (s : Schema) : Prop extends Coherent w s where
  /-- The members. -/
  members_eq : w.members s.stack = s.primaries.map Primary.target

theorem mem_members_later {w w' : Workspace} (h : Later w w') {s : StackId}
    (hs : w'.stack? s = w.stack? s) {c : Component Schema} (hc : c ∈ w.members s)
    (hn : c.name.isSome) : c ∈ w'.members s := by
  simp only [Workspace.members, Workspace.memberIds, List.mem_filterMap, hs] at hc ⊢
  obtain ⟨id, hid, hc⟩ := hc
  exact ⟨id, hid, h id c hc hn⟩

/-- A schema goes on fitting its stack while the stack is left alone. -/
theorem Coherent.later {w w' : Workspace} {s : Schema} (h : Coherent w s) (hl : Later w w')
    (hs : w'.stack? s.stack = w.stack? s.stack) : Coherent w' s where
  wellFormed := h.wellFormed
  mem_members p hp :=
    mem_members_later hl hs (h.mem_members p hp) (by simp [h.name_eq p hp])
  name_eq := h.name_eq

theorem members_eq_later {w w' : Workspace} (hw : Accounted [] w) (h : Later w w') {s : StackId}
    (hs : w'.stack? s = w.stack? s) : w'.members s = w.members s := by
  have hids : w'.memberIds s = w.memberIds s := by rw [Workspace.memberIds, Workspace.memberIds, hs]
  rw [Workspace.members, Workspace.members, hids]
  refine List.filterMap_congr fun id hid => ?_
  obtain ⟨c, name, hc, hn, -⟩ := hw.named id (Workspace.mem_allMembers_of_mem_memberIds hid)
  rw [hc, h id c hc (by simp [hn])]

theorem Exact.later {w w' : Workspace} {s : Schema} (h : Exact w s) (hw : Accounted [] w)
    (hl : Later w w') (hs : w'.stack? s.stack = w.stack? s.stack) : Exact w' s where
  toCoherent := h.toCoherent.later hl hs
  members_eq := (members_eq_later hw hl hs).trans h.members_eq

/-- The primaries have different names, so the members have. -/
theorem Exact.nodup_names {w : Workspace} {s : Schema} (h : Exact w s) :
    ((w.members s.stack).map Component.name).Nodup := by
  have hnames : (w.members s.stack).map Component.name =
      (s.primaries.map Primary.name).map some := by
    rw [h.members_eq, List.map_map, List.map_map]
    exact List.map_congr_left h.name_eq
  rw [hnames]
  exact h.wellFormed.nodup_names.map fun _ _ => Option.some.inj

/-! ### Building from a declaration -/

/-- The primaries of a draft are the members of its stack, under their names. -/
structure Tracked (w₀ : Workspace) (rule : Rule) (stack : StackId) (d : Draft) (w : Workspace) :
    Prop where
  /-- The workspace. -/
  orderly : Orderly w₀ w
  /-- The table. -/
  wellFormed : Bindings.WellFormed d.bindings
  /-- The stack. -/
  stack?_eq : w.stack? stack =
    some ⟨rule, (Bindings.primaries d.bindings).map fun p => p.target.id⟩
  /-- The components. -/
  component?_eq : ∀ p ∈ Bindings.primaries d.bindings, w.component? p.target.id = some p.target
  /-- The names. -/
  name_eq : ∀ p ∈ Bindings.primaries d.bindings, p.target.name = some p.name

section Build

variable {w₀ : Workspace} {rule : Rule} {stack : StackId}

theorem Tracked.bindAlias {d : Draft} {w : Workspace} (h : Tracked w₀ rule stack d w)
    {name target : String} {table : List (Binding (Component Schema))}
    (hb : Bindings.bindAlias d.bindings name target = .ok table)
    (seen : List (ComponentId × String)) : Tracked w₀ rule stack ⟨table, seen⟩ w := by
  obtain ⟨hwf, hp⟩ := h.wellFormed.bindAlias hb
  exact ⟨h.orderly, hwf, by rw [hp]; exact h.stack?_eq, by rw [hp]; exact h.component?_eq,
    by rw [hp]; exact h.name_eq⟩

theorem stack?_setMembers {w : Workspace} {s : StackId} {t : Stack} (h : w.stack? s = some t)
    (ids : List ComponentId) :
    (w.setMembers s ids).stack? s = some { t with members := ids } := by
  simp only [Workspace.stack?, Workspace.setMembers, List.getElem?_modify_eq]
  rw [Workspace.stack?, Option.join_eq_some_iff] at h
  rw [h]
  rfl

/-- What is added to the stack is bound under its name. -/
theorem Tracked.bind {d : Draft} {w w' : Workspace} (h : Tracked w₀ rule stack d w)
    {arg : Argument} {offered : Option String} {id : ComponentId} {c : Component Schema}
    {name : String} {table : List (Binding (Component Schema))}
    (hadd : Workspace.add stack arg offered w = .ok id w') (hc : w'.component? id = some c)
    (hname : c.name = some name) (hb : Bindings.bind d.bindings name c = .ok table)
    (seen : List (ComponentId × String)) : Tracked w₀ rule stack ⟨table, seen⟩ w' := by
  have hspec := Workspace.add_spec h.orderly.accounted stack arg offered
  rw [hadd] at hspec
  obtain ⟨ho, -, -, hst⟩ := hspec
  obtain ⟨hwf, hp⟩ := h.wellFormed.bind hb
  have hid : c.id = id := ho.accounted.id_eq id c hc
  refine ⟨h.orderly.trans ho, hwf, ?_, ?_, ?_⟩
  · rw [Workspace.stack?_of_stackTable_eq hst, stack?_setMembers h.stack?_eq, hp,
      Workspace.memberIds_eq h.stack?_eq, List.map_append, List.map_singleton, hid]
  · rw [hp]
    intro p hmem
    rcases List.mem_append.1 hmem with hmem | hmem
    · -- A component with a name is not changed any more.
      exact ho.later _ _ (h.component?_eq p hmem) (by simp [h.name_eq p hmem])
    · rw [List.mem_singleton.1 hmem]
      exact hid ▸ hc
  · rw [hp]
    intro p hmem
    rcases List.mem_append.1 hmem with hmem | hmem
    · exact h.name_eq p hmem
    · rw [List.mem_singleton.1 hmem]
      exact hname

theorem step_apply {α : Type} (x : Except Error α) (w : Workspace) :
    step x w =
      match x with
      | .ok a => .ok a w
      | .error e => .error e w := by
  cases x <;> rfl

/-- Binding the other name of a component is the last thing that is done to it. -/
theorem Tracked.compileFresh (d : Draft) (name : String) (arg : Argument) :
    Ensures (Tracked w₀ rule stack d) (compileFresh stack d name arg)
      (Tracked w₀ rule stack) fun _ => True := by
  intro w hw
  unfold Schema.compileFresh
  rw [Outcome.bind_apply]
  have hspec := Workspace.add_spec hw.orderly.accounted stack arg (some name)
  cases hadd : Workspace.add stack arg (some name) w with
  | error e w' => trivial
  | ok id w' =>
    rw [hadd] at hspec
    obtain ⟨-, ⟨c, own, hc, hown, -⟩, -⟩ := hspec
    obtain ⟨h, hh, rfl⟩ := Option.map_eq_some_iff.1 hc
    dsimp only
    rw [Outcome.bind_apply, Workspace.holding_apply, hh]
    dsimp only
    rw [hown, Option.getD_some, Outcome.bind_apply, step_apply]
    cases hb : Bindings.bind d.bindings own h.component with
    | error e => trivial
    | ok bound =>
      have htracked := fun seen => hw.bind hadd hc hown hb seen
      dsimp only
      -- A component that has a name of its own is found under the declared one, too.
      by_cases hsame : own = name
      · rw [if_pos hsame]
        exact htracked _
      · rw [if_neg hsame, Outcome.bind_apply, step_apply]
        cases halias : Bindings.bindAlias bound name own with
        | error e => trivial
        | ok bound' => exact (htracked d.seen).bindAlias halias _

theorem Tracked.compileMember (d : Draft) (m : Member) :
    Ensures (Tracked w₀ rule stack d) (compileMember stack d m)
      (Tracked w₀ rule stack) fun _ => True := by
  have halias : ∀ name target, Ensures (Tracked w₀ rule stack d)
      (do return { d with bindings := ← step (Bindings.bindAlias d.bindings name target) })
      (Tracked w₀ rule stack) fun _ => True := by
    intro name target w hw
    rw [Outcome.bind_apply, step_apply]
    cases hb : Bindings.bindAlias d.bindings name target with
    | error e => trivial
    | ok table => exact hw.bindAlias hb d.seen
  have hensure : ∀ x : Except Error Unit, Ensures (Tracked w₀ rule stack d) (Workspace.ensure x)
      (fun _ => Tracked w₀ rule stack d) fun _ => True := by
    intro x w hw
    rw [Workspace.ensure_apply]
    cases x with
    | error e => trivial
    | ok u => exact hw
  cases m with
  | field name arg =>
    refine (hensure _).bind fun _ => ?_
    split
    · exact halias _ _
    · exact Tracked.compileFresh d name arg
  | aliasOf name target => exact (hensure _).bind fun _ => halias _ _

end Build

/-- The stack that is opened for the fields is destroyed only where compiling fails. -/
theorem exists_draft_of_build {d : Declaration} {w w' : Workspace} {s : Schema}
    (h : build d w = .ok s w') :
    ∃ draft, d.members.foldlM (compileMember w.stackTable.length) ⟨[], []⟩
        (w.openStack d.rule).2 = .ok draft w' ∧
      s = .mk d.name d.settings w.stackTable.length draft.bindings := by
  unfold build at h
  rw [Workspace.withStack_apply, Outcome.bind_apply] at h
  cases hf : d.members.foldlM (compileMember w.stackTable.length) ⟨[], []⟩
      (w.openStack d.rule).2 with
  | error e w'' =>
    rw [hf] at h
    cases h
  | ok draft w'' =>
    rw [hf] at h
    cases h
    exact ⟨draft, rfl, rfl⟩

theorem tracked_openStack {w : Workspace} (hw : Accounted [] w) (rule : Rule) :
    Tracked w rule w.stackTable.length ⟨[], []⟩ (w.openStack rule).2 where
  orderly := Workspace.orderly_openStack (.refl hw) rule
  wellFormed := .nil
  stack?_eq := by simp [Workspace.stack?, Workspace.openStack, Bindings.primaries]
  component?_eq := nofun
  name_eq := nofun

/-- **Building gives schemas that fit their stacks exactly.** The stack has the declared rule. -/
theorem exact_of_build {d : Declaration} {w w' : Workspace} {s : Schema}
    (hw : Accounted [] w) (h : build d w = .ok s w') :
    Exact w' s ∧ ∃ t, w'.stack? s.stack = some t ∧ t.rule = d.rule := by
  obtain ⟨draft, hf, rfl⟩ := exists_draft_of_build h
  have hfold := Ensures.foldlM (fun draft m => Tracked.compileMember draft m) d.members
    ⟨[], []⟩ _ (tracked_openStack hw d.rule)
  rw [hf] at hfold
  have hmembers : w'.members w.stackTable.length =
      (Bindings.primaries draft.bindings).map Primary.target := by
    rw [Workspace.members, Workspace.memberIds_eq hfold.stack?_eq, List.filterMap_map]
    exact (List.filterMap_congr hfold.component?_eq).trans (congrFun List.filterMap_eq_map' _)
  refine ⟨⟨⟨hfold.wellFormed, fun p hp => ?_, hfold.name_eq⟩, hmembers⟩, _, hfold.stack?_eq,
    rfl⟩
  change p.target ∈ w'.members w.stackTable.length
  rw [hmembers]
  exact List.mem_map_of_mem hp

/-! ### Compiling what a stack matches -/

theorem bindAll_spec {cs : List (String × Component Schema)}
    {table table' : List (Binding (Component Schema))} (h : Bindings.WellFormed table)
    (hb : cs.foldlM (fun table e => Bindings.bind table e.1 e.2) table = .ok table') :
    Bindings.WellFormed table' ∧ ∀ p ∈ Bindings.primaries table',
      p ∈ Bindings.primaries table ∨ (p.name, p.target) ∈ cs := by
  induction cs generalizing table with
  | nil =>
    cases hb
    exact ⟨h, fun p hp => .inl hp⟩
  | cons e cs ih =>
    rw [List.foldlM_cons] at hb
    obtain ⟨table₁, h₁, hb⟩ := Outcome.bind_eq_ok.1 hb
    obtain ⟨hwf, hp₁⟩ := h.bind h₁
    obtain ⟨hwf', hps⟩ := ih hwf hb
    refine ⟨hwf', fun p hp => ?_⟩
    rcases hps p hp with hp | hp
    · rw [hp₁] at hp
      rcases List.mem_append.1 hp with hp | hp
      · exact .inl hp
      · rw [List.mem_singleton.1 hp]
        exact .inr List.mem_cons_self
    · exact .inr (List.mem_cons_of_mem e hp)

theorem exists_bindAll {cs : List (String × Component Schema)}
    (h : (Listing.keys cs).Nodup) : ∃ table, bindAll cs = .ok table := by
  have key : ∀ (cs : List (String × Component Schema)) table,
      (table.map Binding.name ++ Listing.keys cs).Nodup →
        ∃ table', cs.foldlM (fun table e => Bindings.bind table e.1 e.2) table = .ok table' := by
    intro cs
    induction cs with
    | nil => exact fun table _ => ⟨table, rfl⟩
    | cons e cs ih =>
      intro table hn
      have hfresh : ¬Bindings.contains table e.1 = true := by
        rw [Bindings.contains_iff]
        intro hmem
        exact (List.nodup_append.1 hn).2.2 e.1 hmem e.1 List.mem_cons_self rfl
      rw [List.foldlM_cons, Bindings.bind, if_neg hfresh]
      refine ih _ ?_
      rw [List.map_append, List.append_assoc]
      exact hn
  exact key cs [] h

/-- What a stack matches can always be compiled. -/
theorem exists_ofStack (name : String) (stack : StackId) (settings : Settings) (w : Workspace) :
    ∃ bindings, ofStack name stack settings w = .ok (mk name settings stack bindings) w := by
  have hn : (Listing.keys (w.matching stack settings)).Nodup := Listing.nodup_keys_ofList _
  obtain ⟨bindings, hb⟩ := exists_bindAll hn
  refine ⟨bindings, ?_⟩
  change (step (bindAll (w.matching stack settings)) >>= fun table =>
    pure (mk name settings stack table)) w = _
  rw [hb]
  rfl

theorem coherent_of_ofStack {name : String} {stack : StackId} {settings : Settings}
    {w w' : Workspace} {s : Schema} (h : ofStack name stack settings w = .ok s w') :
    w' = w ∧ Coherent w s := by
  change (step (bindAll (w.matching stack settings)) >>= fun table =>
    pure (mk name settings stack table)) w = .ok s w' at h
  rw [Outcome.bind_apply, step_apply] at h
  cases hb : bindAll (w.matching stack settings) with
  | error e =>
    rw [hb] at h
    cases h
  | ok table =>
    rw [hb] at h
    cases h
    obtain ⟨hwf, hps⟩ := bindAll_spec .nil hb
    have hmem : ∀ p ∈ Bindings.primaries table, (p.name, p.target) ∈ w.matching stack settings :=
      fun p hp => (hps p hp).resolve_left (by simp [Bindings.primaries])
    exact ⟨rfl, hwf, fun p hp => (Workspace.mem_matching (hmem p hp)).1,
      fun p hp => (Workspace.mem_matching (hmem p hp)).2.2⟩

/-- **Every compilation gives a schema that fits its stack.** -/
theorem coherent_of_run {c : Compilation} {w w' : Workspace} {s : Schema}
    (hw : Accounted [] w) (h : c.run w = .ok s w') : Coherent w' s := by
  cases c with
  | build d => exact (exact_of_build hw h).1.toCoherent
  | ofStack name stack settings =>
    obtain ⟨rfl, hs⟩ := coherent_of_ofStack h
    exact hs
  | ofComponents name args settings =>
    change ofComponents name args settings w = .ok s w' at h
    unfold ofComponents at h
    rw [Workspace.withStack_apply, Outcome.bind_apply] at h
    split at h
    · next hr =>
      cases h
      split at hr
      · obtain ⟨rfl, hs⟩ := coherent_of_ofStack hr
        exact hs
      · cases hr
    · cases h
  | empty name =>
    cases h
    exact ⟨.nil, nofun, nofun⟩

theorem keeps_run (c : Compilation) : Action.Keeps c.run := by
  cases c with
  | build d => exact Workspace.keeps_build d
  | ofStack name stack settings => exact Workspace.keeps_ofStack name stack settings
  | ofComponents name args settings => exact Workspace.keeps_ofComponents name args settings
  | empty name => exact Workspace.keeps_empty name

theorem orderly_of_run {c : Compilation} {w w' : Workspace} {s : Schema}
    (hw : Accounted [] w) (h : c.run w = .ok s w') : Orderly w w' := by
  have := (keeps_run c) w w (.refl hw)
  rwa [h] at this

theorem Compiled.wellFormed {s : Schema} (h : Compiled s) : Bindings.WellFormed s.bindings := by
  obtain ⟨c, before, after, hbefore, hrun⟩ := h
  exact (coherent_of_run hbefore.accounted hrun).wellFormed

theorem Kept.compiled {how : Compilation → Prop} {w : Workspace} {s : Schema}
    (h : Kept how w s) : Compiled s := by
  obtain ⟨c, before, after, -, -, hbefore, hrun, -⟩ := h
  exact ⟨c, before, after, hbefore, hrun⟩

/-- A schema whose stack was left alone fits it. -/
theorem Kept.coherent {how : Compilation → Prop} {w : Workspace} {s : Schema}
    (h : Kept how w s) : Coherent w s := by
  obtain ⟨c, before, after, since, -, hbefore, hrun, rfl, hstack⟩ := h
  have hafter := (orderly_of_run hbefore.accounted hrun).accounted
  exact (coherent_of_run hbefore.accounted hrun).later
    (Workspace.orderly_run hafter since).later hstack

/-- A schema that was built from a declaration and whose stack was left alone fits it exactly. -/
theorem Kept.exact {how : Compilation → Prop} {w : Workspace} {s : Schema} {rule : Rule}
    (h : Kept how w s) (hhow : ∀ c, how c → ∃ d, c = .build d ∧ d.rule = rule) :
    Exact w s ∧ ∃ t, w.stack? s.stack = some t ∧ t.rule = rule := by
  obtain ⟨c, before, after, since, hc, hbefore, hrun, rfl, hstack⟩ := h
  obtain ⟨d, rfl, rfl⟩ := hhow c hc
  have hafter := (orderly_of_run hbefore.accounted hrun).accounted
  obtain ⟨hexact, t, ht, hrule⟩ := exact_of_build hbefore.accounted hrun
  exact ⟨hexact.later hafter (Workspace.orderly_run hafter since).later hstack, t,
    hstack.trans ht, hrule⟩

/-! ### A person with a home -/

namespace Sample

/-- The city, which is there from version 2 on. -/
def city : Component Schema :=
  { Component.ofKind (.leaf .string) with name := some "city", firstVersion := some 2 }

/-- The address. -/
def addressDeclaration : Declaration where
  name := "address"
  settings := ∅
  rule := .version .usual
  members := [.field "city" (.built 0)]

/-- The address, compiled. -/
def address : Schema := .mk "address" ∅ 0 [.primary "city" 0 city]

/-- The person, who has a name and lives at an address. -/
def personDeclaration : Declaration where
  name := "person"
  settings := ∅
  rule := .version .usual
  members := [.field "name" (.kind .string), .field "home" (.model address)]

/-- The person, compiled. -/
def person : Schema :=
  .mk "person" ∅ 1
    [.primary "name" 0 { Component.ofKind (.leaf .string) with id := 1, name := some "name" },
      .primary "home" 1 { Component.ofKind (.model address) with id := 2, name := some "home" }]

/-- What is there before the address is compiled. -/
def start : Workspace := Workspace.empty.run [.declare city]

/-- What is there in the end. -/
def town : Workspace := start.run [.build addressDeclaration, .build personDeclaration]

theorem everywhere_kept (how : Compilation → Prop) (h : ∀ d, d.rule = .version .usual →
    how (.build d)) : Everywhere (Kept how town) person := by
  have haddress : Kept how town address :=
    ⟨.build addressDeclaration, start, start.run [.build addressDeclaration],
      [.build personDeclaration], h _ rfl, ⟨[.declare city], rfl⟩, rfl, rfl, rfl⟩
  have hperson : Kept how town person :=
    ⟨.build personDeclaration, start.run [.build addressDeclaration], town, [], h _ rfl,
      ⟨[.declare city, .build addressDeclaration], rfl⟩, rfl, rfl, rfl⟩
  refine .intro hperson fun p hp t ht => ?_
  simp only [person, primaries, bindings, Bindings.primaries, List.mem_cons,
    List.not_mem_nil, or_false] at hp
  rcases hp with rfl | rfl
  · cases ht
  · cases ht
    refine .intro haddress fun p hp t ht => ?_
    simp only [address, primaries, bindings, Bindings.primaries, List.mem_singleton] at hp
    subst hp
    cases ht

end Sample

end Schema

end VersionedModel
