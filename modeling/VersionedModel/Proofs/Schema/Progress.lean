import VersionedModel.Proofs.Schema.Declarations
import VersionedModel.Proofs.Workspace.Arrivals

/-!
# How far a compilation gets

Members are compiled in order, and the first one that fails ends the compilation
(`Schema.compileAll`, `Schema.build_apply`). On the way, a component that no stack owned is marked
and named where it is declared first, and that is all that happens to the components that were there
(`Schema.Arrived`):
every member keeps this (`Reached.compileMember`), and so do all of them together
(`Reached.foldlM`).
-/

namespace VersionedModel

theorem Argument.identity?_eq_some_iff {arg : Argument} {id : ComponentId} :
    arg.identity? = some id ↔ arg = .built id := by
  cases arg <;> simp [identity?]

/-- The attribute that a member declares with an existing component. -/
def Member.attribute? (id : ComponentId) : Member → Option String
  | .field name arg => if arg.identity? = some id then some name else none
  | .aliasOf .. => none

theorem Member.attribute?_eq_some_iff {m : Member} {id : ComponentId} {a : String} :
    m.attribute? id = some a ↔ m = .field a (.built id) := by
  cases m with
  | field name arg =>
    rw [attribute?, Option.ite_none_right_eq_some, Argument.identity?_eq_some_iff]
    simp [and_comm]
  | aliasOf name target => simp [attribute?]

/-- A component that was declared for an attribute, or not at all. -/
def Holding.declaredAs (h : Holding) : Option String → Holding
  | some a => if h.owned = true then h else h.entered (some a)
  | none => h

/-- A component that has a name, or that a stack owns, keeps its name. -/
theorem Holding.component_declaredAs {h : Holding}
    (hh : h.owned = true ∨ h.component.name.isSome) (a : Option String) :
    (h.declaredAs a).component = h.component := by
  cases a with
  | none => rfl
  | some a =>
    rw [declaredAs]
    split
    · rfl
    · next hfree =>
      obtain ⟨own, hown⟩ := Option.isSome_iff_exists.1 (hh.resolve_left hfree)
      rw [entered, hown, Option.some_or, ← hown]

/-- A declaration changes nothing in a component but its name. -/
theorem Holding.component_declaredAs_eq (h : Holding) (x : Option String) :
    (h.declaredAs x).component =
      { h.component with name := (h.declaredAs x).component.name } := by
  cases x with
  | none => rfl
  | some a =>
    rw [declaredAs]
    split <;> rfl

theorem Holding.name_declaredAs_iff {h : Holding} {x : Option String} {a : String} :
    (h.declaredAs x).component.name = some a ↔
      h.component.name = some a ∨ (h.component.name = none ∧ h.owned = false ∧ x = some a) := by
  cases x with
  | none => simp [declaredAs]
  | some b =>
    cases howned : h.owned with
    | true => simp [declaredAs, howned]
    | false =>
      rw [declaredAs, howned, if_neg Bool.false_ne_true, entered]
      cases h.component.name <;> simp

namespace Schema

open Workspace (Accounted)

variable {w₀ w w' : Workspace} {rule : Rule} {stack : StackId} {d d' : Draft} {ms : List Member}
  {m : Member} {id : ComponentId}

/-! ### Declared components -/

/-- The first attribute that members declare with an existing component. -/
def firstAttribute? (ms : List Member) (id : ComponentId) : Option String :=
  ms.findSome? (Member.attribute? id)

theorem firstAttribute?_eq_none_iff :
    firstAttribute? ms id = none ↔ ∀ a, .field a (.built id) ∉ ms := by
  rw [firstAttribute?, List.findSome?_eq_none_iff]
  constructor
  · intro h a ha
    have := h _ ha
    rw [Member.attribute?_eq_some_iff.2 rfl] at this
    cases this
  · intro h m hm
    by_contra hne
    obtain ⟨a, ha⟩ := Option.ne_none_iff_exists'.1 hne
    rw [Member.attribute?_eq_some_iff] at ha
    exact h a (ha ▸ hm)

theorem firstAttribute?_append (ms ms' : List Member) :
    firstAttribute? (ms ++ ms') id = (firstAttribute? ms id).or (firstAttribute? ms' id) :=
  List.findSome?_append

theorem firstAttribute?_cons (m : Member) (ms : List Member) :
    firstAttribute? (m :: ms) id = (m.attribute? id).or (firstAttribute? ms id) := by
  rw [firstAttribute?, List.findSome?_cons]
  cases m.attribute? id <;> rfl

theorem firstAttribute?_snoc :
    firstAttribute? (ms ++ [m]) id = (firstAttribute? ms id).or (m.attribute? id) := by
  rw [firstAttribute?_append, firstAttribute?_cons]
  exact congrArg _ Option.or_none

/-- What was seen is what was declared. -/
theorem Routed.firstAttribute?_eq_none_iff (h : Routed ms d) :
    firstAttribute? ms id = none ↔ ∀ primary, (id, primary) ∉ d.seen := by
  rw [Schema.firstAttribute?_eq_none_iff]
  constructor
  · intro hnot primary hseen
    obtain ⟨a, -, ha, -⟩ := h.seen id primary hseen
    exact hnot a ha
  · intro hnot a ha
    obtain ⟨primary, hseen⟩ := h.exists_seen a id ha
    exact hnot primary hseen

/-- A first attribute stays the first. -/
theorem Routed.firstAttribute?_snoc (h : Routed ms d)
    (hm : ∀ a, m = .field a (.built id) → ∃ primary, (id, primary) ∈ d.seen) :
    firstAttribute? (ms ++ [m]) id = firstAttribute? ms id := by
  rw [Schema.firstAttribute?_snoc]
  cases hnone : firstAttribute? ms id with
  | some a => rfl
  | none =>
    rw [h.firstAttribute?_eq_none_iff] at hnone
    cases ha : m.attribute? id with
    | none => rfl
    | some a =>
      obtain ⟨primary, hseen⟩ := hm a (Member.attribute?_eq_some_iff.1 ha)
      exact absurd hseen (hnone primary)

/-! ### Steps that may fail -/

/-- Bind a component under its own name, and the declared name too. -/
def bindUnder (table : List (Binding (Component Schema))) (own name : String)
    (c : Component Schema) : Except Error (List (Binding (Component Schema))) := do
  let bound ← Bindings.bind table own c
  if own = name then return bound else Bindings.bindAlias bound name own

theorem compileFresh_of_add_error {name : String} {arg : Argument} {e : Error}
    (h : Workspace.add stack arg (some name) w = .error e w') :
    compileFresh stack d name arg w = .error e w' := by
  unfold compileFresh
  rw [Outcome.bind_apply, h]

theorem step_eq_error {α : Type} {x : Except Error α} {e : Error} :
    step x w = .error e w' ↔ x = .error e ∧ w' = w := by
  rw [step_apply]
  cases x with
  | error e' => exact ⟨fun h => by cases h; exact ⟨rfl, rfl⟩, fun ⟨h, hw⟩ => by cases h; rw [hw]⟩
  | ok a => exact ⟨nofun, fun h => nomatch h.1⟩

theorem compileFresh_of_add_ok {name own : String} {arg : Argument} {c : Component Schema}
    (h : Workspace.add stack arg (some name) w = .ok id w') (hc : w'.component? id = some c)
    (hown : c.name = some own) :
    compileFresh stack d name arg w =
      (do return ⟨← step (bindUnder d.bindings own name c),
        d.seen ++ (arg.identity?.map (·, own)).toList⟩ : Workspace.Action Draft) w' := by
  obtain ⟨held, hh, rfl⟩ := Option.map_eq_some_iff.1 hc
  unfold compileFresh
  rw [Outcome.bind_apply, h]
  dsimp only
  rw [Outcome.bind_apply, Workspace.holding_apply, hh]
  dsimp only
  rw [hown, Option.getD_some, bindUnder]
  cases Bindings.bind d.bindings own held.component with
  | error e => rfl
  | ok bound =>
    by_cases hsame : own = name
    · simp only [hsame, if_true]
      cases arg.identity? with
      | none =>
        simp only [Option.map_none, Option.toList_none, List.append_nil]
        rfl
      | some shared => rfl
    · simp only [hsame, if_false]
      cases arg.identity? with
      | none =>
        simp only [Option.map_none, Option.toList_none, List.append_nil]
        rfl
      | some shared => rfl

theorem compileMember_field {name : String} {arg : Argument} :
    compileMember stack d (.field name arg) w =
      match Path.validateName name with
      | .error e => .error e w
      | .ok () =>
        match d.seen.find? fun e => some e.1 == arg.identity? with
        | some (_, primary) =>
          match Bindings.bindAlias d.bindings name primary with
          | .ok table => .ok ⟨table, d.seen⟩ w
          | .error e => .error e w
        | none => compileFresh stack d name arg w := by
  change (Workspace.ensure (Path.validateName name) >>= _) w = _
  rw [Outcome.bind_apply, Workspace.ensure_apply]
  cases Path.validateName name with
  | error e => rfl
  | ok u =>
    dsimp only
    cases d.seen.find? fun e => some e.1 == arg.identity? with
    | none => rfl
    | some e =>
      dsimp only
      rw [Outcome.bind_apply, step_apply]
      cases Bindings.bindAlias d.bindings name e.2 <;> rfl

theorem compileMember_aliasOf {name target : String} :
    compileMember stack d (.aliasOf name target) w =
      match Path.validateName name with
      | .error e => .error e w
      | .ok () =>
        match Bindings.bindAlias d.bindings name target with
        | .ok table => .ok ⟨table, d.seen⟩ w
        | .error e => .error e w := by
  change (Workspace.ensure (Path.validateName name) >>= _) w = _
  rw [Outcome.bind_apply, Workspace.ensure_apply]
  cases Path.validateName name with
  | error e => rfl
  | ok u =>
    dsimp only
    rw [Outcome.bind_apply, step_apply]
    cases Bindings.bindAlias d.bindings name target <;> rfl

/-- A member that fails changes nothing before its component is added to the stack. -/
theorem compileMember_error_cases {e : Error} (h : compileMember stack d m w = .error e w') :
    (w' = w ∧ ∀ a id, m = .field a (.built id) → Path.validateName a = .ok () →
      ∃ primary, (id, primary) ∈ d.seen) ∨
    ∃ name arg, m = .field name arg ∧ Path.validateName name = .ok () ∧
      (∀ id primary, arg = .built id → (id, primary) ∉ d.seen) ∧
      compileFresh stack d name arg w = .error e w' := by
  cases m with
  | aliasOf name target =>
    refine .inl ⟨?_, nofun⟩
    rw [compileMember_aliasOf] at h
    split at h
    · cases h
      rfl
    · split at h <;> cases h
      rfl
  | field name arg =>
    rw [compileMember_field] at h
    cases hvalid : Path.validateName name with
    | error e' =>
      rw [hvalid] at h
      cases h
      refine .inl ⟨rfl, fun a id hm ha => ?_⟩
      cases hm
      rw [hvalid] at ha
      cases ha
    | ok u =>
      rw [hvalid] at h
      dsimp only at h
      cases hfind : d.seen.find? fun e => some e.1 == arg.identity? with
      | some e' =>
        rw [hfind] at h
        dsimp only at h
        refine .inl ⟨?_, fun a id hm _ => ?_⟩
        · split at h <;> cases h
          rfl
        · cases hm
          have hid : some e'.1 = (Argument.built id).identity? := by
            simpa using List.find?_some hfind
          cases hid
          exact ⟨e'.2, List.mem_of_find?_eq_some hfind⟩
      | none =>
        rw [hfind] at h
        refine .inr ⟨name, arg, rfl, hvalid, ?_, h⟩
        rintro id primary rfl hmem
        exact List.find?_eq_none.1 hfind _ hmem (by simp [Argument.identity?])

/-! ### What becomes of components -/

/-- What compiling the members `ms` did to the components that were there in `w₀`. -/
structure Arrived (w₀ : Workspace) (ms : List Member) (d : Draft) (w : Workspace) : Prop where
  /-- They are as the first attribute that they were declared for leaves them. -/
  holdings_eq : ∀ (j : ComponentId) (held : Holding), w₀.holdings[j]? = some held →
    w.holdings[j]? = some (held.declaredAs (firstAttribute? ms j))
  /-- Those that no stack owned have become the primaries of their names. -/
  name_eq : ∀ (j : ComponentId) (held : Holding) (primary : String),
    w₀.holdings[j]? = some held → held.owned = false → (j, primary) ∈ d.seen →
      (held.declaredAs (firstAttribute? ms j)).component.name = some primary

/-- Members that declare nothing for the first time change no component. -/
theorem Arrived.snoc_of_seen (h : Arrived w₀ ms d w) (hrouted : Routed ms d)
    (hm : ∀ a id, m = .field a (.built id) → ∃ primary, (id, primary) ∈ d.seen)
    (table : List (Binding (Component Schema))) :
    Arrived w₀ (ms ++ [m]) ⟨table, d.seen⟩ w := by
  have hfirst : ∀ j, firstAttribute? (ms ++ [m]) j = firstAttribute? ms j :=
    fun j => hrouted.firstAttribute?_snoc fun a => hm a j
  refine ⟨fun j held hj => ?_, fun j held primary hj hfree hseen => ?_⟩
  · rw [hfirst]
    exact h.holdings_eq j held hj
  · rw [hfirst]
    exact h.name_eq j held primary hj hfree hseen

/-- A component that is declared for the first time is what is added, unless a stack owns it. -/
theorem Arrived.holdings_of_add (h : Arrived w₀ ms d w) (hrouted : Routed ms d) {name : String}
    {arg : Argument} (hfresh : ∀ id primary, arg = .built id → (id, primary) ∉ d.seen)
    (hadd : Workspace.add stack arg (some name) w = .ok id w') {j : ComponentId} {held : Holding}
    (hj : w₀.holdings[j]? = some held) :
    w'.holdings[j]? =
        some (held.declaredAs (firstAttribute? (ms ++ [.field name arg]) j)) ∧
      (id = j ↔ arg = .built j ∧ held.owned = false) := by
  obtain ⟨hholding, hwhich⟩ := Workspace.holdings_of_add hadd (h.holdings_eq j held hj)
  rw [Argument.identity?_eq_some_iff] at hwhich
  rw [hholding, firstAttribute?_snoc]
  by_cases harg : arg = .built j
  · have hnone : firstAttribute? ms j = none :=
      hrouted.firstAttribute?_eq_none_iff.2 fun primary => hfresh j primary harg
    rw [hnone] at hwhich ⊢
    rw [Option.none_or, Member.attribute?_eq_some_iff.2 (congrArg (Member.field name) harg)]
    refine ⟨congrArg some ?_, hwhich⟩
    cases hown : held.owned with
    | true =>
      rw [Holding.declaredAs, if_pos hown, if_neg]
      · rfl
      · rw [hwhich]
        exact fun h => Bool.false_ne_true (h.2.symm.trans hown)
    | false =>
      rw [if_pos (hwhich.2 ⟨harg, hown⟩), Holding.declaredAs, Holding.declaredAs, if_neg]
      rw [hown]
      exact Bool.false_ne_true
  · have hnone : (Member.field name arg).attribute? j = none :=
      if_neg (mt Argument.identity?_eq_some_iff.1 harg)
    rw [hnone, Option.or_none, if_neg (mt (fun heq => (hwhich.1 heq).1) harg)]
    exact ⟨rfl, fun heq => absurd (hwhich.1 heq).1 harg, fun h => absurd h.1 harg⟩

/-- The members `ms` were compiled, one after the other. -/
structure Reached (w₀ : Workspace) (rule : Rule) (stack : StackId) (ms : List Member) (d : Draft)
    (w : Workspace) : Prop extends Follows w₀ rule stack ms d w, Arrived w₀ ms d w

/-- One more member is compiled. -/
theorem Reached.compileMember (h : Reached w₀ rule stack ms d w)
    (hm : compileMember stack d m w = .ok d' w') :
    Reached w₀ rule stack (ms ++ [m]) d' w' := by
  refine ⟨h.toFollows.compileMember hm, ?_⟩
  obtain ⟨table, seen⟩ := d'
  rcases compileMember_cases hm with ⟨name, target, -, -, rfl, rfl, hwhich⟩ |
    ⟨name, arg, rfl, hfresh, hcompile⟩
  · refine h.toArrived.snoc_of_seen h.routed ?_ table
    rintro a id rfl
    rcases hwhich with hm | ⟨id', hm, hseen⟩ <;> cases hm
    exact ⟨target, hseen⟩
  · obtain ⟨id, c, own, hadd, hc, hown, -, rfl⟩ := exists_of_compileFresh hcompile
    have hholdings := fun j held (hj : w₀.holdings[j]? = some held) =>
      h.toArrived.holdings_of_add h.routed hfresh hadd hj
    refine ⟨fun j held hj => (hholdings j held hj).1, fun j held primary hj hfree hseen => ?_⟩
    rcases List.mem_append.1 hseen with hseen | hseen
    · rw [h.routed.firstAttribute?_snoc fun _ _ => ⟨primary, hseen⟩]
      exact h.name_eq j held primary hj hfree hseen
    · cases arg with
      | built id' =>
        cases List.mem_singleton.1 hseen
        obtain ⟨hholding, hwhich⟩ := hholdings j held hj
        obtain rfl := hwhich.2 ⟨rfl, hfree⟩
        rw [Workspace.component?, hholding] at hc
        cases hc
        exact hown
      | kind kind | model schema => cases hseen

/-- All members are compiled. -/
theorem Reached.foldlM (h : Reached w₀ rule stack ms d w) {more : List Member}
    (hf : more.foldlM (Schema.compileMember stack) d w = .ok d' w') :
    Reached w₀ rule stack (ms ++ more) d' w' := by
  induction more generalizing ms d w with
  | nil =>
    cases hf
    rwa [List.append_nil]
  | cons m more ih =>
    rw [List.foldlM_cons] at hf
    obtain ⟨d₁, w₁, hm, hf⟩ := Outcome.bind_apply_eq_ok.1 hf
    rw [List.append_cons]
    exact ih (h.compileMember hm) hf

/-- **A member that fails may still have named its component**, for the first attribute that it was
declared for, if its name is valid. -/
theorem Reached.component?_of_error (h : Reached w₀ rule stack ms d w) {e : Error}
    (hm : Schema.compileMember stack d m w = .error e w') {j : ComponentId} {held : Holding}
    (hj : w₀.holdings[j]? = some held) :
    ∃ x, w'.component? j = some (held.declaredAs x).component ∧
      ∀ a, x = some a ↔ firstAttribute? (ms ++ [m]) j = some a ∧
        (firstAttribute? ms j = none → Path.validateName a = .ok ()) := by
  have hw := h.holdings_eq j held hj
  rcases compileMember_error_cases hm with ⟨rfl, hold⟩ | ⟨name, arg, rfl, hvalid, hfresh, hm⟩
  · refine ⟨firstAttribute? ms j, by rw [Workspace.component?, hw]; rfl, fun a => ?_⟩
    rw [firstAttribute?_snoc]
    cases hfirst : firstAttribute? ms j with
    | some b => simp
    | none =>
      refine ⟨nofun, fun ⟨ha, hvalid⟩ => ?_⟩
      rw [Option.none_or, Member.attribute?_eq_some_iff] at ha
      obtain ⟨primary, hseen⟩ := hold a j ha (hvalid rfl)
      exact absurd hseen (h.routed.firstAttribute?_eq_none_iff.1 hfirst primary)
  · refine ⟨firstAttribute? (ms ++ [.field name arg]) j, ?_, fun a => ?_⟩
    · cases hadd : Workspace.add stack arg (some name) w with
      | ok id w₁ =>
        obtain ⟨c, own, hc, hown, -⟩ := Workspace.exists_name_of_add hadd
        rw [compileFresh_of_add_ok hadd hc hown] at hm
        obtain ⟨-, rfl⟩ : _ ∧ w' = w₁ := by
          rcases Outcome.bind_apply_eq_error.1 hm with hm | ⟨_, _, -, hm⟩
          · exact step_eq_error.1 hm
          · cases hm
        rw [Workspace.component?, (h.toArrived.holdings_of_add h.routed hfresh hadd hj).1]
        rfl
      | error e₁ w₁ =>
        rw [compileFresh_of_add_error hadd] at hm
        cases hm
        rw [Workspace.component?, Workspace.holdings_of_add_error hadd hw]
        refine congrArg some ?_
        by_cases harg : arg = .built j
        · have hnone : firstAttribute? ms j = none :=
            h.routed.firstAttribute?_eq_none_iff.2 fun primary => hfresh j primary harg
          subst harg
          rw [hnone] at hw
          have hkept : held.owned = true ∨ held.component.name.isSome :=
            Workspace.owned_or_named_of_add_error (by rw [h.tracked.stack?_eq]; rfl) hvalid hw hadd
          rw [Holding.component_declaredAs hkept, Holding.component_declaredAs hkept]
        · rw [h.routed.firstAttribute?_snoc fun a hm => absurd (Member.field.inj hm).2 harg]
    · refine ⟨fun ha => ⟨ha, fun hnone => ?_⟩, And.left⟩
      rw [firstAttribute?_snoc, hnone, Option.none_or, Member.attribute?_eq_some_iff] at ha
      cases ha
      exact hvalid

/-! ### Whole declarations -/

/-- Compile members on a new stack. -/
def compileAll (rule : Rule) (ms : List Member) : Workspace.Action Draft := fun w =>
  ms.foldlM (compileMember w.stackTable.length) ⟨[], []⟩ (w.openStack rule).2

theorem build_apply (decl : Declaration) (w : Workspace) :
    build decl w =
      match compileAll decl.rule decl.members w with
      | .ok d w' => .ok (mk decl.name decl.settings w.stackTable.length d.bindings) w'
      | .error e w' => .error e (w'.destroy w.stackTable.length) := by
  unfold build
  rw [Workspace.withStack_apply, Outcome.bind_apply, compileAll]
  cases decl.members.foldlM (compileMember w.stackTable.length) ⟨[], []⟩
    (w.openStack decl.rule).2 <;> rfl

theorem exists_build_iff {decl : Declaration} :
    (∃ s w', build { decl with members := ms } w = .ok s w') ↔
      ∃ d w', compileAll decl.rule ms w = .ok d w' := by
  simp only [build_apply]
  cases compileAll decl.rule ms w with
  | ok d w' => exact ⟨fun _ => ⟨d, w', rfl⟩, fun _ => ⟨_, w', rfl⟩⟩
  | error e w' => exact ⟨nofun, nofun⟩

theorem reached_of_compileAll (hw : Accounted [] w) (h : compileAll rule ms w = .ok d w') :
    Reached w rule w.stackTable.length ms d w' := by
  have hstart : Reached w rule w.stackTable.length [] ⟨[], []⟩ (w.openStack rule).2 :=
    { toFollows := follows_openStack hw rule
      toArrived := ⟨fun _ _ hj => hj, fun _ _ _ _ _ h => nomatch h⟩ }
  exact hstart.foldlM h

/-- The first member that fails. -/
theorem exists_of_compileAll_error {e : Error} (h : compileAll rule ms w = .error e w') :
    ∃ before m after d₁ w₁, ms = before ++ m :: after ∧
      compileAll rule before w = .ok d₁ w₁ ∧
        compileMember w.stackTable.length d₁ m w₁ = .error e w' :=
  Outcome.exists_of_foldlM_apply_eq_error h

/-- What is compiled is compiled from the start. -/
theorem exists_of_compileAll_append {more : List Member}
    (h : compileAll rule (ms ++ more) w = .ok d' w') :
    ∃ d₁ w₁, compileAll rule ms w = .ok d₁ w₁ ∧
      more.foldlM (compileMember w.stackTable.length) d₁ w₁ = .ok d' w' :=
  Outcome.foldlM_append_apply_eq_ok.1 h

end Schema

end VersionedModel
