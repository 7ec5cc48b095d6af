import VersionedModel.Proofs.Schema.Progress

/-!
# What failed builds leave behind
-/

namespace VersionedModel

namespace Schema

open Workspace (Accounted)
open Workspace.Action (Ensures)

variable {w₀ w w' : Workspace} {rule : Rule} {stack : StackId} {ms : List Member} {m : Member}
  {id : ComponentId} {decl : Declaration} {e : Error}

/-! ### Stacks and marks -/

theorem modify_snoc {α : Type} (l : List α) (a : α) (f : α → α) :
    (l ++ [a]).modify l.length f = l ++ [f a] := by
  rw [List.modify_eq_take_cons_drop (by simp)]
  simp

/-- The accounts are in order, and there is one stack more than there was. -/
def Topped (w₀ w : Workspace) : Prop :=
  Accounted [] w ∧ ∃ t, w.stackTable = w₀.stackTable ++ [some t]

theorem topped_add (w₀ : Workspace) (arg : Argument) (offered : Option String) :
    Ensures (Topped w₀) (Workspace.add w₀.stackTable.length arg offered) (fun _ => Topped w₀)
      (Topped w₀) := by
  rintro w ⟨hw, t, ht⟩
  have hspec := Workspace.add_spec hw w₀.stackTable.length arg offered
  cases hadd : Workspace.add w₀.stackTable.length arg offered w with
  | ok id w' =>
    rw [hadd] at hspec
    obtain ⟨ho, -, -, hst⟩ := hspec
    refine ⟨ho.accounted, { t with members := w.memberIds w₀.stackTable.length ++ [id] }, ?_⟩
    rw [hst, Workspace.setMembers, ht, modify_snoc]
    rfl
  | error e w' =>
    rw [hadd] at hspec
    exact ⟨hspec.1.accounted, t, hspec.2.trans ht⟩

theorem topped_compileAll (hw : Accounted [] w) (rule : Rule) (ms : List Member) :
    Ensures (· = w) (compileAll rule ms) (fun _ => Topped w) (Topped w) := by
  intro v hv
  rw [hv]
  exact Ensures.foldlM
    (fun d m => Workspace.ensures_compileMember (topped_add w) d m) ms ⟨[], []⟩ _
    ⟨hw.openStack rule, _, rfl⟩

/-- A build that fails leaves a gap behind the stacks, and all marks as they were. -/
theorem isOwned_of_build_error (hw : Accounted [] w) (h : build decl w = .error e w') :
    w'.stackTable = w.stackTable ++ [none] ∧ ∀ id, w'.isOwned id = w.isOwned id := by
  rw [build_apply] at h
  have hkeeps := topped_compileAll hw decl.rule decl.members w rfl
  cases hall : compileAll decl.rule decl.members w with
  | ok d w₁ =>
    rw [hall] at h
    cases h
  | error e₁ w₁ =>
    rw [hall] at h hkeeps
    cases h
    obtain ⟨haccounted, t, ht⟩ := hkeeps
    have hstacks : (w₁.destroy w.stackTable.length).stackTable = w.stackTable ++ [none] := by
      change (w₁.release _).stackTable.modify _ _ = _
      rw [Workspace.stackTable_release, ht, modify_snoc]
    refine ⟨hstacks, fun id => Bool.eq_iff_iff.2 ?_⟩
    rw [(haccounted.destroy _).isOwned_iff, hw.isOwned_iff, Workspace.allMembers, hstacks]
    simp [Workspace.allMembers]

/-! ### Names -/

/-- The attribute is the first one that is declared with a component, its name is valid, and the
members before it compile by themselves. -/
def Entered (w : Workspace) (decl : Declaration) (id : ComponentId) (a : String) : Prop :=
  ∃ before after, decl.members = before ++ .field a (.built id) :: after ∧
    (∀ b, .field b (.built id) ∉ before) ∧ Path.validateName a = .ok () ∧
      ∃ s w', build { decl with members := before } w = .ok s w'

/-- Whatever is compiled has a valid name. -/
theorem validateName_of_compileMember {d d' : Draft}
    (h : compileMember stack d m w = .ok d' w') : Path.validateName m.name = .ok () := by
  cases m with
  | field name arg =>
    rw [compileMember_field] at h
    split at h
    · cases h
    · assumption
  | aliasOf name target =>
    rw [compileMember_aliasOf] at h
    split at h
    · cases h
    · assumption

/-- Compilation does not get past the member that fails. -/
theorem exists_append_of_failure {before after before' after' : List Member} {m' : Member}
    {d d' : Draft} {w₁ w₂ : Workspace} (hbefore : compileAll rule before w = .ok d w₁)
    (hm : compileMember w.stackTable.length d m w₁ = .error e w')
    (hbefore' : compileAll rule before' w = .ok d' w₂)
    (h : before ++ m :: after = before' ++ m' :: after') :
    ∃ more, before ++ [m] = before' ++ m' :: more := by
  rcases List.append_eq_append_iff.1 h with ⟨more, rfl, hmore⟩ | ⟨more, rfl, hmore⟩
  · cases more with
    | nil =>
      cases hmore
      exact ⟨[], by rw [List.append_nil]⟩
    | cons m'' more =>
      cases hmore
      obtain ⟨d₁, w₃, hok, hmore⟩ := exists_of_compileAll_append hbefore'
      rw [hbefore] at hok
      cases hok
      rw [List.foldlM_cons] at hmore
      obtain ⟨d₂, w₄, hok, -⟩ := Outcome.bind_apply_eq_ok.1 hmore
      rw [hm] at hok
      cases hok
  · cases more with
    | nil =>
      cases hmore
      exact ⟨[], by rw [List.append_nil]⟩
    | cons m'' more =>
      cases hmore
      exact ⟨more ++ [m], by rw [List.append_assoc, List.cons_append]⟩

/-- **The attribute that names a component** is the first one that it is declared for, unless the
build fails before. -/
theorem entered_iff {before after : List Member} {d : Draft} {w₁ : Workspace}
    (hsplit : decl.members = before ++ m :: after)
    (hbefore : compileAll decl.rule before w = .ok d w₁)
    (hm : compileMember w.stackTable.length d m w₁ = .error e w') (a : String) :
    Entered w decl id a ↔ firstAttribute? (before ++ [m]) id = some a ∧
      (firstAttribute? before id = none → Path.validateName a = .ok ()) := by
  constructor
  · rintro ⟨before', after', hsplit', hnot, hvalid, hbuild⟩
    obtain ⟨d', w₂, hbefore'⟩ := exists_build_iff.1 hbuild
    obtain ⟨more, hmore⟩ :=
      exists_append_of_failure hbefore hm hbefore' (hsplit.symm.trans hsplit')
    rw [hmore, firstAttribute?_append, firstAttribute?_eq_none_iff.2 hnot, Option.none_or,
      firstAttribute?_cons, Member.attribute?_eq_some_iff.2 rfl]
    exact ⟨rfl, fun _ => hvalid⟩
  · rintro ⟨hfirst, hvalid⟩
    rw [firstAttribute?_snoc] at hfirst
    cases hold : firstAttribute? before id with
    | some b =>
      rw [hold, Option.some_or] at hfirst
      cases hfirst
      obtain ⟨first, _, rest, rfl, hdeclared, hnot⟩ := List.findSome?_eq_some_iff.1 hold
      obtain rfl := Member.attribute?_eq_some_iff.1 hdeclared
      obtain ⟨d₁, w₂, hok, hrest⟩ := exists_of_compileAll_append hbefore
      rw [List.foldlM_cons] at hrest
      obtain ⟨d₂, w₃, hdeclared, -⟩ := Outcome.bind_apply_eq_ok.1 hrest
      refine ⟨first, rest ++ m :: after, by rw [hsplit, List.append_assoc, List.cons_append],
        ?_, validateName_of_compileMember hdeclared, exists_build_iff.2 ⟨d₁, w₂, hok⟩⟩
      exact firstAttribute?_eq_none_iff.1 (List.findSome?_eq_none_iff.2 hnot)
    | none =>
      rw [hold, Option.none_or, Member.attribute?_eq_some_iff] at hfirst
      subst hfirst
      exact ⟨before, after, hsplit, firstAttribute?_eq_none_iff.1 hold, hvalid hold,
        exists_build_iff.2 ⟨d, w₁, hbefore⟩⟩

/-- **What a failed build leaves of components that were there.** The marks are as they were. A
component is as it was, up to its name if it had none and no stack owned it: it keeps the name of
the first attribute that was declared with it, if compilation got that far. -/
theorem component?_of_build_error (hw : w.Reachable) (h : build decl w = .error e w')
    {c : Component Schema} (hc : w.component? id = some c) :
    w'.isOwned id = w.isOwned id ∧ ∃ name, w'.component? id = some { c with name := name } ∧
      ∀ a, name = some a ↔
        c.name = some a ∨ (c.name = none ∧ w.isOwned id = false ∧ Entered w decl id a) := by
  refine ⟨(isOwned_of_build_error hw.accounted h).2 id, ?_⟩
  rw [build_apply] at h
  cases hall : compileAll decl.rule decl.members w with
  | ok d w₁ =>
    rw [hall] at h
    cases h
  | error e₁ w₁ =>
    rw [hall] at h
    cases h
    obtain ⟨before, m, after, d, w₂, hsplit, hbefore, hm⟩ := exists_of_compileAll_error hall
    obtain ⟨held, hj, rfl⟩ := Option.map_eq_some_iff.1 hc
    obtain ⟨x, hx, hiff⟩ :=
      (reached_of_compileAll hw.accounted hbefore).component?_of_error hm hj
    refine ⟨(held.declaredAs x).component.name, ?_, fun a => ?_⟩
    · rw [← held.component_declaredAs_eq x]
      exact (Workspace.component?_release _ _ _).trans hx
    · rw [entered_iff hsplit hbefore hm, ← hiff, (Workspace.isOwned_of_getElem? hj).1]
      exact Holding.name_declaredAs_iff

/-! ### A ride -/

namespace Sample

/-- A city that the address owns, and a number that has no name. -/
def yard : Workspace :=
  start.run [.build addressDeclaration, .declare (.ofKind (.leaf .integer))]

/-- A ride from a city, with so many seats, where the name of the seats is taken twice. -/
def rideDeclaration : Declaration where
  name := "ride"
  settings := ∅
  rule := .version .usual
  members := [.field "origin" (.built 0), .field "seats" (.built 1), .field "seats" (.kind .any)]

/-- What is left when the ride could not be built. -/
def afterRide : Workspace := (build rideDeclaration).final yard

end Sample

open Sample in
/-- The number keeps the name that it was given, and nobody owns it; the city stays as it was. -/
theorem component?_of_build_error_ride :
    yard.Reachable ∧ build rideDeclaration yard = .error (.duplicateField "seats") afterRide ∧
      (∃ c, yard.component? 0 = some c ∧ afterRide.component? 0 = some c ∧
        afterRide.isOwned 0 = yard.isOwned 0) ∧
      ∃ c, yard.component? 1 = some c ∧ c.name = none ∧ Entered yard rideDeclaration 1 "seats" ∧
        afterRide.component? 1 = some { c with name := some "seats" } ∧
        afterRide.isOwned 1 = yard.isOwned 1 := by
  have hreach : yard.Reachable :=
    ⟨[.declare city, .build addressDeclaration, .declare (.ofKind (.leaf .integer))], rfl⟩
  have hbuild : build rideDeclaration yard = .error (.duplicateField "seats") afterRide := rfl
  have hentered : Entered yard rideDeclaration 1 "seats" :=
    ⟨[.field "origin" (.built 0)], [.field "seats" (.kind .any)], rfl, by simp, rfl, _, _, rfl⟩
  have hcity : yard.component? 0 = some city := rfl
  have hseats : yard.component? 1 = some { Component.ofKind (.leaf .integer) with id := 1 } := rfl
  refine ⟨hreach, hbuild, ⟨_, hcity, ?_⟩, _, hseats, rfl, hentered, ?_⟩
  · obtain ⟨howned, name, hc, hname⟩ := component?_of_build_error hreach hbuild hcity
    obtain rfl := (hname "city").2 (.inl rfl)
    exact ⟨hc, howned⟩
  · obtain ⟨howned, name, hc, hname⟩ := component?_of_build_error hreach hbuild hseats
    obtain rfl := (hname "seats").2 (.inr ⟨rfl, rfl, hentered⟩)
    exact ⟨hc, howned⟩

open Sample in
/-- The number had no name before the build failed, and has one afterwards. -/
theorem name_ne_of_build_error_ride :
    yard.Reachable ∧ build rideDeclaration yard = .error (.duplicateField "seats") afterRide ∧
      (yard.component? 1).map Component.name = some none ∧
      (afterRide.component? 1).map Component.name = some (some "seats") :=
  ⟨⟨[.declare city, .build addressDeclaration, .declare (.ofKind (.leaf .integer))], rfl⟩, rfl, rfl,
    rfl⟩

end Schema

end VersionedModel
