import VersionedModel.Proofs.Workspace.Ownership

/-!
# Names of what is added

What is added to a stack has its own name, if it is a component that has one, and else the name that
is offered (`Workspace.exists_name_of_add`). No other component changes.
-/

namespace VersionedModel

namespace Workspace

variable {w w' : Workspace}

/-- The workspaces differ at most in one component. -/
def SameBut (id : ComponentId) (w w' : Workspace) : Prop :=
  ∀ j, j ≠ id → w'.component? j = w.component? j

theorem SameBut.trans {id : ComponentId} {w'' : Workspace} (h : SameBut id w w')
    (h' : SameBut id w' w'') : SameBut id w w'' :=
  fun j hj => (h' j hj).trans (h j hj)

theorem sameBut_declare (w : Workspace) (c : Component Schema) :
    SameBut w.holdings.length w (w.declare c).2 :=
  fun j hj => by rw [component?_declare, if_neg hj]

theorem component?_declare_self (w : Workspace) (c : Component Schema) :
    (w.declare c).2.component? (w.declare c).1 = some { c with id := w.holdings.length } := by
  rw [component?_declare]
  exact if_pos rfl

/-- What has just been declared is not owned, so it is claimed itself. -/
theorem not_isOwned_declare (w : Workspace) (c : Component Schema) :
    ¬(w.declare c).2.isOwned (w.declare c).1 = true := by
  rw [isOwned_declare]
  exact fun ho => Nat.lt_irrefl _ (lt_of_isOwned ho)

/-- What is claimed is the component itself or, if this is owned, a copy with its name. -/
theorem exists_of_claim {id id' : ComponentId} (h : claim id w = .ok id' w') :
    ∃ c c', w.component? id = some c ∧ w'.component? id' = some c' ∧ c'.name = c.name ∧
      (id' = id ∨ w.isOwned id = true) ∧ SameBut id' w w' := by
  rw [claim_apply] at h
  cases hh : w.holdings[id]? with
  | none =>
    rw [hh] at h
    cases h
  | some held =>
    obtain ⟨hown, -⟩ := isOwned_of_getElem? hh
    have hc : w.component? id = some held.component := by rw [component?, hh]; rfl
    rw [hh] at h
    dsimp only at h
    split at h
    · next ho =>
      split at h
      · cases h
        refine ⟨held.component, { held.component with id := w.holdings.length }, hc, ?_, rfl,
          .inr (hown.trans ho), fun j hj => ?_⟩
        · rw [component?_mark, component?_declare, if_pos rfl]
        · rw [component?_mark]
          exact sameBut_declare w held.component j hj
      · cases h
    · cases h
      exact ⟨held.component, held.component, hc, (component?_mark w id id true).trans hc, rfl,
        .inl rfl, fun j _ => component?_mark w id j true⟩

/-- A name is settled on: the component's own, or else the one that is offered. -/
theorem exists_of_settleName {id : ComponentId} {offered : Option String}
    (h : settleName id offered w = .ok () w') :
    ∃ c c' name, w.component? id = some c ∧ w'.component? id = some c' ∧ c'.name = some name ∧
      c.name.or offered = some name ∧ SameBut id w w' := by
  obtain ⟨c, name, hc, hname, rfl⟩ := settleName_eq_ok h
  -- A component that has a name stays as it is.
  by_cases hown : c.name.isSome
  · rw [if_pos hown]
    obtain ⟨own, hown⟩ := Option.isSome_iff_exists.1 hown
    rw [hown, Option.some_or] at hname
    exact ⟨c, c, name, hc, hc, hown.trans hname, by rw [hown, hname]; rfl, fun _ _ => rfl⟩
  · rw [if_neg hown]
    refine ⟨c, { c with name := some name }, name, hc, ?_, rfl, hname, fun j hj => ?_⟩
    · rw [component?_rename, if_pos rfl, hc]
      rfl
    · rw [component?_rename, if_neg (Ne.symm hj)]

/-- **What is added has its own name or else the one that is offered**, and no other component
changes. -/
theorem exists_name_of_add {s : StackId} {arg : Argument} {offered : Option String}
    {id : ComponentId} (h : Workspace.add s arg offered w = .ok id w') :
    ∃ c name, w'.component? id = some c ∧ c.name = some name ∧
      (offered = some name ∨
        ∃ own c₀, arg = .built own ∧ w.component? own = some c₀ ∧ c₀.name = some name) ∧
      SameBut id w w' := by
  obtain ⟨w₁, w₂, hclaim, hsettle, rfl⟩ := add_eq_ok h
  obtain ⟨c₀, c₁, hc₀, hc₁, hsame, hwhich, hclaimed⟩ := exists_of_claim hclaim
  obtain ⟨c₁', c₂, name, hc₁', hc₂, hname, hor, hsettled⟩ := exists_of_settleName hsettle
  obtain rfl := Option.some.inj (hc₁.symm.trans hc₁')
  refine ⟨c₂, name, hc₂, hname, ?_, ?_⟩
  · cases hown : c₁.name with
    | none =>
      rw [hown, Option.none_or] at hor
      exact .inl hor
    | some own =>
      rw [hown, Option.some_or] at hor
      -- Only a component that was there before has a name of its own.
      cases arg with
      | built own' => exact .inr ⟨own', c₀, rfl, hc₀, hsame ▸ hown.trans hor⟩
      | kind kind | model schema =>
        rw [arrive, component?_declare_self] at hc₀
        cases hc₀
        rw [hsame] at hown
        cases hown
  · have harrive : SameBut id w (w.arrive arg).2 := by
      cases arg with
      | built own => exact fun _ _ => rfl
      | kind kind | model schema =>
        rw [hwhich.resolve_right (not_isOwned_declare w _)]
        exact sameBut_declare w _
    exact (harrive.trans hclaimed).trans hsettled

end Workspace

end VersionedModel
