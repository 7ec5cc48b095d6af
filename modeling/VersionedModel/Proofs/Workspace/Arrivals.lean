import VersionedModel.Proofs.Workspace.Naming

/-!
# What adding does to components that were there

A component that no stack owns is marked when it is put on a stack, and it takes the name that is
offered if it has none (`Holding.entered`). Nothing else happens to the components that were there
(`Workspace.holdings_of_add`), and nothing at all if the adding fails
(`Workspace.holdings_of_add_error`). It succeeds for what no stack owns, if there is a valid name
for it (`Workspace.exists_add`).
-/

namespace VersionedModel

/-- A component that was put on a stack under an offered name. -/
def Holding.entered (h : Holding) (offered : Option String) : Holding where
  component := { h.component with name := h.component.name.or offered }
  owned := true

namespace Workspace

variable {w w' : Workspace} {s : StackId} {arg : Argument} {offered : Option String}
  {id id' j : ComponentId} {held : Holding}

/-! ### The small changes -/

theorem getElem?_mark (w : Workspace) (id j : ComponentId) (b : Bool) :
    (w.mark id b).holdings[j]? =
      (w.holdings[j]?).map fun h => if id = j then { h with owned := b } else h := by
  rw [mark, List.getElem?_modify]
  rfl

theorem getElem?_rename (w : Workspace) (id j : ComponentId) (name : String) :
    (w.rename id name).holdings[j]? = (w.holdings[j]?).map fun h =>
      if id = j then { h with component := { h.component with name := some name } } else h := by
  rw [rename, List.getElem?_modify]
  rfl

theorem getElem?_declare_of_eq_some (c : Component Schema) (hj : w.holdings[j]? = some held) :
    (w.declare c).2.holdings[j]? = some held := by
  rw [declare, List.getElem?_append_left (List.getElem?_eq_some_iff.1 hj).1, hj]

theorem getElem?_arrive (arg : Argument) (hj : w.holdings[j]? = some held) :
    (w.arrive arg).2.holdings[j]? = some held := by
  cases arg with
  | built id => exact hj
  | kind kind | model schema => exact getElem?_declare_of_eq_some _ hj

/-- Only what was there before arrives under an identity that there was. -/
theorem arrive_eq_iff (hj : w.holdings[j]? = some held) :
    (w.arrive arg).1 = j ↔ arg.identity? = some j := by
  cases arg with
  | built id => exact Option.some_inj.symm
  | kind kind | model schema =>
    have hlt := (List.getElem?_eq_some_iff.1 hj).1
    exact ⟨fun h => absurd h (Nat.ne_of_gt hlt), nofun⟩

/-! ### What adding does -/

/-- Claiming marks what is claimed, or a copy that was not there before. -/
theorem holdings_of_claim (h : claim id w = .ok id' w') (hj : w.holdings[j]? = some held) :
    w'.holdings[j]? = some (if id' = j then { held with owned := true } else held) ∧
      (id' = j ↔ id = j ∧ held.owned = false) := by
  rw [claim_apply] at h
  cases hid : w.holdings[id]? with
  | none =>
    rw [hid] at h
    cases h
  | some held' =>
    rw [hid] at h
    dsimp only at h
    split at h
    · next howned =>
      split at h
      · cases h
        have hne : w.holdings.length ≠ j := Nat.ne_of_gt (List.getElem?_eq_some_iff.1 hj).1
        rw [getElem?_mark, getElem?_declare_of_eq_some _ hj, if_neg hne]
        refine ⟨by simp [hne], fun heq => absurd heq hne, ?_⟩
        rintro ⟨rfl, hnot⟩
        obtain rfl := Option.some.inj (hid.symm.trans hj)
        rw [howned] at hnot
        cases hnot
      · cases h
    · next hnot =>
      cases h
      rw [getElem?_mark, hj]
      refine ⟨rfl, fun heq => ⟨heq, ?_⟩, And.left⟩
      subst heq
      obtain rfl := Option.some.inj (hid.symm.trans hj)
      exact Bool.eq_false_iff.2 hnot

theorem claim_error {e : Error} (h : claim id w = .error e w') : w' = w := by
  rw [claim_apply] at h
  split at h
  · cases h
    rfl
  · split at h
    · split at h <;> cases h
      rfl
    · cases h

theorem holdings_of_settleName (h : settleName id offered w = .ok () w')
    (hj : w.holdings[j]? = some held) :
    w'.holdings[j]? = some (if id = j then
      { held with component := { held.component with name := held.component.name.or offered } }
      else held) := by
  obtain ⟨c, name, hc, hname, rfl⟩ := settleName_eq_ok h
  by_cases heq : id = j
  · subst heq
    rw [component?, hj] at hc
    cases hc
    rw [if_pos rfl, hname]
    split
    · next hown =>
      obtain ⟨own, hown⟩ := Option.isSome_iff_exists.1 hown
      rw [hown, Option.some_or] at hname
      rw [hj, ← hname, ← hown]
    · rw [getElem?_rename, hj, Option.map_some, if_pos rfl]
  · rw [if_neg heq]
    split
    · exact hj
    · rw [getElem?_rename, hj, Option.map_some, if_neg heq]

theorem settleName_error {e : Error} (h : settleName id offered w = .error e w') : w' = w := by
  rw [settleName_apply] at h
  split at h
  · cases h
    rfl
  · split at h
    · cases h
      rfl
    · split at h <;> cases h
      rfl

/-- **What is added is marked and named**, if it was there and is not owned. All other components
that were there are left alone. -/
theorem holdings_of_add (h : Workspace.add s arg offered w = .ok id w')
    (hj : w.holdings[j]? = some held) :
    w'.holdings[j]? = some (if id = j then held.entered offered else held) ∧
      (id = j ↔ arg.identity? = some j ∧ held.owned = false) := by
  obtain ⟨w₁, w₂, hclaim, hsettle, rfl⟩ := add_eq_ok h
  obtain ⟨hmarked, hwhich⟩ := holdings_of_claim hclaim (getElem?_arrive arg hj)
  rw [arrive_eq_iff hj] at hwhich
  have hnamed := holdings_of_settleName hsettle hmarked
  refine ⟨hnamed.trans ?_, hwhich⟩
  by_cases heq : id = j
  · rw [if_pos heq, if_pos heq, if_pos heq]
    rfl
  · rw [if_neg heq, if_neg heq, if_neg heq]

/-- If the adding fails, components are as they were. -/
theorem holdings_of_add_error {e : Error} (h : Workspace.add s arg offered w = .error e w')
    (hj : w.holdings[j]? = some held) : w'.holdings[j]? = some held := by
  rw [add_apply] at h
  split at h
  · cases h
    exact hj
  rw [receive_apply] at h
  cases hclaim : claim (w.arrive arg).1 (w.arrive arg).2 with
  | error e₁ w₁ =>
    rw [hclaim] at h
    cases h
    rw [claim_error hclaim]
    exact getElem?_arrive arg hj
  | ok id' w₁ =>
    rw [hclaim] at h
    dsimp only at h
    cases hsettle : settleName id' offered w₁ with
    | ok u w₂ =>
      rw [hsettle] at h
      cases h
    | error e₂ w₂ =>
      rw [hsettle] at h
      cases h
      obtain rfl := settleName_error hsettle
      obtain ⟨hmarked, hwhich⟩ := holdings_of_claim hclaim (getElem?_arrive arg hj)
      rw [getElem?_mark, hmarked, Option.map_some]
      by_cases heq : id' = j
      · -- What was claimed had no owner before.
        rw [if_pos heq, if_pos heq]
        exact congrArg some (congrArg (Holding.mk held.component) (hwhich.1 heq).2.symm)
      · rw [if_neg heq, if_neg heq]

/-! ### What can be added -/

/-- What no stack owns can be added, if there is a valid name for it. -/
theorem exists_add {name : String} (hs : (w.stack? s).isSome)
    (hname : Path.validateName name = .ok ())
    (harg : ∀ id, arg.identity? = some id → ∃ held, w.holdings[id]? = some held ∧
      held.owned = false ∧ ∀ own, held.component.name = some own → Path.validateName own = .ok ()) :
    ∃ id w', Workspace.add s arg (some name) w = .ok id w' := by
  obtain ⟨held, hheld, hfree, hown⟩ : ∃ held,
      (w.arrive arg).2.holdings[(w.arrive arg).1]? = some held ∧ held.owned = false ∧
        ∀ own, held.component.name = some own → Path.validateName own = .ok () := by
    cases arg with
    | built id => exact harg id rfl
    | kind kind | model schema =>
      exact ⟨_, List.getElem?_concat_length, rfl, nofun⟩
  have hclaim : claim (w.arrive arg).1 (w.arrive arg).2 =
      .ok (w.arrive arg).1 ((w.arrive arg).2.mark (w.arrive arg).1 true) := by
    rw [claim_apply, hheld]
    exact if_neg (by rw [hfree]; exact Bool.false_ne_true)
  have hc : ((w.arrive arg).2.mark (w.arrive arg).1 true).component? (w.arrive arg).1 =
      some held.component := by
    rw [component?_mark, component?, hheld]
    rfl
  obtain ⟨own, hor, hvalid⟩ : ∃ own, held.component.name.or (some name) = some own ∧
      Path.validateName own = .ok () := by
    cases hn : held.component.name with
    | none => exact ⟨name, rfl, hname⟩
    | some own => exact ⟨own, rfl, hown own hn⟩
  obtain ⟨w₂, hsettle⟩ := settleName_ok hc hor hvalid
  obtain ⟨t, ht⟩ := Option.isSome_iff_exists.1 hs
  rw [add_apply, ht, receive_apply, hclaim]
  dsimp only
  rw [hsettle]
  exact ⟨_, _, rfl⟩

/-- A component that cannot be added under a valid name is owned or has a name of its own. -/
theorem owned_or_named_of_add_error {name : String} {e : Error} (hs : (w.stack? s).isSome)
    (hname : Path.validateName name = .ok ()) (hj : w.holdings[j]? = some held)
    (h : Workspace.add s (.built j) (some name) w = .error e w') :
    held.owned = true ∨ held.component.name.isSome := by
  by_contra hnot
  rw [not_or, Bool.not_eq_true, Option.not_isSome_iff_eq_none] at hnot
  obtain ⟨id, w₂, hok⟩ : ∃ id w₂, Workspace.add s (.built j) (some name) w = .ok id w₂ := by
    refine exists_add hs hname fun id hid => ?_
    cases hid
    exact ⟨held, hj, hnot.1, by rw [hnot.2]; nofun⟩
  rw [h] at hok
  cases hok

end Workspace

end VersionedModel
