import VersionedModel.Proofs.Workspace.Accounts
import VersionedModel.Proofs.Workspace.Runs

/-!
# Who owns what

Whatever is done to a workspace, its accounts stay in order: a component is marked as owned exactly
while it is a member of a stack, it is a member only once, and it has a valid name then
(`Workspace.accounts_of_run`). This holds of operations that fail as well: a component that was
claimed and then refused for its name is released, and so are the members of a stack whose schema
could not be compiled.

The equations of the actions (`claim_apply`, `receive_apply`, `add_apply`) say what each of them
answers and leaves; that compilations keep the accounts follows from what `add` keeps.
-/

namespace VersionedModel

namespace Workspace

open Workspace.Action Outcome

/-! ### What the actions answer and leave -/

/-- The component that something is, declared if it is not there yet. -/
def arrive (w : Workspace) : Argument → ComponentId × Workspace
  | .built id => (id, w)
  | .kind kind => w.declare (.ofKind (.leaf kind))
  | .model schema => w.declare (.ofKind (.model schema))

theorem holding_apply (id : ComponentId) (w : Workspace) :
    holding id w =
      match w.holdings[id]? with
      | some h => .ok h w
      | none => .error (.unknownComponent id) w := by
  unfold holding
  rw [bind_apply, get_apply]
  dsimp only
  cases w.holdings[id]? <;> rfl

theorem claim_apply (id : ComponentId) (w : Workspace) :
    claim id w =
      match w.holdings[id]? with
      | none => .error (.unknownComponent id) w
      | some h =>
        if h.owned then
          if h.component.copyable then
            .ok w.holdings.length ((w.declare h.component).2.mark w.holdings.length true)
          else .error (.alreadyOwned (h.component.name.getD h.component.kindName)) w
        else .ok id (w.mark id true) := by
  unfold claim
  rw [bind_apply, holding_apply]
  cases w.holdings[id]? with
  | none => rfl
  | some h =>
    cases ho : h.owned <;> cases hc : h.component.copyable <;> simp [ho, hc] <;> rfl

theorem ensure_apply (x : Except Error Unit) (w : Workspace) :
    ensure x w =
      match x with
      | .ok () => .ok () w
      | .error e => .error e w := by
  cases x <;> rfl

theorem settleName_apply (id : ComponentId) (offered : Option String) (w : Workspace) :
    settleName id offered w =
      match w.component? id with
      | none => .error (.unknownComponent id) w
      | some c =>
        match c.name.or offered with
        | none => .error (.invalidName (.unnamed c.kindName)) w
        | some name =>
          match Path.validateName name with
          | .error e => .error e w
          | .ok () => .ok () (if c.name.isSome then w else w.rename id name) := by
  unfold settleName
  rw [bind_apply, holding_apply, component?]
  cases w.holdings[id]? with
  | none => rfl
  | some h =>
    simp only [Option.map_some]
    cases hn : h.component.name with
    | some name =>
      simp only [ensure_apply, Option.some_or]
      cases Path.validateName name <;> rfl
    | none =>
      cases offered with
      | none => rfl
      | some name =>
        simp only [bind_apply, ensure_apply, Option.none_or]
        cases Path.validateName name <;> rfl

theorem receive_apply (arg : Argument) (offered : Option String) (w : Workspace) :
    receive arg offered w =
      match claim (w.arrive arg).1 (w.arrive arg).2 with
      | .error e w' => .error e w'
      | .ok id w' =>
        match settleName id offered w' with
        | .ok () w'' => .ok id w''
        | .error e w'' => .error e (w''.mark id false) := by
  have key : ∀ id w, (do
      let id ← claim id
      try
        settleName id offered
        return id
      catch e =>
        modify fun w => w.mark id false
        throw e : Action ComponentId) w =
      match claim id w with
      | .error e w' => .error e w'
      | .ok id w' =>
        match settleName id offered w' with
        | .ok () w'' => .ok id w''
        | .error e w'' => .error e (w''.mark id false) := by
    intro id w
    rw [bind_apply]
    cases claim id w with
    | error e w' => rfl
    | ok id w' =>
      dsimp only
      rw [bind_apply, tryCatch_apply, bind_apply]
      cases settleName id offered w' <;> rfl
  -- Arguments differ in what arrives, not in what is done with it.
  cases arg <;> exact key _ _

theorem requireStack_apply (s : StackId) (w : Workspace) :
    requireStack s w =
      if (w.stack? s).isNone then .error (.unknownStack s) w else .ok () w := by
  unfold requireStack
  rw [bind_apply, get_apply]
  dsimp only
  cases w.stack? s <;> rfl

theorem add_apply (s : StackId) (arg : Argument) (offered : Option String) (w : Workspace) :
    Workspace.add s arg offered w =
      if (w.stack? s).isNone then .error (.unknownStack s) w
      else
        match receive arg offered w with
        | .error e w' => .error e w'
        | .ok id w' => .ok id (w'.setMembers s (w'.memberIds s ++ [id])) := by
  unfold Workspace.add
  rw [bind_apply, requireStack_apply]
  cases w.stack? s with
  | none => rfl
  | some t =>
    simp only [Option.isNone_some, Bool.false_eq_true, if_false]
    rw [bind_apply]
    cases receive arg offered w <;> rfl

theorem insert_apply (s : StackId) (index : Nat) (arg : Argument) (w : Workspace) :
    Workspace.insert s index arg w =
      if (w.stack? s).isNone then .error (.unknownStack s) w
      else
        match receive arg none w with
        | .error e w' => .error e w'
        | .ok id w' =>
          .ok id (w'.setMembers s
            ((w'.memberIds s).take index ++ id :: (w'.memberIds s).drop index)) := by
  unfold Workspace.insert
  rw [bind_apply, requireStack_apply]
  cases w.stack? s with
  | none => rfl
  | some t =>
    simp only [Option.isNone_some, Bool.false_eq_true, if_false]
    rw [bind_apply]
    cases receive arg none w <;> rfl

/-! ### Actions that succeed -/

section Success

variable {id : ComponentId} {arg : Argument} {offered : Option String} {w w' : Workspace}

theorem settleName_eq_ok (h : settleName id offered w = .ok () w') :
    ∃ c name, w.component? id = some c ∧ c.name.or offered = some name ∧
      w' = if c.name.isSome then w else w.rename id name := by
  rw [settleName_apply] at h
  cases hc : w.component? id with
  | none =>
    rw [hc] at h
    cases h
  | some c =>
    rw [hc] at h
    dsimp only at h
    cases hname : c.name.or offered with
    | none =>
      rw [hname] at h
      cases h
    | some name =>
      rw [hname] at h
      dsimp only at h
      split at h
      · cases h
      · cases h
        exact ⟨c, name, rfl, hname, rfl⟩

theorem receive_eq_ok (h : receive arg offered w = .ok id w') :
    ∃ w₁, claim (w.arrive arg).1 (w.arrive arg).2 = .ok id w₁ ∧
      settleName id offered w₁ = .ok () w' := by
  rw [receive_apply] at h
  cases hclaim : claim (w.arrive arg).1 (w.arrive arg).2 with
  | error e w₁ =>
    rw [hclaim] at h
    cases h
  | ok id' w₁ =>
    rw [hclaim] at h
    dsimp only at h
    cases hsettle : settleName id' offered w₁ with
    | error e w₂ =>
      rw [hsettle] at h
      cases h
    | ok u w₂ =>
      rw [hsettle] at h
      cases h
      exact ⟨w₁, rfl, hsettle⟩

/-- What is added was claimed, and a name was settled on. -/
theorem add_eq_ok {s : StackId} (h : Workspace.add s arg offered w = .ok id w') :
    ∃ w₁ w₂, claim (w.arrive arg).1 (w.arrive arg).2 = .ok id w₁ ∧
      settleName id offered w₁ = .ok () w₂ ∧
      w' = w₂.setMembers s (w₂.memberIds s ++ [id]) := by
  rw [add_apply] at h
  split at h
  · cases h
  · split at h
    · cases h
    · next id' w₂ hreceive =>
      cases h
      obtain ⟨w₁, hclaim, hsettle⟩ := receive_eq_ok hreceive
      exact ⟨w₁, w₂, hclaim, hsettle, rfl⟩

end Success

/-! ### Actions keep the accounts -/

/-- The workspace `w` has come from `w₀` without a change of stacks, and its accounts are in order
while some components are underway. -/
structure Underway (w₀ : Workspace) (underway : List ComponentId) (w : Workspace) : Prop where
  /-- The accounts. -/
  accounted : Accounted underway w
  /-- The stacks. -/
  stackTable_eq : w.stackTable = w₀.stackTable
  /-- The components. -/
  later : Later w₀ w

theorem later_mark (w : Workspace) (id : ComponentId) (b : Bool) : Later w (w.mark id b) :=
  fun j c hc _ => by rwa [component?_mark]

theorem later_declare (w : Workspace) (c : Component Schema) : Later w (w.declare c).2 := by
  intro j c' hc' _
  have hj : j < w.holdings.length := component?_isSome.1 (by simp [hc'])
  rwa [component?_declare, if_neg (Nat.ne_of_lt hj)]

theorem later_rename {w : Workspace} {id : ComponentId} {c : Component Schema} (name : String)
    (hc : w.component? id = some c) (hn : c.name = none) : Later w (w.rename id name) := by
  intro j c' hc' hn'
  have hj : id ≠ j := by
    rintro rfl
    rw [hc] at hc'
    cases hc'
    simp [hn] at hn'
  rwa [component?_rename, if_neg hj]

theorem isOwned_of_getElem? {w : Workspace} {id : Nat} {h : Holding}
    (hh : w.holdings[id]? = some h) : w.isOwned id = h.owned ∧ id < w.holdings.length :=
  ⟨by simp [isOwned, hh], (List.getElem?_eq_some_iff.1 hh).1⟩

theorem claim_ensures (w₀ : Workspace) (id : ComponentId) :
    Ensures (Underway w₀ []) (claim id) (fun id => Underway w₀ [id]) (Underway w₀ []) := by
  intro w hw
  rw [claim_apply]
  cases hh : w.holdings[id]? with
  | none => exact hw
  | some h =>
    obtain ⟨ho, hlt⟩ := isOwned_of_getElem? hh
    dsimp only
    cases hown : h.owned with
    | false =>
      rw [if_neg Bool.false_ne_true]
      exact ⟨hw.accounted.claim hlt (ho.trans hown), hw.stackTable_eq,
        hw.later.trans (later_mark w id true)⟩
    | true =>
      rw [if_pos rfl]
      cases h.component.copyable with
      | false => exact hw
      | true =>
        rw [if_pos rfl]
        -- The copy gets an identity that nothing had before.
        have hnew : ¬ (w.declare h.component).2.isOwned w.holdings.length = true := by
          rw [isOwned_declare]
          exact fun hc => Nat.lt_irrefl _ (lt_of_isOwned hc)
        refine ⟨(hw.accounted.declare h.component).claim ?_ (by simpa using hnew),
          hw.stackTable_eq, (hw.later.trans (later_declare w _)).trans (later_mark _ _ _)⟩
        simp [Workspace.declare]

theorem settleName_ensures (w₀ : Workspace) (id : ComponentId) (offered : Option String) :
    Ensures (Underway w₀ [id]) (settleName id offered)
      (fun _ w => Underway w₀ [id] w ∧ w.Named id) (Underway w₀ [id]) := by
  intro w hw
  rw [settleName_apply]
  cases hc : w.component? id with
  | none => exact hw
  | some c =>
    dsimp only
    cases hname : c.name.or offered with
    | none => exact hw
    | some name =>
      dsimp only
      cases hv : Path.validateName name with
      | error e => exact hw
      | ok u =>
        dsimp only
        -- Only a component without a name is renamed, so names that were given stay.
        cases hn : c.name with
        | some own =>
          rw [hn, Option.some_or] at hname
          cases hname
          exact ⟨hw, c, name, hc, hn, hv⟩
        | none =>
          refine ⟨⟨hw.accounted.rename id hv, hw.stackTable_eq,
            hw.later.trans (later_rename name hc hn)⟩, { c with name := some name }, name, ?_, rfl,
            hv⟩
          rw [Option.isSome_none, if_neg Bool.false_ne_true, component?_rename, if_pos rfl, hc]
          rfl

theorem underway_arrive {w₀ w : Workspace} (hw : Underway w₀ [] w) (arg : Argument) :
    Underway w₀ [] (w.arrive arg).2 := by
  cases arg with
  | built id => exact hw
  | kind kind =>
    exact ⟨hw.accounted.declare _, hw.stackTable_eq, hw.later.trans (later_declare w _)⟩
  | model schema =>
    exact ⟨hw.accounted.declare _, hw.stackTable_eq, hw.later.trans (later_declare w _)⟩

/-- What is received is claimed and has a valid name, and what is refused is not claimed. -/
theorem receive_ensures (w₀ : Workspace) (arg : Argument) (offered : Option String) :
    Ensures (Underway w₀ []) (receive arg offered)
      (fun id w => Underway w₀ [id] w ∧ w.Named id) (Underway w₀ []) := by
  intro w hw
  rw [receive_apply]
  have hclaim := claim_ensures w₀ (w.arrive arg).1 _ (underway_arrive hw arg)
  cases hc : claim (w.arrive arg).1 (w.arrive arg).2 with
  | error e w' =>
    rw [hc] at hclaim
    exact hclaim
  | ok id w' =>
    rw [hc] at hclaim
    have hsettle := settleName_ensures w₀ id offered w' hclaim
    dsimp only
    cases hs : settleName id offered w' with
    | ok u w'' =>
      rw [hs] at hsettle
      exact hsettle
    | error e w'' =>
      -- The claim is given back.
      rw [hs] at hsettle
      exact ⟨hsettle.accounted.unclaim, hsettle.stackTable_eq,
        hsettle.later.trans (later_mark _ _ _)⟩

theorem stack?_of_stackTable_eq {w w' : Workspace} (h : w'.stackTable = w.stackTable)
    (s : StackId) : w'.stack? s = w.stack? s := by
  rw [stack?, stack?, h]

theorem memberIds_of_stackTable_eq {w w' : Workspace} (h : w'.stackTable = w.stackTable)
    (s : StackId) : w'.memberIds s = w.memberIds s := by
  rw [memberIds, memberIds, stack?_of_stackTable_eq h]

/-- The workspace `w` has come from `w₀`, and its accounts are in order. -/
structure Orderly (w₀ w : Workspace) : Prop where
  /-- The accounts. -/
  accounted : Accounted [] w
  /-- The components. -/
  later : Later w₀ w

theorem Orderly.refl {w : Workspace} (h : Accounted [] w) : Orderly w w := ⟨h, .refl w⟩

theorem Orderly.trans {w₁ w₂ w₃ : Workspace} (h : Orderly w₁ w₂) (h' : Orderly w₂ w₃) :
    Orderly w₁ w₃ :=
  ⟨h'.accounted, h.later.trans h'.later⟩

/-- What is added is a member with a valid name, at the end of the stack; if nothing is added,
the stacks are as they were. -/
theorem add_spec {w : Workspace} (hw : Accounted [] w) (s : StackId) (arg : Argument)
    (offered : Option String) :
    match Workspace.add s arg offered w with
    | .ok id w' => Orderly w w' ∧ w'.Named id ∧ (w.stack? s).isSome ∧
        w'.stackTable = (w.setMembers s (w.memberIds s ++ [id])).stackTable
    | .error _ w' => Orderly w w' ∧ w'.stackTable = w.stackTable := by
  rw [add_apply]
  cases hs : w.stack? s with
  | none => exact ⟨.refl hw, rfl⟩
  | some t =>
    simp only [Option.isNone_some, Bool.false_eq_true, if_false]
    have hreceive := receive_ensures w arg offered w ⟨hw, rfl, .refl w⟩
    cases hr : receive arg offered w with
    | error e w' =>
      rw [hr] at hreceive
      exact ⟨⟨hreceive.accounted, hreceive.later⟩, hreceive.stackTable_eq⟩
    | ok id w' =>
      rw [hr] at hreceive
      obtain ⟨hu, hn⟩ := hreceive
      have hs' : w'.stack? s = some t := (stack?_of_stackTable_eq hu.stackTable_eq s).trans hs
      refine ⟨⟨hu.accounted.enter hn hs' ?_, hu.later⟩, hn.of_component?_eq (by simp),
        by simp, ?_⟩
      · exact List.perm_append_singleton id _
      · rw [memberIds_of_stackTable_eq hu.stackTable_eq, setMembers, hu.stackTable_eq]
        rfl

theorem insert_orderly {w : Workspace} (hw : Accounted [] w) (s : StackId) (index : Nat)
    (arg : Argument) : Orderly w ((Workspace.insert s index arg).final w) := by
  rw [Action.final, insert_apply]
  cases hs : w.stack? s with
  | none => exact .refl hw
  | some t =>
    simp only [Option.isNone_some, Bool.false_eq_true, if_false]
    have hreceive := receive_ensures w arg none w ⟨hw, rfl, .refl w⟩
    cases hr : receive arg none w with
    | error e w' =>
      rw [hr] at hreceive
      exact ⟨hreceive.accounted, hreceive.later⟩
    | ok id w' =>
      rw [hr] at hreceive
      obtain ⟨hu, hn⟩ := hreceive
      have hs' : w'.stack? s = some t := (stack?_of_stackTable_eq hu.stackTable_eq s).trans hs
      refine ⟨hu.accounted.enter hn hs' ?_, hu.later⟩
      refine List.perm_middle.trans (List.Perm.cons id ?_)
      rw [List.take_append_drop]

/-! ### Compilations keep the accounts -/

/-- Success or failure, the action keeps the accounts in order. -/
def Action.Keeps {α : Type} (x : Action α) : Prop :=
  ∀ w₀, Ensures (Orderly w₀) x (fun _ => Orderly w₀) (Orderly w₀)

section Keeps

variable {α β : Type}

theorem Action.Keeps.bind {x : Action α} {f : α → Action β} (hx : x.Keeps)
    (hf : ∀ a, (f a).Keeps) : (x >>= f).Keeps :=
  fun w₀ => (hx w₀).bind fun a => hf a w₀

theorem Action.Keeps.final {x : Action α} (hx : x.Keeps) {w : Workspace} (hw : Accounted [] w) :
    Orderly w (x.final w) :=
  (hx w).final (.refl hw)

theorem keeps_pure (a : α) : (pure a : Action α).Keeps := fun _ => .pure fun _ h => h

section Compiling

variable {inv : Workspace → Prop} {s : StackId}

theorem ensures_ite {p : Prop} [Decidable p] {x y : Action α}
    (hx : Ensures inv x (fun _ => inv) inv) (hy : Ensures inv y (fun _ => inv) inv) :
    Ensures inv (if p then x else y) (fun _ => inv) inv := by
  split
  · exact hx
  · exact hy

theorem ensures_step (x : Except Error α) :
    Ensures inv (Schema.step x) (fun _ => inv) inv := by
  intro w hw
  cases x <;> exact hw

theorem ensures_ensure (x : Except Error Unit) :
    Ensures inv (ensure x) (fun _ => inv) inv := by
  intro w hw
  cases x <;> exact hw

theorem ensures_holding (id : ComponentId) :
    Ensures inv (holding id) (fun _ => inv) inv := by
  intro w hw
  rw [holding_apply]
  cases w.holdings[id]? <;> exact hw

/-- Compiling a member keeps what adding to the stack keeps. -/
theorem ensures_compileMember
    (hadd : ∀ arg offered, Ensures inv (Workspace.add s arg offered) (fun _ => inv) inv)
    (d : Schema.Draft) (m : Member) :
    Ensures inv (Schema.compileMember s d m) (fun _ => inv) inv := by
  have hpure : ∀ {β : Type} (b : β), Ensures inv (pure b) (fun _ => inv) inv :=
    fun _ => .pure fun _ h => h
  cases m with
  | field name arg =>
    refine (ensures_ensure _).bind fun _ => ?_
    split
    · exact (ensures_step _).bind fun _ => hpure _
    · unfold Schema.compileFresh
      refine (hadd _ _).bind fun id => (ensures_holding id).bind fun h =>
        (ensures_step _).bind fun bound => ensures_ite ?_ ?_
      · exact (hpure _).bind fun _ => hpure _
      · exact (ensures_step _).bind fun _ => hpure _
  | aliasOf name target =>
    exact (ensures_ensure _).bind fun _ => (ensures_step _).bind fun _ => hpure _

end Compiling

theorem keeps_add (s : StackId) (arg : Argument) (offered : Option String) :
    (Workspace.add s arg offered).Keeps := by
  intro w₀ w hw
  have h := add_spec hw.accounted s arg offered
  cases hr : Workspace.add s arg offered w with
  | ok id w' =>
    rw [hr] at h
    exact hw.trans h.1
  | error e w' =>
    rw [hr] at h
    exact hw.trans h.1

theorem keeps_compileMember (s : StackId) (d : Schema.Draft) (m : Member) :
    (Schema.compileMember s d m).Keeps :=
  fun w₀ => ensures_compileMember (fun arg offered => keeps_add s arg offered w₀) d m

theorem orderly_openStack {w₀ w : Workspace} (hw : Orderly w₀ w) (rule : Rule) :
    Orderly w₀ (w.openStack rule).2 :=
  ⟨hw.accounted.openStack rule, hw.later.trans fun _ _ h _ => h⟩

theorem orderly_destroy {w₀ w : Workspace} (hw : Orderly w₀ w) (s : StackId) :
    Orderly w₀ (w.destroy s) :=
  ⟨hw.accounted.destroy s, hw.later.trans fun id _ h _ =>
    (component?_release w id (w.memberIds s)).trans h⟩

theorem withStack_apply (rule : Rule) (action : StackId → Action α) (w : Workspace) :
    Schema.withStack rule action w =
      match action w.stackTable.length (w.openStack rule).2 with
      | .ok a w' => .ok a w'
      | .error e w' => .error e (w'.destroy w.stackTable.length) := by
  unfold Schema.withStack
  rw [bind_apply]
  change tryCatch (action w.stackTable.length) _ (w.openStack rule).2 = _
  rw [tryCatch_apply]
  cases action w.stackTable.length (w.openStack rule).2 <;> rfl

/-- A stack that is made for nothing is destroyed, with all that was put on it. -/
theorem keeps_withStack (rule : Rule) {action : StackId → Action α}
    (h : ∀ s, (action s).Keeps) : (Schema.withStack rule action).Keeps := by
  intro w₀ w hw
  rw [withStack_apply]
  have := h w.stackTable.length w₀ _ (orderly_openStack hw rule)
  cases hr : action w.stackTable.length (w.openStack rule).2 with
  | ok a w' =>
    rw [hr] at this
    exact this
  | error e w' =>
    rw [hr] at this
    exact orderly_destroy this _

theorem keeps_build (d : Declaration) : (Schema.build d).Keeps := by
  refine keeps_withStack _ fun s => Action.Keeps.bind (fun w₀ => ?_) fun _ => keeps_pure _
  exact Ensures.foldlM (fun d m => keeps_compileMember s d m w₀) _ _

theorem keeps_empty (name : String) : (Schema.empty name).Keeps :=
  keeps_withStack _ fun _ => keeps_pure _

theorem keeps_ofStack (name : String) (s : StackId) (settings : Settings) :
    (Schema.ofStack name s settings).Keeps := by
  intro w₀
  refine Ensures.get_bind fun w => ?_
  refine Ensures.mono ((ensures_step _).bind fun _ => keeps_pure _ w₀) (fun _ h => h.1) ?_ ?_
  · exact fun _ _ h => h
  · exact fun _ h => h

theorem keeps_pushAll (s : StackId) (args : List Argument) :
    (forIn args PUnit.unit fun arg _ => do
      let _ ← Workspace.push s arg
      pure (ForInStep.yield PUnit.unit) : Action PUnit).Keeps := by
  induction args with
  | nil => exact keeps_pure _
  | cons arg args ih =>
    rw [List.forIn_cons]
    exact ((keeps_add s arg none).bind fun _ => keeps_pure _).bind fun
      | .done _ => keeps_pure _
      | .yield _ => ih

theorem keeps_ofComponents (name : String) (args : List Argument) (settings : Settings) :
    (Schema.ofComponents name args settings).Keeps :=
  keeps_withStack _ fun s => (keeps_pushAll s args).bind fun _ => keeps_ofStack name s settings

end Keeps

/-! ### Runs keep the accounts -/

theorem orderly_foldl_destroy {w₀ w : Workspace} (hw : Orderly w₀ w) (gone : List StackId) :
    Orderly w₀ (gone.foldl destroy w) := by
  induction gone generalizing w with
  | nil => exact hw
  | cons s gone ih => exact ih (orderly_destroy hw s)

theorem orderly_settleWithin {w₀ w : Workspace} (hw : Orderly w₀ w) (h : Holders)
    (rounds : Nat) : Orderly w₀ (w.settleWithin h rounds) := by
  induction rounds generalizing w with
  | zero => exact hw
  | succ rounds ih =>
    rw [settleWithin]
    split
    · exact hw
    · exact ih (orderly_foldl_destroy hw _)

theorem later_of_component?_eq {w w' : Workspace}
    (h : ∀ id, w'.component? id = w.component? id) : Later w w' :=
  fun id _ hc _ => (h id).trans hc

theorem later_pop (w : Workspace) (s : StackId) (index : Nat) : Later w (w.pop s index).2 := by
  simp only [Workspace.pop]
  split
  · exact later_of_component?_eq fun id => by simp
  · exact .refl w

/-- **Every operation keeps the accounts in order**, whether it succeeds or fails. -/
theorem Operation.apply_orderly {w : Workspace} (hw : Accounted [] w) (op : Operation) :
    Orderly w (op.apply w) := by
  cases op with
  | declare c => exact ⟨hw.declare c, later_declare w c⟩
  | openStack rule => exact orderly_openStack (.refl hw) rule
  | add s arg offered => exact (keeps_add s arg offered).final hw
  | push s arg => exact (keeps_add s arg none).final hw
  | insert s index arg => exact insert_orderly hw s index arg
  | pop s index => exact ⟨hw.pop s index, later_pop w s index⟩
  | popLast s => exact ⟨hw.pop s _, later_pop w s _⟩
  | discard s id =>
    refine ⟨hw.discard s id, ?_⟩
    simp only [Operation.apply, Workspace.discard]
    split
    · exact later_of_component?_eq fun id => by simp
    · exact .refl w
  | clear s =>
    exact ⟨hw.clear s, later_of_component?_eq fun id => by simp [apply, Workspace.clear]⟩
  | build d => exact (keeps_build d).final hw
  | ofStack name s settings => exact (keeps_ofStack name s settings).final hw
  | ofComponents name args settings => exact (keeps_ofComponents name args settings).final hw
  | emptySchema name => exact (keeps_empty name).final hw
  | destroy s => exact orderly_destroy (.refl hw) s
  | settle holders => exact orderly_settleWithin (.refl hw) holders _

theorem orderly_run {w : Workspace} (hw : Accounted [] w) (ops : List Operation) :
    Orderly w (w.run ops) :=
  run_induction (fun _ op h => h.trans (Operation.apply_orderly h.accounted op)) (.refl hw) ops

theorem Reachable.accounted {w : Workspace} (h : w.Reachable) : Accounted [] w := by
  obtain ⟨ops, rfl⟩ := h
  exact (orderly_run .empty ops).accounted

/-! ### Adding what is there -/

theorem settleName_ok {w : Workspace} {id : ComponentId} {c : Component Schema}
    {offered : Option String} {name : String} (hc : w.component? id = some c)
    (hname : c.name.or offered = some name) (hv : Path.validateName name = .ok ()) :
    ∃ w', settleName id offered w = .ok () w' := by
  rw [settleName_apply, hc]
  dsimp only
  rw [hname]
  dsimp only
  rw [hv]
  exact ⟨_, rfl⟩

/-- A component with a name that will do is refused only if it is owned and may not be copied. If
it is owned and may be copied, a copy is added in its place. -/
theorem add_built {w : Workspace} {s : StackId} {id : ComponentId} {c : Component Schema}
    {offered : Option String} {name : String} (hs : (w.stack? s).isSome)
    (hc : w.component? id = some c) (hname : c.name.or offered = some name)
    (hv : Path.validateName name = .ok ()) :
    if w.isOwned id = true ∧ c.copyable = false then
      Workspace.add s (.built id) offered w =
        .error (.alreadyOwned (c.name.getD c.kindName)) w
    else
      ∃ id' w', Workspace.add s (.built id) offered w = .ok id' w' ∧
        (id' = id ↔ w.isOwned id = false) := by
  obtain ⟨h, hh, rfl⟩ := Option.map_eq_some_iff.1 hc
  obtain ⟨ho, hlt⟩ := isOwned_of_getElem? hh
  obtain ⟨t, ht⟩ := Option.isSome_iff_exists.1 hs
  rw [add_apply, ht, receive_apply]
  dsimp only [arrive, Option.isNone_some]
  rw [claim_apply, hh, ho, if_neg Bool.false_ne_true]
  dsimp only
  cases hown : h.owned with
  | false =>
    rw [if_neg (by simp), if_neg Bool.false_ne_true]
    have hc' : (w.mark id true).component? id = some h.component := by simpa using hc
    obtain ⟨w', hw'⟩ := settleName_ok hc' hname hv
    dsimp only
    rw [hw']
    exact ⟨id, _, rfl, by simp⟩
  | true =>
    rw [if_pos rfl]
    cases hcopy : h.component.copyable with
    | false =>
      rw [if_pos ⟨rfl, rfl⟩, if_neg Bool.false_ne_true]
    | true =>
      rw [if_neg (by simp), if_pos rfl]
      -- It is the copy that is given a name.
      have hc' : ((w.declare h.component).2.mark w.holdings.length true).component?
          w.holdings.length = some { h.component with id := w.holdings.length } := by
        rw [component?_mark, component?_declare, if_pos rfl]
      obtain ⟨w', hw'⟩ := settleName_ok hc' hname hv
      dsimp only
      rw [hw']
      refine ⟨w.holdings.length, _, rfl, ?_⟩
      simp only [Bool.true_eq_false, iff_false]
      exact Nat.ne_of_gt hlt

/-- **Ownership over whole runs.** After any run, a component is marked as owned exactly if it is a
member of some stack, no component is a member twice, and every member has a valid name. Hence a
component that may not be copied is refused as already owned exactly if it is a member of a stack,
and one that may be copied never is, if there is a valid name for it. -/
theorem isOwned_run_iff (ops : List Operation) :
    let w := Workspace.empty.run ops
    (∀ id, w.isOwned id = true ↔ ∃ s t, w.stack? s = some t ∧ id ∈ t.members) ∧
      w.allMembers.Nodup ∧
      (∀ s t, w.stack? s = some t → ∀ id ∈ t.members, ∃ c name, w.component? id = some c ∧
        c.name = some name ∧ Path.validateName name = .ok ()) ∧
      ∀ s id offered c name, (w.stack? s).isSome → w.component? id = some c →
        c.name.or offered = some name → Path.validateName name = .ok () →
        (c.copyable = false →
          ((∃ label w', Workspace.add s (.built id) offered w =
              .error (.alreadyOwned label) w') ↔
            ∃ s' t, w.stack? s' = some t ∧ id ∈ t.members)) ∧
        (c.copyable = true →
          ∀ label w', Workspace.add s (.built id) offered w ≠
            .error (.alreadyOwned label) w') := by
  intro w
  -- The accounts are in order after every run, and say all of this.
  have hw : Accounted [] w := (orderly_run .empty ops).accounted
  have hiff : ∀ id, w.isOwned id = true ↔ ∃ s t, w.stack? s = some t ∧ id ∈ t.members := by
    intro id
    rw [hw.isOwned_iff, List.nil_append, mem_allMembers]
  refine ⟨hiff, hw.nodup, fun s t ht id hid => ?_, ?_⟩
  · exact hw.named id (mem_allMembers.2 ⟨s, t, ht, hid⟩)
  intro s id offered c name hs hc hname hv
  have hadd := add_built hs hc hname hv
  refine ⟨fun hcopy => ?_, fun hcopy label w' herr => ?_⟩
  · rw [← hiff]
    split at hadd
    · next hown => exact ⟨fun _ => hown.1, fun _ => ⟨_, w, hadd⟩⟩
    · next hown =>
      obtain ⟨id', w', hok, -⟩ := hadd
      refine ⟨?_, fun ho => absurd ⟨ho, hcopy⟩ hown⟩
      rintro ⟨label, w'', herr⟩
      rw [hok] at herr
      cases herr
  · rw [if_neg (by simp [hcopy])] at hadd
    obtain ⟨id', w'', hok, -⟩ := hadd
    rw [hok] at herr
    cases herr

end Workspace

end VersionedModel
