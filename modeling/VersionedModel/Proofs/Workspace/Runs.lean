import VersionedModel.Proofs.Outcome
import VersionedModel.Schema.Build
import VersionedModel.Workspace.Lifetime

/-!
# Runs of a workspace

An `Operation` is one thing that can be done to a workspace from outside: declaring a component,
opening, filling, emptying or destroying a stack, compiling a schema. `Workspace.run` does several,
one after the other, whether each of them succeeds or fails; `Workspace.Reachable` are the
workspaces that some run leads to from the empty one.

An action is judged by what holds before it and what holds after it, in success and in failure
(`Action.Ensures`). Judgements are put together along `bind`, along a failure that is caught and
thrown again, and along folds.
-/

namespace VersionedModel

namespace Workspace

/-- The workspace that an action leaves, whatever comes of it. -/
def Action.final {α : Type} (x : Action α) (w : Workspace) : Workspace :=
  match x w with
  | .ok _ w' => w'
  | .error _ w' => w'

/-! ### Judging actions -/

/-- Started where `pre` holds, the action either succeeds, and `post` holds of its result and the
workspace then, or it fails, and `fail` holds of the workspace then. -/
def Action.Ensures {α : Type} (pre : Workspace → Prop) (x : Action α)
    (post : α → Workspace → Prop) (fail : Workspace → Prop) : Prop :=
  ∀ w, pre w →
    match x w with
    | .ok a w' => post a w'
    | .error _ w' => fail w'

namespace Action

variable {α β : Type} {pre fail : Workspace → Prop} {post : α → Workspace → Prop}
  {x : Action α}

theorem Ensures.bind {mid : α → Workspace → Prop} {post : β → Workspace → Prop}
    {f : α → Action β} (hx : Ensures pre x mid fail)
    (hf : ∀ a, Ensures (mid a) (f a) post fail) : Ensures pre (x >>= f) post fail := by
  intro w hw
  have h := hx w hw
  rw [Outcome.bind_apply]
  cases hr : x w with
  | ok a w' =>
    rw [hr] at h
    exact hf a w' h
  | error e w' =>
    rw [hr] at h
    exact h

theorem Ensures.pure {a : α} (h : ∀ w, pre w → post a w) :
    Ensures pre (Pure.pure a) post fail :=
  h

theorem Ensures.throw {e : Error} (h : ∀ w, pre w → fail w) :
    Ensures pre (throw e : Action α) post fail :=
  h

theorem Ensures.mono {pre' fail' : Workspace → Prop} {post' : α → Workspace → Prop}
    (h : Ensures pre x post fail) (hpre : ∀ w, pre' w → pre w)
    (hpost : ∀ a w, post a w → post' a w) (hfail : ∀ w, fail w → fail' w) :
    Ensures pre' x post' fail' := by
  intro w hw
  have := h w (hpre w hw)
  cases hr : x w with
  | ok a w' =>
    rw [hr] at this
    exact hpost a w' this
  | error e w' =>
    rw [hr] at this
    exact hfail w' this

/-- The workspace is read. -/
theorem Ensures.get_bind {f : Workspace → Action α}
    (h : ∀ w₀, Ensures (fun w => pre w ∧ w = w₀) (f w₀) post fail) :
    Ensures pre (get >>= f) post fail :=
  fun w hw => h w w ⟨hw, rfl⟩

theorem Ensures.modify {g : Workspace → Workspace} {post : PUnit → Workspace → Prop}
    (h : ∀ w, pre w → post ⟨⟩ (g w)) : Ensures pre (modify g) post fail :=
  h

/-- A failure is caught. -/
theorem Ensures.tryCatch {mid : Workspace → Prop} {handler : Error → Action α}
    (hx : Ensures pre x post mid) (hh : ∀ e, Ensures mid (handler e) post fail) :
    Ensures pre (tryCatch x handler) post fail := by
  intro w hw
  have h := hx w hw
  rw [Outcome.tryCatch_apply]
  cases hr : x w with
  | ok a w' =>
    rw [hr] at h
    exact h
  | error e w' =>
    rw [hr] at h
    exact hh e w' h

/-- What every round keeps, a fold keeps. -/
theorem Ensures.foldlM {σ ι : Type} {inv : σ → Workspace → Prop} {f : σ → ι → Action σ}
    (hf : ∀ s i, Ensures (inv s) (f s i) inv fail) (is : List ι) (s : σ) :
    Ensures (inv s) (is.foldlM f s) inv fail := by
  induction is generalizing s with
  | nil => exact .pure fun _ h => h
  | cons i is ih =>
    rw [List.foldlM_cons]
    exact (hf s i).bind ih

theorem Ensures.final {inv : Workspace → Prop} (h : Ensures pre x (fun _ => inv) inv)
    {w : Workspace} (hw : pre w) : inv (x.final w) := by
  have := h w hw
  unfold Action.final
  cases hr : x w with
  | ok a w' => rwa [hr] at this
  | error e w' => rwa [hr] at this

end Action

/-! ### Operations and runs -/

/-- Something that can be done to a workspace from outside. -/
inductive Operation where
  /-- Make a component that no stack owns. -/
  | declare (c : Component Schema)
  /-- Make a stack without members. -/
  | openStack (rule : Rule)
  /-- Put something on a stack, at the end, with a name for it if it has none. -/
  | add (s : StackId) (arg : Argument) (offered : Option String)
  /-- Put something that has a name on a stack, at the end. -/
  | push (s : StackId) (arg : Argument)
  /-- Put something that has a name on a stack, in front of the member at an index. -/
  | insert (s : StackId) (index : Nat) (arg : Argument)
  /-- Take the member at an index off a stack. -/
  | pop (s : StackId) (index : Nat)
  /-- Take the last member off a stack. -/
  | popLast (s : StackId)
  /-- Take a component off a stack. -/
  | discard (s : StackId) (id : ComponentId)
  /-- Take all members off a stack. -/
  | clear (s : StackId)
  /-- Compile a declaration. -/
  | build (d : Declaration)
  /-- Compile what a stack matches. -/
  | ofStack (name : String) (s : StackId) (settings : Settings)
  /-- Compile loose components. -/
  | ofComponents (name : String) (args : List Argument) (settings : Settings)
  /-- Compile the schema without fields. -/
  | emptySchema (name : String)
  /-- Destroy a stack. -/
  | destroy (s : StackId)
  /-- Destroy the stacks that nothing holds any more. -/
  | settle (holders : Holders)

/-- What an operation leaves, whether it succeeds or fails. -/
def Operation.apply (w : Workspace) : Operation → Workspace
  | .declare c => (w.declare c).2
  | .openStack rule => (w.openStack rule).2
  | .add s arg offered => (Workspace.add s arg offered).final w
  | .push s arg => (Workspace.push s arg).final w
  | .insert s index arg => (Workspace.insert s index arg).final w
  | .pop s index => (w.pop s index).2
  | .popLast s => (w.popLast s).2
  | .discard s id => (w.discard s id).2
  | .clear s => w.clear s
  | .build d => (Schema.build d).final w
  | .ofStack name s settings => (Schema.ofStack name s settings).final w
  | .ofComponents name args settings => (Schema.ofComponents name args settings).final w
  | .emptySchema name => (Schema.empty name).final w
  | .destroy s => w.destroy s
  | .settle holders => w.settle holders

/-- Operations, one after the other. -/
def run (w : Workspace) (ops : List Operation) : Workspace :=
  ops.foldl Operation.apply w

/-- A run leads here from the empty workspace. -/
def Reachable (w : Workspace) : Prop :=
  ∃ ops, w = Workspace.empty.run ops

/-- What every operation keeps, a run keeps. -/
theorem run_induction {inv : Workspace → Prop}
    (step : ∀ w op, inv w → inv (Operation.apply w op)) {w : Workspace} (h : inv w)
    (ops : List Operation) : inv (w.run ops) := by
  induction ops generalizing w with
  | nil => exact h
  | cons op ops ih => exact ih (step w op h)

end Workspace

end VersionedModel
