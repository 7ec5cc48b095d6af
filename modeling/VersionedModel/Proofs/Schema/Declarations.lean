import Mathlib.Data.List.Pairwise
import VersionedModel.Proofs.Bindings.Growth
import VersionedModel.Proofs.Schema.Compilation
import VersionedModel.Proofs.Workspace.Naming

/-!
# What a declaration becomes

A schema that was built from a declaration has the members of its stack for primaries, leads every
declared name to one of them, gives two attributes one slot exactly if they were declared with one
existing component, and binds no names but the declared ones and those that the declared components
had before (`Schema.sound_of_build`).

Compiling goes member by member. What the names lead to then (`Routed`) and where they come from
(`Sourced`) is kept by every step (`Follows.compileMember`), and so by all of them together
(`Follows.foldlM`): a component that was declared before is found among those that were seen, and
any other one gets a slot that no name leads to yet.
-/

namespace VersionedModel

/-- The name that a member declares. -/
def Member.name : Member → String
  | .field name _ => name
  | .aliasOf name _ => name

namespace Schema

open Workspace (Accounted Reachable SameBut)

/-- The slot behind a name. -/
def slot? (s : Schema) (name : String) : Option Nat :=
  (s.resolve? name).map Primary.slot

/-! ### Steps of a compilation -/

theorem step_eq_ok {α : Type} {x : Except Error α} {a : α} {w w' : Workspace} :
    step x w = .ok a w' ↔ x = .ok a ∧ w' = w := by
  rw [step_apply]
  cases x with
  | error e => exact ⟨nofun, fun h => nomatch h.1⟩
  | ok b => exact ⟨fun h => by cases h; exact ⟨rfl, rfl⟩, fun ⟨h, hw⟩ => by cases h; rw [hw]⟩

theorem ensure_bind_eq_ok {α : Type} {x : Except Error Unit} {f : Unit → Workspace.Action α}
    {a : α} {w w' : Workspace} (h : (Workspace.ensure x >>= f) w = .ok a w') :
    f () w = .ok a w' := by
  rw [Outcome.bind_apply, Workspace.ensure_apply] at h
  cases x with
  | error e => cases h
  | ok u => exact h

/-- A component whose own name is not the declared one is bound under its own name, and the declared
name becomes an alias. -/
def BoundUnder (table : List (Binding (Component Schema))) (own name : String)
    (c : Component Schema) (table' : List (Binding (Component Schema))) : Prop :=
  ∃ bound, Bindings.bind table own c = .ok bound ∧
    if own = name then table' = bound else Bindings.bindAlias bound name own = .ok table'

variable {w₀ w w' : Workspace} {stack : StackId} {d d' : Draft}

theorem exists_of_compileFresh {name : String} {arg : Argument}
    (h : compileFresh stack d name arg w = .ok d' w') :
    ∃ id c own, Workspace.add stack arg (some name) w = .ok id w' ∧ w'.component? id = some c ∧
      c.name = some own ∧ BoundUnder d.bindings own name c d'.bindings ∧
      d'.seen = d.seen ++ (arg.identity?.map (·, own)).toList := by
  unfold compileFresh at h
  obtain ⟨id, w₁, hadd, h⟩ := Outcome.bind_apply_eq_ok.1 h
  obtain ⟨c, own, hc, hown, -⟩ := Workspace.exists_name_of_add hadd
  obtain ⟨held, hh, rfl⟩ := Option.map_eq_some_iff.1 hc
  rw [Outcome.bind_apply, Workspace.holding_apply, hh] at h
  dsimp only at h
  rw [hown, Option.getD_some] at h
  obtain ⟨bound, w₂, hstep, hrest⟩ := Outcome.bind_apply_eq_ok.1 h
  obtain ⟨hbind, rfl⟩ := step_eq_ok.1 hstep
  by_cases hsame : own = name
  · rw [if_pos hsame] at hrest
    cases hrest
    refine ⟨id, held.component, own, hadd, hc, hown, ⟨bound, hbind, by rw [if_pos hsame]⟩, ?_⟩
    cases arg.identity? <;> simp
  · rw [if_neg hsame] at hrest
    obtain ⟨table, w₃, hstep', hend⟩ := Outcome.bind_apply_eq_ok.1 hrest
    obtain ⟨halias, rfl⟩ := step_eq_ok.1 hstep'
    cases hend
    refine ⟨id, held.component, own, hadd, hc, hown, ⟨bound, hbind, by rwa [if_neg hsame]⟩, ?_⟩
    cases arg.identity? <;> simp

/-- A member is bound to a name that leads somewhere, or it is a field whose component was not
declared before. -/
theorem compileMember_cases {m : Member} (h : compileMember stack d m w = .ok d' w') :
    (∃ name target, m.name = name ∧
      Bindings.bindAlias d.bindings name target = .ok d'.bindings ∧ d'.seen = d.seen ∧ w' = w ∧
      (m = .aliasOf name target ∨
        ∃ id, m = .field name (.built id) ∧ (id, target) ∈ d.seen)) ∨
    ∃ name arg, m = .field name arg ∧
      (∀ id primary, arg = .built id → (id, primary) ∉ d.seen) ∧
      compileFresh stack d name arg w = .ok d' w' := by
  have halias : ∀ name target, (do
      return { d with bindings := ← step (Bindings.bindAlias d.bindings name target) } :
        Workspace.Action Draft) w = .ok d' w' →
      Bindings.bindAlias d.bindings name target = .ok d'.bindings ∧ d'.seen = d.seen ∧ w' = w := by
    intro name target h
    obtain ⟨table, w₁, hstep, hend⟩ := Outcome.bind_apply_eq_ok.1 h
    obtain ⟨hb, rfl⟩ := step_eq_ok.1 hstep
    cases hend
    exact ⟨hb, rfl, rfl⟩
  cases m with
  | aliasOf name target =>
    obtain ⟨hb, hseen, hw⟩ := halias _ _ (ensure_bind_eq_ok h)
    exact .inl ⟨name, target, rfl, hb, hseen, hw, .inl rfl⟩
  | field name arg =>
    have h := ensure_bind_eq_ok h
    cases hfind : d.seen.find? fun e => some e.1 == arg.identity? with
    | some e =>
      rw [hfind] at h
      obtain ⟨hb, hseen, hw⟩ := halias _ _ h
      have hid : some e.1 = arg.identity? := by simpa using List.find?_some hfind
      cases arg with
      | built id =>
        cases hid
        exact .inl ⟨name, e.2, rfl, hb, hseen, hw,
          .inr ⟨e.1, rfl, List.mem_of_find?_eq_some hfind⟩⟩
      | kind kind | model schema => cases hid
    | none =>
      rw [hfind] at h
      refine .inr ⟨name, arg, rfl, ?_, h⟩
      rintro id primary rfl hmem
      exact List.find?_eq_none.1 hfind _ hmem (by simp [Argument.identity?])

/-! ### What names lead to -/

section Tables

variable {table table' : List (Binding (Component Schema))} {own name : String}
  {c : Component Schema}

/-- Both names lead to the new primary, and no other name is new. -/
theorem BoundUnder.exists_append (hwf : Bindings.WellFormed table)
    (h : BoundUnder table own name c table') :
    ¬Bindings.contains table own = true ∧ ∃ extra, table' = table ++ extra ∧
      Bindings.resolve? table' own = some ⟨own, Bindings.slotCount table, c⟩ ∧
      Bindings.resolve? table' name = some ⟨own, Bindings.slotCount table, c⟩ ∧
      ∀ b ∈ extra, b.name = own ∨ b.name = name := by
  obtain ⟨bound, hbind, h⟩ := h
  obtain ⟨hnew, hbound⟩ := Bindings.bind_eq_ok.1 hbind
  have hown := hwf.resolve?_bind hbind
  refine ⟨hnew, ?_⟩
  split at h
  · next hsame =>
    subst hsame h
    refine ⟨_, hbound, hown, hown, fun b hb => .inl ?_⟩
    rw [List.mem_singleton.1 hb]
    rfl
  · obtain ⟨p, hp, hname⟩ := (hwf.bind hbind).1.exists_resolve?_bindAlias h
    obtain rfl := Option.some.inj (hown.symm.trans hp)
    obtain ⟨primary, -, -, rfl⟩ := Bindings.bindAlias_eq_ok.1 h
    refine ⟨_, by rw [hbound, List.append_assoc], Bindings.resolve?_append hown, hname, ?_⟩
    simp [Binding.name]

end Tables

/-- If both members are attributes, they lead to one primary exactly if they were declared with one
existing component. -/
def ToldApart (table : List (Binding (Component Schema))) (m m' : Member) : Prop :=
  ∀ a x b y, m = .field a x → m' = .field b y →
    (Bindings.resolve? table a = Bindings.resolve? table b ↔
      ∃ id, x = .built id ∧ y = .built id)

instance (table : List (Binding (Component Schema))) : Std.Symm (ToldApart table) where
  symm m m' h a x b y ha hb := by
    rw [eq_comm, h b y a x hb ha]
    exact exists_congr fun _ => and_comm

/-- What the names of the members that were compiled lead to. -/
structure Routed (ms : List Member) (d : Draft) : Prop where
  /-- Every name leads somewhere. -/
  resolves : ∀ m ∈ ms, ∃ p, Bindings.resolve? d.bindings m.name = some p
  /-- Only what is declared with one component is one. -/
  toldApart : ms.Pairwise (ToldApart d.bindings)
  /-- An alias leads where its target leads. -/
  aliases : ∀ name target, .aliasOf name target ∈ ms → ∃ p,
    Bindings.resolve? d.bindings name = some p ∧ Bindings.resolve? d.bindings target = some p
  /-- What was seen was declared, and the attribute leads to its primary. -/
  seen : ∀ id primary, (id, primary) ∈ d.seen → ∃ a p, .field a (.built id) ∈ ms ∧
    Bindings.resolve? d.bindings a = some p ∧ Bindings.resolve? d.bindings primary = some p
  /-- What was declared was seen. -/
  exists_seen : ∀ a id, .field a (.built id) ∈ ms → ∃ primary, (id, primary) ∈ d.seen

namespace Routed

variable {ms : List Member}

/-- Names that come later change nothing. -/
theorem grow (h : Routed ms d) (extra : List (Binding (Component Schema))) :
    Routed ms ⟨d.bindings ++ extra, d.seen⟩ where
  resolves m hm := (h.resolves m hm).imp fun _ => Bindings.resolve?_append
  toldApart := by
    refine h.toldApart.imp_of_mem fun {m m'} hm hm' hapart a x b y ha hb => ?_
    subst ha hb
    obtain ⟨p, hp⟩ := h.resolves _ hm
    obtain ⟨q, hq⟩ := h.resolves _ hm'
    have := hapart a x b y rfl rfl
    simp only [Member.name] at hp hq
    rwa [Bindings.resolve?_append hp, Bindings.resolve?_append hq, ← hp, ← hq]
  aliases name target hm :=
    (h.aliases name target hm).imp fun _ => And.imp Bindings.resolve?_append Bindings.resolve?_append
  seen id primary hmem := by
    obtain ⟨a, p, hm, ha, hp⟩ := h.seen id primary hmem
    exact ⟨a, p, hm, Bindings.resolve?_append ha, Bindings.resolve?_append hp⟩
  exists_seen := h.exists_seen

/-- One more member was compiled. -/
theorem snoc (h : Routed ms d) {m : Member} {more : List (ComponentId × String)}
    (hresolves : ∃ p, Bindings.resolve? d.bindings m.name = some p)
    (htoldApart : ∀ m' ∈ ms, ToldApart d.bindings m' m)
    (haliases : ∀ name target, m = .aliasOf name target → ∃ p,
      Bindings.resolve? d.bindings name = some p ∧ Bindings.resolve? d.bindings target = some p)
    (hseen : ∀ id primary, (id, primary) ∈ more → ∃ a p, m = .field a (.built id) ∧
      Bindings.resolve? d.bindings a = some p ∧ Bindings.resolve? d.bindings primary = some p)
    (hexists : ∀ a id, m = .field a (.built id) → ∃ primary, (id, primary) ∈ d.seen ++ more) :
    Routed (ms ++ [m]) ⟨d.bindings, d.seen ++ more⟩ where
  resolves := List.forall_mem_append.2 ⟨h.resolves, List.forall_mem_singleton.2 hresolves⟩
  toldApart := List.pairwise_append.2 ⟨h.toldApart, List.pairwise_singleton _ _,
    fun m' hm' _ hm => List.mem_singleton.1 hm ▸ htoldApart m' hm'⟩
  aliases name target hm := by
    rcases List.mem_append.1 hm with hm | hm
    · exact h.aliases name target hm
    · exact haliases name target (List.mem_singleton.1 hm).symm
  seen id primary hmem := by
    rcases List.mem_append.1 hmem with hmem | hmem
    · obtain ⟨a, p, hm, hrest⟩ := h.seen id primary hmem
      exact ⟨a, p, List.mem_append_left _ hm, hrest⟩
    · obtain ⟨a, p, rfl, hrest⟩ := hseen id primary hmem
      exact ⟨a, p, by simp, hrest⟩
  exists_seen a id hm := by
    rcases List.mem_append.1 hm with hm | hm
    · exact (h.exists_seen a id hm).imp fun _ => List.mem_append_left _
    · exact hexists a id (List.mem_singleton.1 hm).symm

/-- A name is bound to what another one leads to. -/
theorem bindAlias (h : Routed ms d) (hwf : Bindings.WellFormed d.bindings) {m : Member}
    {name target : String} {table : List (Binding (Component Schema))}
    (hb : Bindings.bindAlias d.bindings name target = .ok table)
    (hm : m = .aliasOf name target ∨
      ∃ id, m = .field name (.built id) ∧ (id, target) ∈ d.seen) :
    Routed (ms ++ [m]) ⟨table, d.seen⟩ := by
  obtain ⟨p, htarget, hname⟩ := hwf.exists_resolve?_bindAlias hb
  obtain ⟨primary, -, -, rfl⟩ := Bindings.bindAlias_eq_ok.1 hb
  have hgrown := h.grow [.aliasOf name primary]
  have htarget' : Bindings.resolve? (d.bindings ++ [.aliasOf name primary]) target = some p :=
    Bindings.resolve?_append htarget
  have hnamed : m.name = name := by
    rcases hm with rfl | ⟨id, rfl, -⟩ <;> rfl
  rw [← List.append_nil d.seen]
  refine hgrown.snoc ⟨p, hnamed ▸ hname⟩ ?_ ?_ nofun ?_
  · rintro m' hm' a x b y rfl rfl
    rcases hm with hm | ⟨id, hm, hseen⟩
    · cases hm
    · cases hm
      -- The component was declared before, for `a'`, and so the question is one about `a'`.
      obtain ⟨a', q, ha', hq, hq'⟩ := hgrown.seen id target hseen
      obtain rfl := Option.some.inj (hq'.symm.trans htarget')
      rw [hname, ← hq]
      by_cases hsame : Member.field a x = .field a' (.built id)
      · cases hsame
        exact ⟨fun _ => ⟨id, rfl, rfl⟩, fun _ => rfl⟩
      · exact hgrown.toldApart.forall hm' ha' hsame a x a' (.built id) rfl rfl
  · rintro name' target' rfl
    rcases hm with hm | ⟨id, hm, -⟩
    · cases hm
      exact ⟨p, hname, htarget'⟩
    · cases hm
  · rintro a id rfl
    rcases hm with hm | ⟨id', hm, hseen⟩
    · cases hm
    · cases hm
      exact ⟨target, List.mem_append_left _ hseen⟩

/-- A component is bound that was not declared before. -/
theorem bindUnder (h : Routed ms d) (hwf : Bindings.WellFormed d.bindings) {own name : String}
    {c : Component Schema} {table : List (Binding (Component Schema))} {arg : Argument}
    (hb : BoundUnder d.bindings own name c table)
    (hfresh : ∀ id primary, arg = .built id → (id, primary) ∉ d.seen) :
    Routed (ms ++ [.field name arg]) ⟨table, d.seen ++ (arg.identity?.map (·, own)).toList⟩ := by
  obtain ⟨-, extra, rfl, hown, hname, -⟩ := hb.exists_append hwf
  refine (h.grow extra).snoc ⟨_, hname⟩ ?_ nofun ?_ ?_
  · rintro m' hm' a x b y rfl hmb
    cases hmb
    -- The slot is a new one, and no attribute was declared with this component.
    obtain ⟨p, hp⟩ := h.resolves _ hm'
    have hlt := hwf.slot_lt_of_resolve? hp
    simp only [Member.name] at hp
    rw [hname, Bindings.resolve?_append hp]
    constructor
    · intro he
      cases he
      exact absurd hlt (Nat.lt_irrefl _)
    · rintro ⟨id, rfl, rfl⟩
      obtain ⟨primary, hseen⟩ := h.exists_seen a id hm'
      exact absurd hseen (hfresh id primary rfl)
  · intro id primary hmem
    cases arg with
    | built id' =>
      cases List.mem_singleton.1 hmem
      exact ⟨name, _, rfl, hname, hown⟩
    | kind kind | model schema => cases hmem
  · rintro a id he
    cases he
    exact ⟨own, List.mem_append_right _ List.mem_cons_self⟩

end Routed

/-! ### Where names come from -/

/-- The name is one that a declared component has. -/
def OwnName (w : Workspace) (ms : List Member) (name : String) : Prop :=
  ∃ a id c, .field a (.built id) ∈ ms ∧ w.component? id = some c ∧ c.name = some name

/-- Where the names come from once the members `ms` were compiled, where `w₀` is what was there
before. -/
structure Sourced (w₀ : Workspace) (ms : List Member) (table : List (Binding (Component Schema)))
    (w : Workspace) : Prop where
  /-- Names that are bound. -/
  names : ∀ name, Bindings.contains table name = true →
    (∃ m ∈ ms, m.name = name) ∨ OwnName w₀ ms name
  /-- Names of components: those that were given since are bound. -/
  named : ∀ id c name, w.component? id = some c → c.name = some name →
    Bindings.contains table name = true ∨
      ∃ c₀, w₀.component? id = some c₀ ∧ c₀.name = some name

theorem Sourced.snoc {ms : List Member} {m : Member} {table extra : List (Binding (Component Schema))}
    (h : Sourced w₀ ms table w)
    (hextra : ∀ b ∈ extra, b.name = m.name ∨ OwnName w₀ [m] b.name)
    (hnamed : ∀ id c name, w'.component? id = some c → c.name = some name →
      Bindings.contains (table ++ extra) name = true ∨ w.component? id = some c) :
    Sourced w₀ (ms ++ [m]) (table ++ extra) w' where
  names name hname := by
    rcases Bindings.contains_append.1 hname with hname | ⟨b, hb, rfl⟩
    · refine (h.names name hname).imp ?_ ?_
      · rintro ⟨m', hm', rfl⟩
        exact ⟨m', List.mem_append_left _ hm', rfl⟩
      · rintro ⟨a, id, c, ha, hc⟩
        exact ⟨a, id, c, List.mem_append_left _ ha, hc⟩
    · refine (hextra b hb).imp (fun he => ⟨m, by simp, he.symm⟩) ?_
      rintro ⟨a, id, c, ha, hc⟩
      exact ⟨a, id, c, List.mem_append_right _ ha, hc⟩
  named id c name hc hname := by
    rcases hnamed id c name hc hname with hbound | hc
    · exact .inl hbound
    · exact (h.named id c name hc hname).imp_left fun hbound =>
        Bindings.contains_append.2 (.inl hbound)

/-! ### Whole declarations -/

/-- The draft is what the members `ms` became, compiled one after the other since `w₀`. -/
structure Follows (w₀ : Workspace) (rule : Rule) (stack : StackId) (ms : List Member) (d : Draft)
    (w : Workspace) : Prop where
  /-- The stack. -/
  tracked : Tracked w₀ rule stack d w
  /-- What the names lead to. -/
  routed : Routed ms d
  /-- Where they come from. -/
  sourced : Sourced w₀ ms d.bindings w

section Follows

variable {rule : Rule} {ms : List Member}

/-- One more member is compiled. -/
theorem Follows.compileMember (h : Follows w₀ rule stack ms d w) {m : Member}
    (hm : compileMember stack d m w = .ok d' w') : Follows w₀ rule stack (ms ++ [m]) d' w' := by
  have htracked : Tracked w₀ rule stack d' w' := by
    have := Tracked.compileMember d m w h.tracked
    rwa [hm] at this
  have hwf := h.tracked.wellFormed
  obtain ⟨table, seen⟩ := d'
  rcases compileMember_cases hm with ⟨name, target, hname, hb, rfl, rfl, hwhich⟩ |
    ⟨name, arg, rfl, hfresh, hcompile⟩
  · refine ⟨htracked, h.routed.bindAlias hwf hb hwhich, ?_⟩
    obtain ⟨primary, -, -, rfl⟩ := Bindings.bindAlias_eq_ok.1 hb
    exact h.sourced.snoc (by simp [Binding.name, hname]) fun _ _ _ hc _ => .inr hc
  · obtain ⟨id, c, own, hadd, hc, hown, hunder, rfl⟩ := exists_of_compileFresh hcompile
    refine ⟨htracked, h.routed.bindUnder hwf hunder hfresh, ?_⟩
    obtain ⟨hnew, extra, rfl, hleads, -, hextra⟩ := hunder.exists_append hwf
    obtain ⟨c', own', hc', hown', hfrom, hsame⟩ := Workspace.exists_name_of_add hadd
    obtain rfl := Option.some.inj (hc.symm.trans hc')
    obtain rfl := Option.some.inj (hown.symm.trans hown')
    refine h.sourced.snoc (fun b hb => ?_) fun j cj n hcj hn => ?_
    · rcases hextra b hb with hbown | hbname
      · rw [hbown]
        rcases hfrom with hoffered | ⟨shared, c₀, rfl, hc₀, hown₀⟩
        · exact .inl (Option.some.inj hoffered).symm
        · -- A name that was given since would be bound already.
          obtain ⟨c₁, hc₁, hown₁⟩ := (h.sourced.named shared c₀ own hc₀ hown₀).resolve_left hnew
          exact .inr ⟨name, shared, c₁, List.mem_singleton_self _, hc₁, hown₁⟩
      · exact .inl hbname
    · by_cases hj : j = id
      · subst hj
        obtain rfl := Option.some.inj (hc.symm.trans hcj)
        obtain rfl := Option.some.inj (hown.symm.trans hn)
        exact .inl (Bindings.contains_of_resolve? hleads)
      · exact .inr ((hsame j hj).symm.trans hcj)

/-- All members are compiled. -/
theorem Follows.foldlM (h : Follows w₀ rule stack ms d w) {more : List Member}
    (hf : more.foldlM (Schema.compileMember stack) d w = .ok d' w') :
    Follows w₀ rule stack (ms ++ more) d' w' := by
  induction more generalizing ms d w with
  | nil =>
    cases hf
    rwa [List.append_nil]
  | cons m more ih =>
    rw [List.foldlM_cons] at hf
    obtain ⟨d₁, w₁, hm, hf⟩ := Outcome.bind_apply_eq_ok.1 hf
    rw [List.append_cons]
    exact ih (h.compileMember hm) hf

theorem follows_openStack (hw : Accounted [] w) (rule : Rule) :
    Follows w rule w.stackTable.length [] ⟨[], []⟩ (w.openStack rule).2 where
  tracked := tracked_openStack hw rule
  routed := ⟨nofun, .nil, nofun, nofun, nofun⟩
  sourced :=
    { names := fun _ h => by cases h
      named := fun _ c _ hc hname => .inr ⟨c, hc, hname⟩ }

end Follows

theorem follows_of_build {d : Declaration} {s : Schema} (hw : Accounted [] w)
    (h : build d w = .ok s w') :
    ∃ seen, Follows w d.rule s.stack d.members ⟨s.bindings, seen⟩ w' := by
  obtain ⟨draft, hf, rfl⟩ := exists_draft_of_build h
  exact ⟨draft.seen, (follows_openStack hw d.rule).foldlM hf⟩

theorem Tracked.valid_name {rule : Rule} (h : Tracked w₀ rule stack d w)
    {p : Primary (Component Schema)} (hp : p ∈ Bindings.primaries d.bindings) :
    Path.validateName p.name = .ok () := by
  have hid : p.target.id ∈ w.allMembers :=
    Workspace.mem_allMembers.2 ⟨stack, _, h.stack?_eq, List.mem_map_of_mem hp⟩
  obtain ⟨c, name, hc, hname, hvalid⟩ := h.orderly.accounted.named p.target.id hid
  rw [h.component?_eq p hp] at hc
  cases hc
  rw [h.name_eq p hp] at hname
  cases hname
  exact hvalid

/-- Slots are equal exactly if primaries are. -/
theorem slot?_eq_iff {s : Schema} (h : Bindings.WellFormed s.bindings) {a b : String}
    (ha : ∃ p, s.resolve? a = some p) (hb : ∃ p, s.resolve? b = some p) :
    s.slot? a = s.slot? b ↔ s.resolve? a = s.resolve? b := by
  refine ⟨fun he => ?_, fun he => by rw [slot?, slot?, he]⟩
  obtain ⟨p, hp⟩ := ha
  obtain ⟨q, hq⟩ := hb
  rw [slot?, slot?, hp, hq] at he
  rw [hp, hq, h.eq_of_slot_eq (Bindings.mem_primaries_of_resolve? hp)
    (Bindings.mem_primaries_of_resolve? hq) (Option.some.inj he)]

/-- **What is built from a declaration.** The members of the stack are the primaries, in order, each
under its own name, which is a valid one, and all of these are different. Every declared name leads
to a primary. Two attributes have one slot exactly if one existing component was declared for both,
and an alias has the slot of its target. No names are bound but the declared ones and those that
the declared components had before. -/
theorem sound_of_build {d : Declaration} {s : Schema} (hw : w.Reachable)
    (h : build d w = .ok s w') :
    (w'.memberIds s.stack = s.primaries.map (fun p => p.target.id) ∧
      w'.members s.stack = s.primaries.map Primary.target ∧
      (∀ p ∈ s.primaries, p.target.name = some p.name ∧ Path.validateName p.name = .ok ()) ∧
      (s.primaries.map Primary.name).Nodup) ∧
    (∀ m ∈ d.members, s.binds m.name = true ∧ ∃ p ∈ s.primaries, s.resolve? m.name = some p) ∧
    ((∀ (i j : Nat) (a b : String) (x y : Argument), d.members[i]? = some (.field a x) →
        d.members[j]? = some (.field b y) → i ≠ j →
          (s.slot? a = s.slot? b ↔ ∃ id, x = .built id ∧ y = .built id)) ∧
      ∀ name target, .aliasOf name target ∈ d.members → s.slot? name = s.slot? target) ∧
    ∀ name, s.binds name = true →
      (∃ m ∈ d.members, m.name = name) ∨ OwnName w d.members name := by
  obtain ⟨seen, hfollows⟩ := follows_of_build hw.accounted h
  have hexact := (exact_of_build hw.accounted h).1
  have hrouted := hfollows.routed
  refine ⟨⟨Workspace.memberIds_eq hfollows.tracked.stack?_eq, hexact.members_eq, fun p hp =>
    ⟨hexact.name_eq p hp, hfollows.tracked.valid_name hp⟩, hexact.wellFormed.nodup_names⟩,
    fun m hm => ?_, ⟨?_, fun name target hm => ?_⟩, hfollows.sourced.names⟩
  · obtain ⟨p, hp⟩ := hrouted.resolves m hm
    exact ⟨Bindings.contains_of_resolve? hp, p, Bindings.mem_primaries_of_resolve? hp, hp⟩
  · intro i j a b x y hi hj hij
    have hresolves : ∀ c z, .field c z ∈ d.members → ∃ p, s.resolve? c = some p :=
      fun c z hm => hrouted.resolves _ hm
    rw [slot?_eq_iff hexact.wellFormed (hresolves a x (List.mem_of_getElem? hi))
      (hresolves b y (List.mem_of_getElem? hj))]
    obtain ⟨hilt, hi⟩ := List.getElem?_eq_some_iff.1 hi
    obtain ⟨hjlt, hj⟩ := List.getElem?_eq_some_iff.1 hj
    have hpairwise := List.pairwise_iff_getElem.1 hrouted.toldApart
    rcases Nat.lt_or_gt_of_ne hij with hlt | hlt
    · exact hpairwise i j hilt hjlt hlt a x b y hi hj
    · exact symm (hpairwise j i hjlt hilt hlt) a x b y hi hj
  · obtain ⟨p, hname, htarget⟩ := hrouted.aliases name target hm
    exact congrArg (Option.map Primary.slot) (hname.trans htarget.symm)

/-! ### A journey -/

namespace Sample

/-- A journey that starts and ends in a city, of which the address is the owner. -/
def journeyDeclaration : Declaration where
  name := "journey"
  settings := ∅
  rule := .version .usual
  members := [.field "origin" (.built 0), .field "note" (.kind .string),
    .field "target" (.built 0), .field "home" (.model address), .aliasOf "remark" "note"]

/-- The journey, compiled: the city is copied once, and keeps its name. -/
def journey : Schema :=
  .mk "journey" ∅ 1
    [.primary "city" 0 { city with id := 1 }, .aliasOf "origin" "city",
      .primary "note" 1 { Component.ofKind (.leaf .string) with id := 2, name := some "note" },
      .aliasOf "target" "city",
      .primary "home" 2 { Component.ofKind (.model address) with id := 3, name := some "home" },
      .aliasOf "remark" "note"]

end Sample

open Sample in
theorem sound_of_build_journey :
    ∃ w', build journeyDeclaration (start.run [.build addressDeclaration]) = .ok journey w' ∧
      (start.run [.build addressDeclaration]).Reachable ∧
      w'.memberIds 1 = [1, 2, 3] ∧ journey.slot? "origin" = journey.slot? "target" ∧
      journey.slot? "origin" ≠ journey.slot? "note" ∧
      journey.slot? "remark" = journey.slot? "note" ∧
      ∀ name, journey.binds name = true → (∃ m ∈ journeyDeclaration.members, m.name = name) ∨
        OwnName (start.run [.build addressDeclaration]) journeyDeclaration.members name := by
  have hreach : (start.run [.build addressDeclaration]).Reachable :=
    ⟨[.declare city, .build addressDeclaration], rfl⟩
  refine ⟨_, rfl, hreach, ?_⟩
  obtain ⟨⟨hids, -⟩, -, ⟨hslots, haliases⟩, hnames⟩ :=
    sound_of_build (d := journeyDeclaration) (s := journey) hreach rfl
  refine ⟨hids, ?_, ?_, haliases "remark" "note" (by simp [journeyDeclaration]), hnames⟩
  · exact (hslots 0 2 _ _ _ _ rfl rfl (by decide)).2 ⟨0, rfl, rfl⟩
  · intro he
    obtain ⟨id, -, hy⟩ := (hslots 0 1 _ _ _ _ rfl rfl (by decide)).1 he
    cases hy

end Schema

end VersionedModel
