import Mathlib.Data.List.Induction
import Mathlib.Data.PFun
import VersionedModel.Dict
import VersionedModel.Proofs.Bindings.Growth

/-!
# Registers of bindings

A register keeps a binding table together with what finds its way in it: the place of every name,
and the places of the primaries (`Bindings.Register`). It follows aliases for as long as they lead
on, so that following them might never end.

A register and the table that the same calls have made are in step (`Register.InStep`): nothing
that is looked up tells them apart, aliases are followed to the same end
(`Register.InStep.chase_eq`), and every call does the same to both (`Register.InStep.run`). So it is
after any sequence of calls (`Bindings.exists_register`), where the table is well formed and it is
known of each further name what becomes of it.
-/

namespace VersionedModel

namespace Bindings

variable {γ : Type}

/-- A table with the places of its names and of its primaries. -/
structure Register (γ : Type) where
  /-- The bindings, in order. -/
  bindings : List (Binding γ)
  /-- Where the binding of a name stands. -/
  index : Dict Nat
  /-- Where the primaries stand, in order. -/
  places : List Nat

namespace Register

/-- Nothing is bound. -/
def empty : Register γ := ⟨[], ∅, []⟩

/-- The binding of a name. -/
def find? (r : Register γ) (name : String) : Option (Binding γ) :=
  (r.index.get? name).bind fun i => r.bindings[i]?

/-- Whether a name is bound. -/
def contains (r : Register γ) (name : String) : Bool :=
  r.index.contains name

/-- The primary at a place. -/
def primaryAt? (r : Register γ) (i : Nat) : Option (Primary γ) :=
  match r.bindings[i]? with
  | some (.primary name slot target) => some ⟨name, slot, target⟩
  | _ => none

/-- The primaries, in order. -/
def primaries (r : Register γ) : List (Primary γ) :=
  r.places.filterMap r.primaryAt?

/-- The number of slots. -/
def slotCount (r : Register γ) : Nat :=
  r.places.length

/-- The primary behind a name, through an alias if need be. -/
def resolve? (r : Register γ) (name : String) : Option (Primary γ) :=
  match r.find? name with
  | some (.primary name slot target) => some ⟨name, slot, target⟩
  | some (.aliasOf _ primary) =>
    match r.find? primary with
    | some (.primary name slot target) => some ⟨name, slot, target⟩
    | _ => none
  | none => none

/-- Put a binding at the end. -/
def push (r : Register γ) (b : Binding γ) : Register γ :=
  { r with
    bindings := r.bindings ++ [b]
    index := r.index.insert b.name r.bindings.length }

/-- Bind a name to a new slot. -/
def bind (r : Register γ) (name : String) (target : γ) : Except Error (Register γ) :=
  if r.contains name then .error (.duplicateField name)
  else .ok (push { r with places := r.places ++ [r.bindings.length] }
    (.primary name r.slotCount target))

/-- One step on the way from an alias `name`, whose declared target is `target`, to the name of a
primary: the way comes to an end, or leads on. A name met before closes a cycle. -/
def follow (r : Register γ) (name target : String) :
    List String × String → Except Error String ⊕ (List String × String)
  | (visited, current) =>
    if visited.contains current then .inl (.error (.aliasCycle name))
    else
      match r.find? current with
      | some (.primary primary ..) => .inl (.ok primary)
      | some (.aliasOf _ next) => .inr (current :: visited, next)
      | none => .inl (.error (.unknownAliasTarget name target))

/-- Go on for as long as the way leads on. Nothing comes of it if it never ends. -/
def chase (r : Register γ) (name target : String) :
    List String × String →. Except Error String :=
  PFun.fix fun place => Part.some (r.follow name target place)

/-- Bind a name to the primary behind another. -/
def bindAlias (r : Register γ) (name target : String) : Part (Except Error (Register γ)) :=
  (r.chase name target ([name], target)).map fun found => do
    let primary ← found
    if r.contains name then throw (.duplicateField name)
    return r.push (.aliasOf name primary)

end Register

/-! ### Calls -/

/-- A call that may put a name at the end of a table. -/
inductive Call (γ : Type) where
  /-- Bind a name to a new slot. -/
  | bind (name : String) (target : γ)
  /-- Bind a name to the primary behind another. -/
  | bindAlias (name target : String)

/-- What the call makes of a table. -/
def Call.run (table : List (Binding γ)) : Call γ → Except Error (List (Binding γ))
  | bind name target => Bindings.bind table name target
  | bindAlias name target => Bindings.bindAlias table name target

/-- What the call makes of a register, if it ends. -/
def Call.register (r : Register γ) : Call γ → Part (Except Error (Register γ))
  | bind name target => .some (r.bind name target)
  | bindAlias name target => r.bindAlias name target

/-- The table after calls, one after the other. A call that fails leaves it as it is. -/
def tableOf (calls : List (Call γ)) : List (Binding γ) :=
  calls.foldl (fun table call => (call.run table).toOption.getD table) []

/-- The register after calls, one after the other, if each of them ends. -/
def registerOf (calls : List (Call γ)) : Part (Register γ) :=
  calls.foldlM (fun r call => (call.register r).map fun made => made.toOption.getD r) .empty

/-! ### Looking up in step -/

namespace Register

variable {r r' : Register γ} {table table' : List (Binding γ)} {name target : String}

/-- A register of a table: every name is found where its own binding stands, and every primary at
its place. -/
structure InStep (r : Register γ) (table : List (Binding γ)) : Prop where
  /-- The bindings. -/
  bindings_eq : r.bindings = table
  /-- The places of the names. -/
  index_iff : ∀ name i, r.index.get? name = some i ↔ ∃ b, table[i]? = some b ∧ b.name = name
  /-- The places of the primaries. -/
  places : List.Forall₂ (fun i p => table[i]? = some (.primary p.name p.slot p.target)) r.places
    (Bindings.primaries table)

namespace InStep

theorem contains_eq (h : r.InStep table) (name : String) :
    r.contains name = Bindings.contains table name := by
  rw [Bool.eq_iff_iff, contains_iff, Register.contains, Dict.contains, Option.isSome_iff_exists,
    List.mem_map]
  constructor
  · rintro ⟨i, hi⟩
    obtain ⟨b, hb, hname⟩ := (h.index_iff name i).1 hi
    exact ⟨b, List.mem_of_getElem? hb, hname⟩
  · rintro ⟨b, hb, hname⟩
    obtain ⟨i, hi⟩ := List.mem_iff_getElem?.1 hb
    exact ⟨i, (h.index_iff name i).2 ⟨b, hi, hname⟩⟩

theorem slotCount_eq (h : r.InStep table) : r.slotCount = Bindings.slotCount table :=
  h.places.length_eq

theorem primaries_eq (h : r.InStep table) : r.primaries = Bindings.primaries table := by
  rw [Register.primaries]
  have hplaces := h.places
  generalize r.places = places at hplaces
  generalize Bindings.primaries table = ps at hplaces
  induction hplaces with
  | nil => rfl
  | @cons i p _ _ hi _ ih =>
    have hat : r.primaryAt? i = some p := by rw [primaryAt?, h.bindings_eq, hi]
    rw [List.filterMap_cons, hat, ih]

theorem find?_eq (h : r.InStep table) (hwf : WellFormed table) (name : String) :
    r.find? name = Bindings.find? table name := by
  rw [Register.find?]
  cases hi : r.index.get? name with
  | some i =>
    obtain ⟨b, hb, rfl⟩ := (h.index_iff name i).1 hi
    rw [Option.bind_some, h.bindings_eq, hb, hwf.find?_name (List.mem_of_getElem? hb)]
  | none =>
    have hc := h.contains_eq name
    rw [Register.contains, Dict.contains, hi, Bindings.contains, Option.isSome_none, eq_comm,
      Option.isSome_eq_false_iff, Option.isNone_iff_eq_none] at hc
    rw [Option.bind_none, hc]

theorem resolve?_eq (h : r.InStep table) (hwf : WellFormed table) (name : String) :
    r.resolve? name = Bindings.resolve? table name := by
  simp only [Register.resolve?, h.find?_eq hwf]
  rfl

end InStep

/-! ### Following aliases in step -/

theorem chase_of_inl {place : List String × String} {found : Except Error String}
    (h : r.follow name target place = .inl found) : r.chase name target place = .some found :=
  Part.eq_some_iff.2 (PFun.fix_stop (h ▸ Part.mem_some _))

theorem chase_of_inr {place next : List String × String}
    (h : r.follow name target place = .inr next) :
    r.chase name target place = r.chase name target next :=
  PFun.fix_fwd_eq (h ▸ Part.mem_some _)

namespace InStep

/-- The way through a register is the way through its table, if it is where it leads on. -/
theorem chase_step (h : r.InStep table) (hwf : WellFormed table) {name target : String}
    {visited : List String} {current : String} {steps : Nat}
    (honward : ∀ own next, Bindings.find? table current = some (.aliasOf own next) →
      r.chase name target (current :: visited, next) =
        .some (Bindings.follow table name target (current :: visited) next steps)) :
    r.chase name target (visited, current) =
      .some (Bindings.follow table name target visited current (steps + 1)) := by
  rw [Bindings.follow]
  by_cases hvisited : visited.contains current = true
  · rw [if_pos hvisited]
    exact chase_of_inl (if_pos hvisited)
  · rw [if_neg hvisited]
    have hfind := h.find?_eq hwf current
    cases hb : Bindings.find? table current with
    | none => exact chase_of_inl (by rw [Register.follow, if_neg hvisited, hfind, hb])
    | some b =>
      cases b with
      | primary => exact chase_of_inl (by rw [Register.follow, if_neg hvisited, hfind, hb])
      | aliasOf own next =>
        have hgoes : r.follow name target (visited, current) = .inr (current :: visited, next) := by
          rw [Register.follow, if_neg hvisited, hfind, hb]
        rw [chase_of_inr hgoes]
        exact honward own next hb

/-- **Following aliases ends**, and it ends as it does with a bound on its steps: an alias leads to
a primary at once, so that there is no third step. -/
theorem chase_eq (h : r.InStep table) (hwf : WellFormed table) (name target : String)
    (visited : List String) (current : String) :
    r.chase name target (visited, current) =
      .some (Bindings.follow table name target visited current (table.length + 1)) := by
  refine h.chase_step hwf fun _ next hb => ?_
  have hmem := (mem_of_find?_eq_some hb).1
  obtain ⟨p, hp, rfl⟩ := hwf.aliases _ _ hmem
  obtain ⟨steps, hsteps⟩ : ∃ steps, table.length = steps + 1 :=
    Nat.exists_eq_add_one.2 (List.length_pos_of_mem hmem)
  rw [hsteps]
  refine h.chase_step hwf fun _ _ hb' => ?_
  have hprimary := hwf.find?_name (mem_primaries.1 hp)
  rw [Binding.name, hb'] at hprimary
  cases hprimary

end InStep

/-! ### Calls in step -/

/-- The same came of a call: a register and its table, or the same failure. -/
inductive Alike : Except Error (Register γ) → Except Error (List (Binding γ)) → Prop
  | ok {r : Register γ} {table : List (Binding γ)} (h : r.InStep table) : Alike (.ok r) (.ok table)
  | error (e : Error) : Alike (.error e) (.error e)

theorem inStep_empty : (empty : Register γ).InStep [] where
  bindings_eq := rfl
  index_iff name i := by simp [empty, EmptyCollection.emptyCollection]
  places := .nil

theorem getElem?_snoc_eq_some_iff {α : Type} {l : List α} {a b : α} {i : Nat} :
    (l ++ [a])[i]? = some b ↔ l[i]? = some b ∨ i = l.length ∧ b = a := by
  rcases Nat.lt_trichotomy i l.length with hlt | rfl | hgt
  · rw [List.getElem?_append_left hlt]
    simp [Nat.ne_of_lt hlt]
  · simp [eq_comm]
  · have hend : (l ++ [a]).length ≤ i := by simpa using Nat.succ_le_of_lt hgt
    rw [List.getElem?_eq_none hend, List.getElem?_eq_none (Nat.le_of_lt hgt)]
    simp [Nat.ne_of_gt hgt]

namespace InStep

/-- The places of the primaries stay what they are when a binding is put at the end. -/
theorem places_append (h : r.InStep table) (b : Binding γ) :
    List.Forall₂ (fun i p => (table ++ [b])[i]? = some (.primary p.name p.slot p.target)) r.places
      (Bindings.primaries table) :=
  h.places.imp fun _ _ hi => getElem?_snoc_eq_some_iff.2 (.inl hi)

/-- A new name is found at the end, and all others are where they were. -/
theorem index_iff_push (h : r.InStep table) {b : Binding γ}
    (hb : ¬Bindings.contains table b.name = true) (name : String) (i : Nat) :
    (r.index.insert b.name r.bindings.length).get? name = some i ↔
      ∃ b', (table ++ [b])[i]? = some b' ∧ b'.name = name := by
  simp only [getElem?_snoc_eq_some_iff, or_and_right, exists_or]
  by_cases hname : name = b.name
  · subst hname
    have hold : ¬∃ b', table[i]? = some b' ∧ b'.name = b.name := fun ⟨b', hi, he⟩ =>
      hb (contains_iff.2 (he ▸ List.mem_map_of_mem (List.mem_of_getElem? hi)))
    rw [Dict.get?_insert_self, h.bindings_eq, or_iff_right hold, Option.some.injEq]
    exact ⟨fun he => ⟨b, ⟨he.symm, rfl⟩, rfl⟩, fun ⟨_, ⟨hi, _⟩, _⟩ => hi.symm⟩
  · have hnew : ¬∃ b', (i = table.length ∧ b' = b) ∧ b'.name = name := by
      rintro ⟨b', ⟨-, rfl⟩, rfl⟩
      exact hname rfl
    rw [Dict.get?_insert_of_ne _ hname, h.index_iff, or_iff_left hnew]

theorem push (h : r.InStep table) {b : Binding γ} (hb : ¬Bindings.contains table b.name = true)
    {places : List Nat}
    (hplaces : List.Forall₂
      (fun i p => (table ++ [b])[i]? = some (.primary p.name p.slot p.target)) places
      (Bindings.primaries (table ++ [b]))) :
    (Register.push { r with places := places } b).InStep (table ++ [b]) where
  bindings_eq := congrArg (· ++ [b]) h.bindings_eq
  index_iff := h.index_iff_push hb
  places := hplaces

theorem bind (h : r.InStep table) (name : String) (target : γ) :
    Alike (r.bind name target) (Bindings.bind table name target) := by
  rw [Register.bind, Bindings.bind, h.contains_eq]
  by_cases hname : Bindings.contains table name = true
  · rw [if_pos hname, if_pos hname]
    exact .error _
  · rw [if_neg hname, if_neg hname, h.slotCount_eq]
    refine .ok (h.push (b := .primary name (Bindings.slotCount table) target) hname ?_)
    -- The new primary stands at the end of the table, and at the end of the primaries.
    rw [primaries_append]
    exact List.rel_append (h.places_append _)
      (.cons (getElem?_snoc_eq_some_iff.2 (.inr ⟨congrArg List.length h.bindings_eq, rfl⟩)) .nil)

theorem bindAlias (h : r.InStep table) (hwf : WellFormed table) (name target : String) :
    ∃ made, r.bindAlias name target = .some made ∧
      Alike made (Bindings.bindAlias table name target) := by
  rw [Register.bindAlias, h.chase_eq hwf, Part.map_some]
  refine ⟨_, rfl, ?_⟩
  rw [Bindings.bindAlias]
  cases Bindings.follow table name target [name] target (table.length + 1) with
  | error e => exact .error e
  | ok primary =>
    change Alike (if r.contains name then _ else _) (if Bindings.contains table name then _ else _)
    rw [h.contains_eq]
    by_cases hname : Bindings.contains table name = true
    · rw [if_pos hname, if_pos hname]
      exact .error _
    · rw [if_neg hname, if_neg hname]
      refine .ok (h.push (b := .aliasOf name primary) hname ?_)
      rw [primaries_snoc_aliasOf]
      exact h.places_append _

/-- **Every call ends, and does to a register what it does to the table.** -/
theorem run (h : r.InStep table) (hwf : WellFormed table) (call : Call γ) :
    ∃ made, call.register r = .some made ∧ Alike made (call.run table) := by
  cases call with
  | bind name target => exact ⟨_, rfl, h.bind name target⟩
  | bindAlias name target => exact h.bindAlias hwf name target

end InStep

end Register

/-! ### Sequences of calls -/

theorem WellFormed.run {table table' : List (Binding γ)} (h : WellFormed table) {call : Call γ}
    (hrun : call.run table = .ok table') : WellFormed table' := by
  cases call with
  | bind name target => exact (h.bind hrun).1
  | bindAlias name target => exact (h.bindAlias hrun).1

/-- After calls there is a register in step with the table, which is well formed. -/
theorem exists_inStep (calls : List (Call γ)) :
    ∃ r : Register γ, registerOf calls = .some r ∧ r.InStep (tableOf calls) ∧
      WellFormed (tableOf calls) := by
  induction calls using List.reverseRecOn with
  | nil => exact ⟨.empty, rfl, Register.inStep_empty, .nil⟩
  | append_singleton calls call ih =>
    obtain ⟨r, hr, hstep, hwf⟩ := ih
    obtain ⟨made, hmade, halike⟩ := hstep.run hwf call
    have htable : tableOf (calls ++ [call]) =
        (call.run (tableOf calls)).toOption.getD (tableOf calls) := by
      rw [tableOf, List.foldl_append]
      rfl
    have hregister : registerOf (calls ++ [call]) = .some (made.toOption.getD r) := by
      rw [registerOf, List.foldlM_append, ← registerOf, hr]
      rw [Part.bind_eq_bind, Part.bind_some, List.foldlM_cons, hmade, Part.map_some]
      simp
    rw [htable, hregister]
    refine ⟨_, rfl, ?_⟩
    cases hrun : call.run (tableOf calls) with
    | error e =>
      rw [hrun] at halike
      cases halike
      exact ⟨hstep, hwf⟩
    | ok table' =>
      rw [hrun] at halike
      cases halike with
      | ok h => exact ⟨h, hwf.run hrun⟩

/-- **Binding tables stay well formed.** After any sequence of calls the places of names and of
primaries are in step with the bindings, no name is bound twice, the primaries have the slots in
order, and every alias forwards to a primary. So a name leads to a primary exactly if it is bound,
and the slot of this primary is there. Every further alias is followed to an end, and what becomes
of it is known beforehand. -/
theorem exists_register (calls : List (Call γ)) :
    ∃ r : Register γ, registerOf calls = .some r ∧ r.InStep (tableOf calls) ∧
      WellFormed (tableOf calls) ∧
      (r.primaries = primaries (tableOf calls) ∧
        ∀ name, r.find? name = find? (tableOf calls) name ∧
          r.resolve? name = resolve? (tableOf calls) name) ∧
      (∀ name, contains (tableOf calls) name = true ↔
        ∃ p, resolve? (tableOf calls) name = some p ∧ p.slot < slotCount (tableOf calls)) ∧
      ∀ name target,
        (∃ made, r.bindAlias name target = .some made ∧
          Register.Alike made (bindAlias (tableOf calls) name target)) ∧
        AliasLaw (tableOf calls) name target := by
  obtain ⟨r, hr, hstep, hwf⟩ := exists_inStep calls
  refine ⟨r, hr, hstep, hwf, ⟨hstep.primaries_eq, fun name => ?_⟩, fun name => ?_,
    fun name target => ⟨hstep.bindAlias hwf name target, hwf.aliasLaw name target⟩⟩
  · exact ⟨hstep.find?_eq hwf name, hstep.resolve?_eq hwf name⟩
  · constructor
    · intro hc
      obtain ⟨p, hp⟩ := Option.isSome_iff_exists.1 (hwf.resolve?_isSome hc)
      exact ⟨p, hp, hwf.slot_lt_of_resolve? hp⟩
    · rintro ⟨p, hp, -⟩
      exact contains_of_resolve? hp

end Bindings

end VersionedModel
