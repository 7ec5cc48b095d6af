import VersionedModel.Proofs.Model.Agreement
import VersionedModel.Proofs.Model.Versions

/-!
# Members that share a name

Several members of a stack may have one name, as long as they are not compiled together. A schema
that is compiled from what a stack matches binds the last one of each name that takes part then, but
whether a field takes part later is asked by its name. So a snapshot holds a field exactly if some
member of its name takes part (`Model.mem_keys_snapshot_iff`), which may be another one than the
field's own component (`Model.exists_snapshot_of_stack`).
-/

namespace VersionedModel

/-- From what a stack matches. -/
def Schema.Compilation.FromStack (c : Compilation) : Prop :=
  ∃ name stack settings, c = .ofStack name stack settings

namespace Model

open Schema (Compiled Everywhere Kept)
open Schema.Compilation (FromStack)

/-- A member of the stack that has the name takes part. -/
def NameTakesPart (w : Workspace) (m : Model) (call : Settings) (name : String) : Prop :=
  ∃ c ∈ w.members m.schema.stack,
    w.passes m.schema.stack (m.effective call) c = true ∧ c.name = some name

/-- **A snapshot holds a field exactly if a member of its name takes part.** -/
theorem mem_keys_snapshot_iff {w : Workspace} {m : Model} {fill : Option Value} {call : Settings}
    {st : State} (hn : (m.schema.primaries.map Primary.name).Nodup)
    (hst : m.snapshot? w fill call = .ok st) {p : Primary (Component Schema)}
    (hp : p ∈ m.schema.primaries) : p.name ∈ st.keys ↔ m.NameTakesPart w call p.name := by
  rw [State.keys, keys_of_entries ((snapshot?_eq_ok hn).1 hst), NameTakesPart,
    ← Workspace.mem_keys_matching, List.mem_map]
  constructor
  · rintro ⟨q, hq, hname⟩
    have hadmits := (List.mem_filter.1 hq).2
    rw [admits, List.contains_iff_mem, hname] at hadmits
    exact hadmits
  · intro h
    exact ⟨p, List.mem_filter.2 ⟨hp, by rwa [admits, List.contains_iff_mem]⟩, rfl⟩

/-- **Snapshots of instances of a schema that was compiled from a stack.** There is always one if
missing values are filled in. It holds a field exactly if a member of its name takes part. That is
what the field's own component says, too, if this one takes part or nobody of its name does. -/
theorem exists_snapshot_of_stack {w : Workspace} {m : Model}
    (hcompiled : Everywhere Compiled m.schema) (hkept : Kept FromStack w m.schema) (f : Value)
    (call : Settings) :
    ∃ st, m.snapshot? w (some f) call = .ok st ∧
      ∀ p ∈ m.schema.primaries,
        (p.name ∈ st.keys ↔ m.NameTakesPart w call p.name) ∧
          ((p.name ∈ st.keys ↔
              w.passes m.schema.stack (m.effective call) p.target = true) ↔
            w.passes m.schema.stack (m.effective call) p.target = true ∨
              ¬m.NameTakesPart w call p.name) := by
  have hs := Schema.sound_of_compiled hcompiled
  obtain ⟨st, hst⟩ := exists_snapshot_of_fill (hs.mono fun _ h => h.nodup_names) f call
  refine ⟨st, hst, fun p hp => ?_⟩
  have hkeys := mem_keys_snapshot_iff hs.here.nodup_names hst hp
  refine ⟨hkeys, ?_⟩
  -- The field's own component is one of the members of its name.
  have hown : w.passes m.schema.stack (m.effective call) p.target = true →
      m.NameTakesPart w call p.name := fun hpass =>
    ⟨p.target, hkept.coherent.mem_members p hp, hpass, hkept.coherent.name_eq p hp⟩
  rw [hkeys]
  constructor
  · intro h
    by_cases hpass : w.passes m.schema.stack (m.effective call) p.target = true
    · exact .inl hpass
    · exact .inr (mt h.1 hpass)
  · rintro (hpass | hnone)
    · exact ⟨fun _ => hpass, hown⟩
    · exact ⟨fun h => absurd h hnone, hown⟩

end Model

/-! ### A shirt -/

namespace Schema.Sample

/-- The size as it was up to version 1. -/
def oldSize : Component Schema :=
  { Component.ofKind (.leaf .integer) with name := some "size", lastVersion := some 1 }

/-- The size as it is from version 2 on. -/
def newSize : Component Schema :=
  { Component.ofKind (.leaf .string) with name := some "size", firstVersion := some 2 }

/-- A stack with both. -/
def rack : Workspace :=
  Workspace.empty.run [.declare oldSize, .declare newSize, .openStack (.version .usual),
    .push 0 (.built 0), .push 0 (.built 1)]

/-- The shirt, as the stack has it under version 1. -/
def shirt : Schema :=
  .mk "shirt" (.ofList [(versionKey, .integer 1)]) 0 [.primary "size" 0 oldSize]

theorem kept_shirt : Kept Compilation.FromStack rack shirt :=
  ⟨.ofStack "shirt" 0 shirt.settings, rack, rack, [], ⟨_, _, _, rfl⟩, ⟨_, rfl⟩, rfl, rfl, rfl⟩

theorem compiled_shirt : Everywhere Compiled shirt := by
  refine .intro kept_shirt.compiled fun p hp t ht => ?_
  simp only [shirt, primaries, bindings, Bindings.primaries, List.mem_singleton] at hp
  subst hp
  cases ht

end Schema.Sample

namespace Model

open Schema (Compiled Everywhere Kept)
open Schema.Compilation (FromStack)
open Schema.Sample (shirt rack oldSize kept_shirt compiled_shirt)

/-- Under the version under which it was compiled, a shirt shows its size. -/
theorem exists_snapshot_of_shirt :
    Everywhere Compiled (new shirt).schema ∧ Kept FromStack rack (new shirt).schema ∧
      ∃ st, (new shirt).snapshot? rack (some .null) ∅ = .ok st ∧ "size" ∈ st.keys := by
  refine ⟨compiled_shirt, kept_shirt, ?_⟩
  obtain ⟨st, hst, hfields⟩ :=
    exists_snapshot_of_stack (m := new shirt) compiled_shirt kept_shirt .null ∅
  have hsize : (⟨"size", 0, oldSize⟩ : Primary (Component Schema)) ∈ shirt.primaries :=
    List.mem_singleton_self _
  exact ⟨st, hst, ((hfields _ hsize).2.2 (.inl rfl)).2 rfl⟩

/-- Under version 2 it is the new size that takes part, but the old one that is shown. -/
theorem not_passes_of_shirt :
    Everywhere Compiled (new shirt).schema ∧ Kept FromStack rack (new shirt).schema ∧
      (⟨"size", 0, oldSize⟩ : Primary (Component Schema)) ∈ (new shirt).schema.primaries ∧
      ∃ st, (new shirt).snapshot? rack (some .null) (.ofList [(versionKey, .integer 2)]) =
          .ok st ∧
        "size" ∈ st.keys ∧
        rack.passes (new shirt).schema.stack
          ((new shirt).effective (.ofList [(versionKey, .integer 2)])) oldSize = false :=
  ⟨compiled_shirt, kept_shirt, List.mem_singleton_self _, ⟨[("size", .null)]⟩, rfl,
    List.mem_singleton_self _, rfl⟩

end Model

end VersionedModel
