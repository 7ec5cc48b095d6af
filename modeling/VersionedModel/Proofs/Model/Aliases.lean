import VersionedModel.Model.Update
import VersionedModel.Proofs.Model.Versions

/-!
# Aliases

An alias leads to the primary that it was declared for (`Bindings.WellFormed.resolve?_alias`). So
what is written under one of the two names is written under the other, and it is read under both.
Only defaults go by the name that is used: a model may have one for the alias, and this counts where
the alias is read while nothing is stored. An alias and its primary are read alike except where
such a default tells them apart (`Model.TellsApart`, `Model.read_alias_eq_iff`).
-/

namespace VersionedModel

/-! ### A parcel with a tag -/

namespace Schema.Sample

/-- The weight, which is there from version 2 on. -/
def weight : Component Schema :=
  { Component.ofKind (.leaf .integer) with name := some "weight", firstVersion := some 2 }

/-- The label. -/
def label : Component Schema :=
  { Component.ofKind (.leaf .bytes) with id := 1, name := some "label" }

/-- The parcel, whose label is also called its tag. -/
def parcelDeclaration : Declaration where
  name := "parcel"
  settings := ∅
  rule := .version .usual
  members := [.field "weight" (.built 0), .field "label" (.kind .bytes), .aliasOf "tag" "label"]

/-- The parcel, compiled. -/
def parcel : Schema :=
  .mk "parcel" ∅ 0
    [.primary "weight" 0 weight, .primary "label" 1 label, .aliasOf "tag" "label"]

/-- What is there before the parcel is compiled. -/
def dock : Workspace := Workspace.empty.run [.declare weight]

/-- What is there in the end. -/
def depot : Workspace := dock.run [.build parcelDeclaration]

theorem everywhere_kept_parcel (how : Compilation → Prop) (h : how (.build parcelDeclaration)) :
    Everywhere (Kept how depot) parcel := by
  have hparcel : Kept how depot parcel :=
    ⟨.build parcelDeclaration, dock, depot, [], h, ⟨[.declare weight], rfl⟩, rfl, rfl, rfl⟩
  refine .intro hparcel fun p hp t ht => ?_
  simp only [parcel, primaries, bindings, Bindings.primaries, List.mem_cons, List.not_mem_nil,
    or_false] at hp
  rcases hp with rfl | rfl <;> cases ht

theorem compiled_parcel : Everywhere Compiled parcel :=
  (everywhere_kept_parcel (fun _ => True) trivial).mono fun _ => Kept.compiled

theorem label_mem : (⟨"label", 1, label⟩ : Primary (Component Schema)) ∈ parcel.primaries :=
  List.mem_cons_of_mem _ List.mem_cons_self

theorem tag_mem : .aliasOf "tag" "label" ∈ parcel.bindings :=
  List.mem_cons_of_mem _ (List.mem_cons_of_mem _ List.mem_cons_self)

end Schema.Sample

namespace Model

open Schema (Compiled)

/-- The model has a default for the alias and this is what counts: the primary is a leaf, nothing is
stored for it, and it has another default, or none. -/
def TellsApart (m : Model) (p : Primary (Component Schema)) (a : String) : Prop :=
  p.target.schema? = none ∧ Storage.stored? m.slots p.slot = none ∧
    ∃ v, m.defaults.get? a = some v ∧ m.defaultFor p p.name ≠ some v

section Alias

variable {m : Model} {p : Primary (Component Schema)} {a : String}

/-- A default for the alias counts before any other. -/
theorem defaultFor_alias (m : Model) (p : Primary (Component Schema)) (a : String) :
    m.defaultFor p a = (m.defaults.get? a).or (m.defaultFor p p.name) := by
  rw [defaultFor, defaultFor, Option.or_self, Option.or_assoc]

/-- The value of a leaf is the same under both names unless a default tells them apart. -/
theorem or_defaultFor_eq_iff (hk : p.target.schema? = none) :
    (Storage.stored? m.slots p.slot).or (m.defaultFor p a) =
        (Storage.stored? m.slots p.slot).or (m.defaultFor p p.name) ↔ ¬m.TellsApart p a := by
  rw [TellsApart, defaultFor_alias]
  cases hstored : Storage.stored? m.slots p.slot with
  | some v => simp
  | none =>
    cases ha : m.defaults.get? a with
    | none => simp
    | some v => simpa [hk] using eq_comm

theorem readPrimary_alias_eq_iff :
    m.readPrimary p a = m.readPrimary p p.name ↔ ¬m.TellsApart p a := by
  cases hk : p.target.kind with
  | model t =>
    have ht := Component.schema?_eq_some_iff.2 hk
    simp [readPrimary_of_model hk, TellsApart, ht]
  | leaf k =>
    have hinj : ∀ x y : Option Value,
        x.elim Read.missing Read.value = y.elim .missing .value ↔ x = y := by
      rintro (_ | x) (_ | y) <;> simp
    rw [readPrimary_of_leaf hk, readPrimary_of_leaf hk, hinj,
      or_defaultFor_eq_iff (Component.schema?_eq_none_iff.2 ⟨k, hk⟩)]

theorem valueOf_alias_eq_iff (w : Workspace) :
    valueOf w (m.readPrimary p a) = valueOf w (m.readPrimary p p.name) ↔ ¬m.TellsApart p a := by
  cases hk : p.target.kind with
  | model t =>
    have ht := Component.schema?_eq_some_iff.2 hk
    simp [readPrimary_of_model hk, TellsApart, ht]
  | leaf k =>
    have hvalue : ∀ x : Option Value, valueOf w (x.elim .missing .value) = x := by
      rintro (_ | x) <;> rfl
    rw [readPrimary_of_leaf hk, readPrimary_of_leaf hk, hvalue, hvalue,
      or_defaultFor_eq_iff (Component.schema?_eq_none_iff.2 ⟨k, hk⟩)]

end Alias

theorem change_eq_of_resolve?_eq {s : Schema} {a b : String} (h : s.resolve? a = s.resolve? b)
    (hb : (s.resolve? b).isSome) (stored : Option Value)
    (nested : Schema → Storage.Change Unit) :
    Storage.change s a stored nested = Storage.change s b stored nested := by
  obtain ⟨p, hp⟩ := Option.isSome_iff_exists.1 hb
  rw [Storage.change, Storage.change, Storage.primary, Storage.primary, h, hp]

/-- **An alias and its primary are one field.** What is written under either name does the same, and
what is read under them is the same, as a reading and as a value, exactly if no default tells them
apart. -/
theorem read_alias_eq_iff {m : Model} (hs : Compiled m.schema) {p : Primary (Component Schema)}
    (hp : p ∈ m.schema.primaries) {a : String} (ha : .aliasOf a p.name ∈ m.schema.bindings) :
    (∀ what, write a what m = write p.name what m) ∧
      (m.read a = m.read p.name ↔ ¬m.TellsApart p a) ∧
      ∀ w, m.get w a = m.get w p.name ↔ ¬m.TellsApart p a := by
  have hwf := hs.wellFormed
  have halias : m.schema.resolve? a = some p := hwf.resolve?_alias hp ha
  have hname : m.schema.resolve? p.name = some p := hwf.resolve?_name hp
  have hread : m.read a = .ok (m.readPrimary p a) := by
    rw [read, Storage.primary, halias]
    rfl
  refine ⟨fun what => ?_, ?_, fun w => ?_⟩
  · have hchange := change_eq_of_resolve?_eq (halias.trans hname.symm) (by rw [hname]; rfl)
    cases what <;> simp only [write, changing, Storage.set, hchange]
  · rw [hread, read_name hwf hp, Except.ok.injEq, readPrimary_alias_eq_iff]
  · rw [get, get, hread, read_name hwf hp, ← valueOf_alias_eq_iff w]
    exact ⟨Except.ok.inj, congrArg Except.ok⟩

/-- A parcel with a default for its tag. -/
def tagged : Model :=
  { new Schema.Sample.parcel with defaults := .ofList [("tag", .bytes [1])] }

/-- The same parcel with a label. -/
def labelled : Model :=
  { tagged with slots := [.leaf none, .leaf (some (.bytes [2]))] }

/-- Whoever writes the tag of a parcel reads the label, whatever the default for the tag is. -/
theorem read_alias_eq_of_labelled :
    Compiled labelled.schema ∧
      (⟨"label", 1, Schema.Sample.label⟩ : Primary (Component Schema)) ∈
        labelled.schema.primaries ∧
      .aliasOf "tag" "label" ∈ labelled.schema.bindings ∧
      write "tag" (.set (.bytes [2])) tagged = .ok () labelled ∧
      labelled.read "tag" = labelled.read "label" ∧
      ∀ w, labelled.get w "tag" = labelled.get w "label" := by
  have hs : Compiled labelled.schema := Schema.Sample.compiled_parcel.here
  obtain ⟨-, hread, hget⟩ :=
    read_alias_eq_iff hs Schema.Sample.label_mem Schema.Sample.tag_mem
  have halike : ¬labelled.TellsApart ⟨"label", 1, Schema.Sample.label⟩ "tag" :=
    fun h => by cases h.2.1
  exact ⟨hs, Schema.Sample.label_mem, Schema.Sample.tag_mem, rfl, hread.2 halike,
    fun w => (hget w).2 halike⟩

/-- Before anything is stored, the default for the tag is read under this name only. -/
theorem read_alias_ne_of_tagged :
    Compiled tagged.schema ∧ .aliasOf "tag" "label" ∈ tagged.schema.bindings ∧
      withOptions Schema.Sample.parcel ⟨none, .ofList [("tag", .bytes [1])], ∅⟩ = .ok tagged ∧
      tagged.read "tag" ≠ tagged.read "label" ∧
      ∀ w, tagged.get w "tag" ≠ tagged.get w "label" := by
  have htag : tagged.read "tag" = .ok (.value (.bytes [1])) := rfl
  have hlabel : tagged.read "label" = .ok .missing := rfl
  refine ⟨Schema.Sample.compiled_parcel.here, Schema.Sample.tag_mem, rfl, ?_, fun w => ?_⟩
  · rw [htag, hlabel]
    simp
  · rw [get, get, htag, hlabel]
    exact nofun

end Model

end VersionedModel
