import VersionedModel.Proofs.Model.Operations
import VersionedModel.Proofs.Model.Places

/-!
# Access by path

Writing by a path changes the leaf that the path leads to and no other leaf, whichever names either
is called by on the way (`Storage.exists_setAt_of_leafAt`). A path can be read exactly if it can be
cleared (`Model.answer_setAt_clear`). Together with what is read at places this gives the laws of
reading by a path after writing by a path (`Model.readAt_writeAt`).
-/

namespace VersionedModel

/-- What a leaf stores after it was written. -/
def Write.stored : Write → Option Value
  | .set v => some v
  | .clear => none

namespace Storage

/-! ### Writes that reach a leaf -/

theorem set_of_leaf {s : Schema} {name : String} {p : Primary (Component Schema)}
    (resolve : s.resolve? name = some p) (kind : p.target.schema? = none) (what : Write)
    (slots : List Slot) :
    set s name what slots = .ok () (slots.set p.slot (.leaf what.stored)) := by
  cases what <;> exact change_of_leaf resolve kind

/-- **A leaf that is written by a path takes in what was written, and no other leaf changes**, at
any depth. The induction is on the way to the leaf. -/
theorem exists_setAt_of_leafAt {s : Schema} (hs : s.Sound) {names : List String}
    {place : List Nat} {p : Primary (Component Schema)} (h : s.LeafAt names place p) (what : Write)
    {slots : List Slot} (hfits : Fits s slots) :
    ∃ after, setAt s what names slots = .ok () after ∧
      ∀ names' place' q, s.LeafAt names' place' q →
        storedAt? after place' =
          if place' = place then what.stored else storedAt? slots place' := by
  induction h generalizing slots with
  | @leaf s name p resolve kind =>
    have hp := Schema.mem_of_resolve? resolve
    refine ⟨_, set_of_leaf resolve kind what slots, fun names' place' q h' => ?_⟩
    cases h' with
    | leaf resolve' kind' =>
      by_cases hslot : p.slot = q.slot
      · rw [← hslot, storedAt?_set_leaf (hfits.slot_lt hs hp), if_pos rfl]
      · rw [storedAt?_set_of_ne hslot, if_neg fun he => hslot (List.cons.inj he).1.symm]
    | nested resolve' kind' rest =>
      have hslot := hs.slot_ne hp (Schema.mem_of_resolve? resolve') kind kind'
      rw [storedAt?_set_of_ne hslot, if_neg fun he => hslot (List.cons.inj he).1.symm]
  | @nested s t name p q names place resolve kind rest ih =>
    have hp := Schema.mem_of_resolve? resolve
    obtain ⟨changed, hset, hchanged⟩ := ih (hs.nested hp kind) (hfits.nested hp kind)
    refine ⟨slots.set p.slot (.opened changed), ?_, fun names' place' q' h' => ?_⟩
    · rw [setAt_cons_of_model resolve kind rest.names_ne_nil, within_of_ok hset]
    cases h' with
    | leaf resolve' kind' =>
      have hslot := (hs.slot_ne (Schema.mem_of_resolve? resolve') hp kind' kind).symm
      rw [storedAt?_set_of_ne hslot, if_neg fun he => hslot (List.cons.inj he).1.symm]
    | @nested s u name' p' q' names' place' resolve' kind' rest' =>
      by_cases hslot : p.slot = p'.slot
      · -- Both paths go through the same nested instance, where the induction hypothesis applies.
        obtain rfl := hs.here.eq_of_slot_eq hp (Schema.mem_of_resolve? resolve') hslot
        obtain rfl := Option.some.inj (kind.symm.trans kind')
        rw [storedAt?_set_opened (hfits.slot_lt hs hp) rest'.place_ne_nil,
          hchanged names' place' q' rest', ← storedAt?_cons t rest'.place_ne_nil]
        simp only [List.cons.injEq, true_and]
      · rw [storedAt?_set_of_ne hslot, if_neg fun he => hslot (List.cons.inj he).1.symm]

end Storage

namespace Model

open Schema (Compiled Everywhere)

/-! ### Reading and clearing -/

theorem answer_set_clear (m : Model) (name : String) :
    Outcome.answer (Storage.set m.schema name .clear) m.slots = (fun _ => ()) <$> m.read name := by
  rw [read, Storage.primary, Storage.set, Outcome.answer]
  cases hp : m.schema.resolve? name with
  | none => rw [Storage.change_of_unbound hp]; rfl
  | some p =>
    cases hk : p.target.schema? with
    | none => rw [Storage.change_of_leaf hp hk]; rfl
    | some t => rw [Storage.change_of_model hp hk]; rfl

/-- A leaf is not a model. -/
theorem readAt_cons_of_leaf {m : Model} {name : String} {names : List String}
    {p : Primary (Component Schema)} (resolve : m.schema.resolve? name = some p)
    (kind : p.target.schema? = none) (hnames : names ≠ []) :
    m.readAt (name :: names) = .error (.notAModel name) := by
  obtain ⟨k, hk⟩ := Component.schema?_eq_none_iff.1 kind
  rw [readAt, nested, read_of_resolve? resolve, readPrimary_of_leaf hk]
  · cases (Storage.stored? m.slots p.slot).or (m.defaultFor p name) <;> rfl
  · exact hnames

theorem readAt_cons_of_unbound {m : Model} {name : String} {names : List String}
    (resolve : m.schema.resolve? name = none) :
    m.readAt (name :: names) = .error (.unknownField name) := by
  have hread : m.read name = .error (.unknownField name) := by
    rw [read, Storage.primary, resolve]
    rfl
  cases names with
  | nil => exact hread
  | cons next rest =>
    rw [readAt, nested, hread]
    · rfl
    · simp

/-- **A path can be read exactly if it can be cleared**, and it is the same error if not. -/
theorem answer_setAt_clear (m : Model) (names : List String) :
    Outcome.answer (Storage.setAt m.schema .clear names) m.slots =
      (fun _ => ()) <$> m.readAt names := by
  induction names generalizing m with
  | nil => rfl
  | cons name rest ih =>
    by_cases hrest : rest = []
    · subst hrest
      exact answer_set_clear m name
    cases hp : m.schema.resolve? name with
    | none =>
      rw [readAt_cons_of_unbound hp, Storage.setAt_cons_of_unbound hp hrest]
      rfl
    | some p =>
      cases hk : p.target.schema? with
      | none =>
        rw [readAt_cons_of_leaf hp hk hrest, Storage.setAt_cons_of_leaf hp hk hrest]
        rfl
      | some t =>
        rw [Storage.setAt_cons_of_model hp hk hrest, Storage.answer_within,
          readAt_cons_of_resolve? hp (Component.schema?_eq_some_iff.1 hk) hrest, ← ih]
        rfl

/-- **Paths obey the laws of storage.** By a path that leads to a leaf anything can be written. Then
every path that leads to the same leaf reads what was written, or, if the leaf was cleared, what
this path falls back on, and every path that leads to another leaf reads what it read before. A path
that cannot be read cannot be cleared, for the same reason, and conversely; and a write that fails
changes nothing that can be read, then or after any operations. -/
theorem readAt_writeAt {m : Model} (hcompiled : Everywhere Compiled m.schema)
    (hm : m.Reachable) :
    (∀ names place p, m.schema.LeafAt names place p → ∀ what,
      ∃ m', writeAt names what m = .ok () m' ∧
        ∀ names' place' q, m.schema.LeafAt names' place' q →
          (place' = place → m'.readAt names' =
            .ok ((what.stored.or (m.fallbackAt names' q)).elim .missing .value)) ∧
          (place' ≠ place → m'.readAt names' = m.readAt names')) ∧
      (∀ names e, m.readAt names = .error e ↔ ∃ m', writeAt names .clear m = .error e m') ∧
      ∀ names what e m', writeAt names what m = .error e m' →
        m.SameView m' ∧ ∀ ops, answers ops m' = answers ops m := by
  have hs := Schema.sound_of_compiled hcompiled
  refine ⟨fun names place p h what => ?_, fun names e => ?_, fun names what e m' h => ?_⟩
  · obtain ⟨after, hset, hafter⟩ := Storage.exists_setAt_of_leafAt hs h what (hm.fits hs)
    refine ⟨{ m with slots := after }, by rw [writeAt, changing, hset], ?_⟩
    intro names' place' q h'
    have hplace := hafter names' place' q h'
    refine ⟨fun heq => ?_, fun hne => readAt_congr h' (by rw [hplace, if_neg hne])⟩
    rw [if_pos heq] at hplace
    rw [readAt_of_leafAt (m := { m with slots := after }) h', hplace]
    rfl
  · rw [← Outcome.answer_eq_error_iff, writeAt, answer_changing, answer_setAt_clear,
      Outcome.map_eq_error]
  · have hindistinct := indistinct_of_error hs (hm.fits hs) (a := .writeAt names what) h
    exact ⟨hindistinct.agree.sameView, hindistinct.answers_eq hs⟩

open Schema.Sample (leafAt_number leafAt_content_tag leafAt_parcel_label) in
/-- The label of a shipment's parcel, written by aliases and read by names; the shipment's number
stays, and there is nothing in the number. -/
theorem readAt_writeAt_of_shipped :
    Everywhere Compiled shipped.schema ∧ shipped.Reachable ∧
      (∃ m', writeAt ["content", "tag"] (.set (.bytes [3])) shipped = .ok () m' ∧
        m'.readAt ["parcel", "label"] = .ok (.value (.bytes [3])) ∧
        m'.readAt ["number"] = .ok (.value (.string "A1"))) ∧
      (∃ m', writeAt ["content", "tag"] .clear shipped = .ok () m' ∧
        m'.readAt ["parcel", "label"] = .ok .missing) ∧
      ∃ m', writeAt ["number", "tag"] .clear shipped = .error (.notAModel "number") m' ∧
        shipped.SameView m' := by
  have hs : Everywhere Compiled shipped.schema := Schema.Sample.compiled_shipment
  obtain ⟨hwrite, herror, hfailed⟩ := readAt_writeAt hs reachable_shipped
  obtain ⟨m', hset, hafter⟩ := hwrite _ _ _ leafAt_content_tag (.set (.bytes [3]))
  obtain ⟨n', hclear, hcleared⟩ := hwrite _ _ _ leafAt_content_tag .clear
  obtain ⟨k', hk⟩ := (herror ["number", "tag"] (.notAModel "number")).1 rfl
  exact ⟨hs, reachable_shipped,
    ⟨m', hset, (hafter _ _ _ leafAt_parcel_label).1 rfl,
      (hafter _ _ _ leafAt_number).2 (by decide)⟩,
    ⟨n', hclear, (hcleared _ _ _ leafAt_parcel_label).1 rfl⟩, k', hk, (hfailed _ _ _ _ hk).1⟩

end Model

end VersionedModel
