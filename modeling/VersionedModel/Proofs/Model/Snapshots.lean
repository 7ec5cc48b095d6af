import VersionedModel.Model.Snapshot
import VersionedModel.Proofs.Schema.Compilation

/-!
# What snapshots hold

A snapshot has one entry for each primary that takes part, in order (`Model.snapshot?_eq_ok`), if
the primaries have different names. A primary takes part if its component does, as long as no other
member of the stack has its name (`Model.admits_eq_passes`).
-/

namespace VersionedModel

namespace Model

open Schema (Coherent)

/-! ### Nested models -/

/-- **Induction on nested models**: what holds of an instance whenever it holds of all instances of
the models that are nested in it holds of every instance. -/
@[elab_as_elim]
theorem nested_induction {P : Schema → Prop}
    {motive : (m : Model) → Schema.Everywhere P m.schema → Prop}
    (step : ∀ m hs, (∀ p (hp : p ∈ m.schema.primaries) t (ht : p.target.schema? = some t) slots,
      motive (ofSlots t slots) (hs.nested hp ht)) → motive m hs)
    (m : Model) (hs : Schema.Everywhere P m.schema) : motive m hs := by
  have key : ∀ s, Schema.Everywhere P s → ∀ m hs, m.schema = s → motive m hs := by
    intro s h
    induction h with
    | intro _ _ ih =>
      rintro m hs rfl
      exact step m hs fun p hp t ht slots => ih p hp t ht _ _ rfl
  exact key m.schema hs m hs rfl

/-! ### Who takes part -/

/-- The members of the schema's stack have different names. -/
def DistinctNames (w : Workspace) (s : Schema) : Prop :=
  ((w.members s.stack).map Component.name).Nodup

section Congruence

variable {w : Workspace} {m n : Model} (hschema : n.schema = m.schema)
  (hsettings : n.settings = m.settings)
include hschema hsettings

theorem effective_congr (call : Settings) : n.effective call = m.effective call := by
  rw [effective, effective, hschema, hsettings]

theorem suitable_congr (call : Settings) : n.suitable w call = m.suitable w call := by
  rw [suitable, suitable, hschema, effective_congr hschema hsettings]

/-- Who takes part is a matter of the schema and the settings. -/
theorem admits_congr (call : Settings) : n.admits w call = m.admits w call := by
  funext p
  rw [admits, admits, suitable_congr hschema hsettings]

end Congruence

/-- No other member has the name of a primary, so it is the primary's component that counts. -/
theorem admits_eq_passes {w : Workspace} {m : Model} (hs : Coherent w m.schema)
    (hd : DistinctNames w m.schema) (call : Settings) {p : Primary (Component Schema)}
    (hp : p ∈ m.schema.primaries) :
    m.admits w call p = w.passes m.schema.stack (m.effective call) p.target := by
  rw [Bool.eq_iff_iff, admits, suitable, List.contains_iff_mem, Workspace.mem_keys_matching]
  constructor
  · rintro ⟨c, hc, hpass, hn⟩
    have : c = p.target :=
      List.inj_on_of_nodup_map hd hc (hs.mem_members p hp) (hn.trans (hs.name_eq p hp).symm)
    rwa [← this]
  · intro hpass
    exact ⟨p.target, hs.mem_members p hp, hpass, hs.name_eq p hp⟩

/-! ### Reading primaries -/

section Primaries

variable {m : Model} {p : Primary (Component Schema)}

/-- What a leaf gives is told by its value. -/
theorem readPrimary_of_leaf {k : ValueKind} (hk : p.target.kind = .leaf k) (name : String) :
    m.readPrimary p name =
      ((Storage.stored? m.slots p.slot).or (m.defaultFor p name)).elim .missing .value := by
  rw [readPrimary, hk]
  dsimp only
  cases (Storage.stored? m.slots p.slot).or (m.defaultFor p name) <;> rfl

/-- A nested model is the same one under every name. -/
theorem readPrimary_of_model {t : Schema} (hk : p.target.kind = .model t) (name : String) :
    m.readPrimary p name = .model (ofSlots t (Storage.inner t m.slots p.slot)) := by
  rw [readPrimary, hk]

end Primaries

/-! ### Entries -/

/-- What a primary gives to a snapshot. -/
def gives (w : Workspace) (m : Model) (fill : Option Value) (call : Settings)
    (p : Primary (Component Schema)) : Except Error Value :=
  match m.readPrimary p p.name with
  | .value v => .ok v
  | .model n => State.toValue <$> n.snapshot? w fill (call.overlay m.settings)
  | .missing => fillIn fill p

section Gives

variable {w : Workspace} {m : Model} {fill : Option Value} {call : Settings}
  {p : Primary (Component Schema)}

theorem gives_of_leaf (h : p.target.schema? = none) :
    m.gives w fill call p =
      ((Storage.stored? m.slots p.slot).or (m.defaultFor p p.name)).elim (fillIn fill p) .ok := by
  obtain ⟨k, hk⟩ := Component.schema?_eq_none_iff.1 h
  rw [gives, readPrimary_of_leaf hk]
  cases (Storage.stored? m.slots p.slot).or (m.defaultFor p p.name) <;> rfl

theorem gives_of_model {t : Schema} (h : p.target.schema? = some t) :
    m.gives w fill call p =
      State.toValue <$> (ofSlots t (Storage.inner t m.slots p.slot)).snapshot? w fill
        (call.overlay m.settings) := by
  rw [gives, readPrimary_of_model (Component.schema?_eq_some_iff.1 h)]

/-- What a nested instance gives to a snapshot is the value of its own snapshot. -/
theorem exists_snapshot_of_gives {t : Schema} (h : p.target.schema? = some t) {x : Value}
    (hx : m.gives w fill call p = .ok x) :
    ∃ st, (ofSlots t (Storage.inner t m.slots p.slot)).snapshot? w fill
      (call.overlay m.settings) = .ok st ∧ st.toValue = x := by
  rw [gives_of_model h] at hx
  exact Outcome.map_eq_ok.1 hx

end Gives

theorem snapshot?_eq_gives (w : Workspace) (m : Model) (fill : Option Value)
    (call : Settings) :
    m.snapshot? w fill call = (do
      let pairs ← (m.schema.primaries.filter (m.admits w call)).mapM fun p => do
        let v ← m.gives w fill call p
        return (p.name, v)
      return .ofList pairs) := by
  rw [snapshot?_eq]
  congr 2
  funext p
  rw [gives]
  cases m.readPrimary p p.name <;> rfl

/-- An entry has the name of its primary and what this one gives. -/
def EntryOf (w : Workspace) (m : Model) (fill : Option Value) (call : Settings)
    (p : Primary (Component Schema)) (e : String × Value) : Prop :=
  e.1 = p.name ∧ m.gives w fill call p = .ok e.2

theorem keys_of_entries {w : Workspace} {m : Model} {fill : Option Value} {call : Settings}
    {ps : List (Primary (Component Schema))} {es : List (String × Value)}
    (h : List.Forall₂ (EntryOf w m fill call) ps es) : Listing.keys es = ps.map Primary.name := by
  induction h with
  | nil => rfl
  | cons he _ ih => rw [Listing.keys, List.map_cons, List.map_cons, he.1, ← ih, Listing.keys]

/-- A snapshot's entries are those of the primaries that take part, in order. -/
theorem snapshot?_eq_ok {w : Workspace} {m : Model} {fill : Option Value} {call : Settings}
    (hn : (m.schema.primaries.map Primary.name).Nodup) {st : State} :
    m.snapshot? w fill call = .ok st ↔
      List.Forall₂ (EntryOf w m fill call) (m.schema.primaries.filter (m.admits w call))
        st.toList := by
  have hnodup : ((m.schema.primaries.filter (m.admits w call)).map Primary.name).Nodup :=
    hn.sublist (List.filter_sublist.map _)
  -- Taking one entry is giving a value and putting the name to it.
  have hentry : ∀ p e, (do
      let v ← m.gives w fill call p
      return (p.name, v) : Except Error (String × Value)) = .ok e ↔ EntryOf w m fill call p e := by
    intro p e
    rw [Outcome.bind_eq_ok]
    constructor
    · rintro ⟨v, hv, he⟩
      cases he
      exact ⟨rfl, hv⟩
    · rintro ⟨hname, hv⟩
      exact ⟨e.2, hv, by rw [← hname]; rfl⟩
  rw [snapshot?_eq_gives, Outcome.bind_eq_ok]
  simp only [Outcome.mapM_eq_ok, hentry]
  constructor
  · rintro ⟨pairs, hpairs, hst⟩
    cases hst
    rwa [State.ofList, Listing.ofList_of_nodup (keys_of_entries hpairs ▸ hnodup)]
  · intro h
    refine ⟨st.toList, h, ?_⟩
    rw [State.ofList, Listing.ofList_of_nodup (keys_of_entries h ▸ hnodup)]
    rfl

section Entries

variable {w : Workspace} {m : Model} {fill : Option Value} {call : Settings}
  {ps : List (Primary (Component Schema))} {es : List (String × Value)}

theorem mem_of_entries (h : List.Forall₂ (EntryOf w m fill call) ps es)
    {p : Primary (Component Schema)} (hp : p ∈ ps) :
    ∃ x, m.gives w fill call p = .ok x ∧ (p.name, x) ∈ es := by
  induction h with
  | nil => cases hp
  | @cons q e ps es he _ ih =>
    rcases List.mem_cons.1 hp with rfl | hp
    · exact ⟨e.2, he.2, by rw [← he.1]; exact List.mem_cons_self⟩
    · obtain ⟨x, hx, hmem⟩ := ih hp
      exact ⟨x, hx, List.mem_cons_of_mem e hmem⟩

theorem exists_of_mem_entries (h : List.Forall₂ (EntryOf w m fill call) ps es)
    {e : String × Value} (he : e ∈ es) : ∃ p ∈ ps, EntryOf w m fill call p e := by
  induction h with
  | nil => cases he
  | @cons q d ps es hd _ ih =>
    rcases List.mem_cons.1 he with rfl | he
    · exact ⟨q, List.mem_cons_self, hd⟩
    · obtain ⟨p, hp, hpe⟩ := ih he
      exact ⟨p, List.mem_cons_of_mem q hp, hpe⟩

theorem exists_entries (h : ∀ p ∈ ps, ∃ x, m.gives w fill call p = .ok x) :
    ∃ es, List.Forall₂ (EntryOf w m fill call) ps es := by
  induction ps with
  | nil => exact ⟨[], .nil⟩
  | cons p ps ih =>
    obtain ⟨x, hx⟩ := h p List.mem_cons_self
    obtain ⟨es, hes⟩ := ih fun q hq => h q (List.mem_cons_of_mem p hq)
    exact ⟨(p.name, x) :: es, .cons ⟨rfl, hx⟩ hes⟩

theorem nodup_keys_of_snapshot {st : State} (hn : (m.schema.primaries.map Primary.name).Nodup)
    (h : m.snapshot? w fill call = .ok st) : (Listing.keys st.toList).Nodup := by
  rw [keys_of_entries ((snapshot?_eq_ok hn).1 h)]
  exact hn.sublist (List.filter_sublist.map _)

end Entries

/-! ### Reading by name -/

section Reading

variable {m : Model} {name : String} {p : Primary (Component Schema)}

theorem read_of_resolve? (h : m.schema.resolve? name = some p) :
    m.read name = .ok (m.readPrimary p name) := by
  rw [read, Storage.primary, h]
  rfl

/-- Behind the name of a nested model, reading goes on in it. -/
theorem readAt_cons_of_resolve? (h : m.schema.resolve? name = some p) {t : Schema}
    (hk : p.target.kind = .model t) {rest : List String} (hrest : rest ≠ []) :
    m.readAt (name :: rest) = (ofSlots t (Storage.inner t m.slots p.slot)).readAt rest := by
  cases rest with
  | nil => exact absurd rfl hrest
  | cons next rest =>
    rw [readAt, nested, read_of_resolve? h, readPrimary, hk]
    · rfl
    · simp

end Reading

/-! ### Values by name -/

/-- What a state holds as a value under a name. -/
theorem get?_toValue {st : State} (h : (Listing.keys st.toList).Nodup) (name : String)
    (rest : List String) :
    st.toValue.at? (name :: rest) = (Entries.get? name st.toList).bind fun v => v.at? rest := by
  rw [State.toValue, Value.at?, State.toDict, Dict.ofList, Entries.get?_ofList h]
  cases Entries.get? name st.toList <;> rfl

end Model

end VersionedModel
