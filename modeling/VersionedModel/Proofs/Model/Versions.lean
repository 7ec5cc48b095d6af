import VersionedModel.Proofs.Model.Snapshots

/-!
# Snapshots by version

Where the usual rule decides who takes part, at every depth, a snapshot under a version holds the
fields that span it, and of each what reading it gives (`Model.exists_snapshot_of_version`).

The version is that of the call overlaid by the instance's own settings. Nested instances have none
of their own and are called with that overlay, so whichever version counts for the outermost
instance counts at every depth, whatever the settings of the schemas say (`Asks`).
-/

namespace VersionedModel

/-- The component's versions include `v`; a missing bound admits everything on its side. -/
def Component.Spans (c : Component Schema) (v : Int64) : Prop :=
  (∀ first, c.firstVersion = some first → first ≤ v) ∧
    ∀ last, c.lastVersion = some last → v ≤ last

theorem VersionRange.within_iff {c : Component Schema} {v : Int64} :
    within c.firstVersion c.lastVersion v = true ↔ c.Spans v := by
  rw [within, Bool.and_eq_true, decide_eq_true_iff, decide_eq_true_iff, Component.Spans]
  cases c.firstVersion <;> cases c.lastVersion <;> simp

instance (c : Component Schema) (v : Int64) : Decidable (c.Spans v) :=
  decidable_of_iff _ VersionRange.within_iff

/-- From a declaration, with the usual rule. -/
def Schema.Compilation.Usual (c : Compilation) : Prop :=
  ∃ d, c = .build d ∧ d.rule = .version .usual

namespace Model

open Schema (Everywhere Kept Coherent)
open Schema.Compilation (Usual)

/-! ### The version that counts -/

/-- The model asks for the version `v` when it is called with the given settings. -/
def Asks (m : Model) (call : Settings) (v : Int64) : Prop :=
  Settings.integer? (call.overlay m.settings) versionKey = some v

/-- What the schema's settings lie under does not need them. -/
theorem Asks.effective {m : Model} {call : Settings} {v : Int64} (h : m.Asks call v) :
    Settings.integer? (m.effective call) versionKey = some v := by
  rw [Asks, Settings.integer?, Dict.get?_overlay] at h
  rw [Settings.integer?, Model.effective, Dict.get?_overlay, Dict.get?_overlay, ← Option.or_assoc]
  obtain ⟨x, hx, hv⟩ := Option.bind_eq_some_iff.1 h
  rw [hx]
  exact hv

/-- The version goes on to the nested instances. -/
theorem Asks.nested {m : Model} {call : Settings} {v : Int64} (h : m.Asks call v) (t : Schema)
    (slots : List Slot) : (ofSlots t slots).Asks (call.overlay m.settings) v :=
  h

/-- An instance with a version of its own asks for it, whatever it is called with. -/
theorem Asks.of_settings {m : Model} {v : Int64}
    (h : m.settings.integer? versionKey = some v) (call : Settings) : m.Asks call v := by
  rw [Asks, Settings.integer?, Dict.get?_overlay]
  obtain ⟨x, hx, hv⟩ := Option.bind_eq_some_iff.1 h
  rw [hx]
  exact hv

section Usual

variable {w : Workspace} {m : Model} {call : Settings} {v : Int64}

theorem nodup_names_of_kept {how : Schema.Compilation → Prop} (hs : Kept how w m.schema) :
    (m.schema.primaries.map Primary.name).Nodup :=
  hs.coherent.wellFormed.nodup_names

/-- Who takes part is up to the version and the component's bounds. -/
theorem admits_iff_spans (hs : Kept Usual w m.schema) (hv : m.Asks call v)
    {p : Primary (Component Schema)} (hp : p ∈ m.schema.primaries) :
    m.admits w call p = true ↔ p.target.Spans v := by
  obtain ⟨hexact, t, ht, hrule⟩ := hs.exact fun _ h => h
  have hpass : w.passes m.schema.stack (m.effective call) p.target =
      VersionRange.within p.target.firstVersion p.target.lastVersion v := by
    have hversion : VersionRange.usual.version (m.effective call) = v := by
      rw [VersionRange.version, VersionRange.usual, hv.effective]
      rfl
    rw [Workspace.passes, ht, Option.any_some, hrule, Rule.version, hversion]
  rw [admits_eq_passes hexact.toCoherent hexact.nodup_names call hp, hpass,
    VersionRange.within_iff]

theorem filter_admits (hs : Kept Usual w m.schema) (hv : m.Asks call v) :
    m.schema.primaries.filter (m.admits w call) =
      m.schema.primaries.filter fun p => decide (p.target.Spans v) :=
  List.filter_congr fun p hp => by
    rw [Bool.eq_iff_iff, admits_iff_spans hs hv hp, decide_eq_true_iff]

/-- Where a version is asked for, nothing else in the settings counts. -/
theorem snapshot?_congr {fill : Option Value} (hs : Everywhere (Kept Usual w) m.schema)
    {call' : Settings} (hv : m.Asks call v) (hv' : m.Asks call' v) :
    m.snapshot? w fill call = m.snapshot? w fill call' := by
  induction m, hs using nested_induction generalizing call call' with
  | step m hs ih =>
    -- The nested instances are the only entries that see the settings.
    have hentry : ∀ p ∈ m.schema.primaries,
        m.gives w fill call p = m.gives w fill call' p := by
      intro p hp
      cases ht : p.target.schema? with
      | none => rw [gives_of_leaf ht, gives_of_leaf ht]
      | some t =>
        rw [gives_of_model ht, gives_of_model ht,
          ih p hp t ht _ (hv.nested t _) (hv'.nested t _)]
    rw [snapshot?_eq_gives, snapshot?_eq_gives, filter_admits hs.here hv,
      filter_admits hs.here hv']
    congr 1
    refine Outcome.mapM_congr fun p hp => ?_
    rw [hentry p (List.mem_filter.1 hp).1]

end Usual

/-! ### Entries by name -/

section Entries

variable {w : Workspace} {m : Model} {fill : Option Value} {call : Settings} {st : State}

/-- A primary that takes part is found under its name. -/
theorem at?_of_admits (hn : (m.schema.primaries.map Primary.name).Nodup)
    (h : m.snapshot? w fill call = .ok st) {p : Primary (Component Schema)}
    (hp : p ∈ m.schema.primaries) (ha : m.admits w call p = true) :
    ∃ x, m.gives w fill call p = .ok x ∧
      ∀ rest, st.toValue.at? (p.name :: rest) = x.at? rest := by
  obtain ⟨x, hx, hmem⟩ :=
    mem_of_entries ((snapshot?_eq_ok hn).1 h) (List.mem_filter.2 ⟨hp, ha⟩)
  have hnodup := nodup_keys_of_snapshot hn h
  refine ⟨x, hx, fun rest => ?_⟩
  rw [get?_toValue hnodup, Entries.get?_eq_some_of_mem hnodup hmem]
  rfl

/-- No path leads into a primary that does not take part. -/
theorem at?_of_not_admits (hn : (m.schema.primaries.map Primary.name).Nodup)
    (h : m.snapshot? w fill call = .ok st) {p : Primary (Component Schema)}
    (hp : p ∈ m.schema.primaries) (ha : ¬m.admits w call p = true) (rest : List String) :
    st.toValue.at? (p.name :: rest) = none := by
  have hkeys := keys_of_entries ((snapshot?_eq_ok hn).1 h)
  have habsent : p.name ∉ st.toList.map Prod.fst := by
    change p.name ∉ Listing.keys st.toList
    rw [hkeys]
    rintro hmem
    obtain ⟨q, hq, hname⟩ := List.mem_map.1 hmem
    obtain ⟨hq, hqa⟩ := List.mem_filter.1 hq
    exact ha (List.inj_on_of_nodup_map hn hq hp hname ▸ hqa)
  rw [get?_toValue (nodup_keys_of_snapshot hn h), Entries.get?_eq_none_iff.2 habsent]
  rfl

end Entries

/-! ### Filled snapshots succeed -/

/-- With something to fill in, nothing is missing. -/
theorem exists_snapshot_of_fill {w : Workspace} {m : Model}
    (hs : Everywhere (fun t => (t.primaries.map Primary.name).Nodup) m.schema) (f : Value)
    (call : Settings) : ∃ st, m.snapshot? w (some f) call = .ok st := by
  induction m, hs using nested_induction generalizing call with
  | step m hs ih =>
    have hentry : ∀ p ∈ m.schema.primaries.filter (m.admits w call),
        ∃ x, m.gives w (some f) call p = .ok x := by
      intro p hp
      cases ht : p.target.schema? with
      | none =>
        rw [gives_of_leaf ht]
        cases (Storage.stored? m.slots p.slot).or (m.defaultFor p p.name) with
        | none => exact ⟨f, rfl⟩
        | some x => exact ⟨x, rfl⟩
      | some t =>
        obtain ⟨st, hst⟩ := ih p (List.mem_filter.1 hp).1 t ht
          (Storage.inner t m.slots p.slot) (call.overlay m.settings)
        rw [gives_of_model ht, hst]
        exact ⟨st.toValue, rfl⟩
    obtain ⟨es, hes⟩ := exists_entries hentry
    exact ⟨⟨es⟩, (snapshot?_eq_ok hs.here).2 hes⟩

/-! ### Chains of fields -/

/-- A field of the schema, a field of the schema that it nests, and so on to a leaf. -/
inductive LeafChain : Schema → List (Primary (Component Schema)) → Prop
  | leaf {s : Schema} {p : Primary (Component Schema)} {k : ValueKind}
      (mem : p ∈ s.primaries) (kind : p.target.kind = .leaf k) : LeafChain s [p]
  | nested {s t : Schema} {p : Primary (Component Schema)} {ps : List (Primary (Component Schema))}
      (mem : p ∈ s.primaries) (kind : p.target.kind = .model t) (rest : LeafChain t ps) :
      LeafChain s (p :: ps)

theorem LeafChain.ne_nil {s : Schema} {ps : List (Primary (Component Schema))}
    (h : LeafChain s ps) : ps ≠ [] := by
  cases h <;> simp

theorem read_name {m : Model} (h : Bindings.WellFormed m.schema.bindings)
    {p : Primary (Component Schema)} (hp : p ∈ m.schema.primaries) :
    m.read p.name = .ok (m.readPrimary p p.name) :=
  read_of_resolve? (h.resolve?_name hp)

/-- What a chain finds in a snapshot is what reading along the chain gives. -/
theorem at?_of_leafChain {w : Workspace} {m : Model} {f : Value} {call : Settings} {v : Int64}
    {st : State} {ps : List (Primary (Component Schema))} (hps : LeafChain m.schema ps)
    (hs : Everywhere (Kept Usual w) m.schema) (hv : m.Asks call v)
    (hst : m.snapshot? w (some f) call = .ok st) :
    ((st.toValue.at? (ps.map Primary.name)).isSome ↔ ∀ p ∈ ps, p.target.Spans v) ∧
      ∀ x, st.toValue.at? (ps.map Primary.name) = some x →
        m.readAt (ps.map Primary.name) = .ok (.value x) ∨
          m.readAt (ps.map Primary.name) = .ok .missing ∧ x = f := by
  generalize hschema : m.schema = s at hps
  -- The induction is on the chain; each step goes on in the nested instance, under its settings.
  induction hps generalizing m call st with
  | @leaf s p k mem kind =>
    subst hschema
    have hn := nodup_names_of_kept hs.here
    simp only [List.map_cons, List.map_nil, List.forall_mem_singleton,
      ← admits_iff_spans hs.here hv mem]
    by_cases ha : m.admits w call p = true
    · obtain ⟨x, hx, hat⟩ := at?_of_admits hn hst mem ha
      rw [hat, Value.at?, readAt, read_name hs.here.coherent.wellFormed mem]
      refine ⟨by simp [ha], fun y hy => ?_⟩
      cases hy
      rw [gives_of_leaf (Component.schema?_eq_none_iff.2 ⟨k, kind⟩)] at hx
      rw [readPrimary_of_leaf kind]
      cases hr : (Storage.stored? m.slots p.slot).or (m.defaultFor p p.name) with
      | none =>
        rw [hr] at hx
        cases hx
        exact .inr ⟨rfl, rfl⟩
      | some z =>
        rw [hr] at hx
        cases hx
        exact .inl rfl
    · -- What does not take part is not in the snapshot, so nothing has to be read.
      rw [at?_of_not_admits hn hst mem ha]
      exact ⟨by simp [ha], fun x hx => by cases hx⟩
  | @nested s t p ps mem kind rest ih =>
    subst hschema
    have hn := nodup_names_of_kept hs.here
    have ht := Component.schema?_eq_some_iff.2 kind
    simp only [List.map_cons, List.forall_mem_cons, ← admits_iff_spans hs.here hv mem]
    by_cases ha : m.admits w call p = true
    · obtain ⟨x, hx, hat⟩ := at?_of_admits hn hst mem ha
      obtain ⟨inner, hinner, rfl⟩ := exists_snapshot_of_gives ht hx
      rw [hat, readAt_cons_of_resolve? (hs.here.coherent.wellFormed.resolve?_name mem) kind
        (by simpa using rest.ne_nil)]
      have := ih (hs.nested mem ht) (hv.nested t _) hinner rfl
      simpa [ha] using this
    · rw [at?_of_not_admits hn hst mem ha]
      exact ⟨by simp [ha], fun x hx => by cases hx⟩

/-- **A snapshot under a version holds the fields that span it, at every depth.** The entries are in
order of declaration; a chain of fields that ends at a leaf is there if all of its components span
the version, and leads to what reading gives there, or to what fills in for a missing value. An
instance with a version of its own gives the same snapshot whatever it is called with. -/
theorem exists_snapshot_of_version {w : Workspace} {m : Model}
    (hs : Everywhere (Kept Usual w) m.schema) (f : Value) {call : Settings} {v : Int64}
    (hv : m.Asks call v) :
    ∃ st, m.snapshot? w (some f) call = .ok st ∧
      st.keys =
        (m.schema.primaries.filter fun p => decide (p.target.Spans v)).map Primary.name ∧
      (∀ ps, LeafChain m.schema ps →
        ((st.toValue.at? (ps.map Primary.name)).isSome ↔ ∀ p ∈ ps, p.target.Spans v) ∧
          ∀ x, st.toValue.at? (ps.map Primary.name) = some x →
            m.readAt (ps.map Primary.name) = .ok (.value x) ∨
              m.readAt (ps.map Primary.name) = .ok .missing ∧ x = f) ∧
      ((m.settings.integer? versionKey).isSome →
        ∀ call', m.snapshot? w (some f) call' = .ok st) := by
  obtain ⟨st, hst⟩ :=
    exists_snapshot_of_fill (hs.mono fun _ h => h.coherent.wellFormed.nodup_names) f call
  refine ⟨st, hst, ?_, fun ps hps => at?_of_leafChain hps hs hv hst, fun hpin call' => ?_⟩
  · rw [State.keys, keys_of_entries ((snapshot?_eq_ok (nodup_names_of_kept hs.here)).1 hst),
      filter_admits hs.here hv]
  · obtain ⟨v', hv'⟩ := Option.isSome_iff_exists.1 hpin
    -- The call under which the snapshot was taken asked for the instance's own version, too.
    have hsame : v' = v := Option.some.inj ((Asks.of_settings hv' call).symm.trans hv)
    rw [← hst]
    exact snapshot?_congr hs (Asks.of_settings (hsame ▸ hv') call') hv

/-- Under version 1 a person's home has no city yet. -/
theorem exists_snapshot_of_person :
    Everywhere (Kept Usual Schema.Sample.town) (new Schema.Sample.person).schema ∧
      (new Schema.Sample.person).Asks (Dict.ofList [(versionKey, .integer 1)]) 1 ∧
      ∃ st, (new Schema.Sample.person).snapshot? Schema.Sample.town (some .null)
          (Dict.ofList [(versionKey, .integer 1)]) = .ok st ∧
        st.keys = ["name", "home"] ∧ st.toValue.at? ["name"] = some .null ∧
        st.toValue.at? ["home", "city"] = none := by
  have hs : Everywhere (Kept Usual Schema.Sample.town) (new Schema.Sample.person).schema :=
    Schema.Sample.everywhere_kept Usual fun d hd => ⟨d, rfl, hd⟩
  have hv : (new Schema.Sample.person).Asks (Dict.ofList [(versionKey, .integer 1)]) 1 := rfl
  obtain ⟨st, hst, hkeys, hchain, -⟩ := exists_snapshot_of_version hs .null hv
  refine ⟨hs, hv, st, hst, hkeys, ?_, ?_⟩
  · have hname := hchain [_] (.leaf (s := Schema.Sample.person) List.mem_cons_self rfl)
    obtain ⟨x, hx⟩ := Option.isSome_iff_exists.1 (hname.1.2 (by decide))
    rcases hname.2 x hx with hread | ⟨-, rfl⟩
    · cases hread
    · exact hx
  · have hcity := hchain [_, _] (.nested (s := Schema.Sample.person)
      (List.mem_cons_of_mem _ List.mem_cons_self) rfl
      (.leaf (s := Schema.Sample.address) List.mem_cons_self rfl))
    exact Option.not_isSome_iff_eq_none.1 fun h => absurd (hcity.1.1 h) (by decide)

end Model

end VersionedModel
