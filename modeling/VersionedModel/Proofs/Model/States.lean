import VersionedModel.Model.Update
import VersionedModel.Proofs.Model.Agreement
import VersionedModel.Proofs.Model.Versions

/-!
# States and snapshots

An instance without settings of its own has for its state the snapshot under no settings, with null
filled in (`Model.snapshot?_of_settings_empty`). Settings of its own make a difference: a snapshot
hands them on to nested instances, and the state does not. So the two are the same exactly if these
settings change nothing below, that is, if at every depth of nested fields that take part the same
fields take part under them as under none (`Schema.Indifferent`,
`Model.snapshot?_eq_state_iff`).
-/

namespace VersionedModel

open Schema (Everywhere Compiled)

/-- Whoever takes part in an instance that has no settings of its own takes part under given
settings as well, and the other way round, and so it is in every nested instance that takes part. -/
inductive Schema.Indifferent (w : Workspace) (call : Settings) : Schema → Prop
  | intro {s : Schema}
      (here : ∀ p ∈ s.primaries, (Model.new s).admits w call p = (Model.new s).admits w ∅ p)
      (nested : ∀ p ∈ s.primaries, (Model.new s).admits w ∅ p = true →
        ∀ t, p.target.schema? = some t → Indifferent w call t) :
      Indifferent w call s

namespace Model

/-! ### What the state holds -/

section State

variable {w : Workspace} {m : Model}

/-- What a primary gives to the state. -/
theorem toList_state (hn : (m.schema.primaries.map Primary.name).Nodup) :
    (m.state w).toList = (m.schema.primaries.filter (m.admits w ∅)).map fun p =>
      (p.name, (valueOf w (m.readPrimary p p.name)).getD .null) := by
  have hkeys : (Listing.keys ((m.schema.primaries.filter (m.admits w ∅)).map fun p =>
      (p.name, (valueOf w (m.readPrimary p p.name)).getD .null))).Nodup := by
    rw [Listing.keys, List.map_map]
    exact hn.sublist (List.filter_sublist.map _)
  rw [state_eq]
  exact Listing.ofList_of_nodup hkeys

/-- The snapshot and the state can differ in nested instances only. -/
theorem snapshot?_eq_state_iff_nested (hn : (m.schema.primaries.map Primary.name).Nodup) :
    m.snapshot? w (some .null) ∅ = .ok (m.state w) ↔
      ∀ p ∈ m.schema.primaries, m.admits w ∅ p = true → ∀ t, p.target.schema? = some t →
        State.toValue <$> (ofSlots t (Storage.inner t m.slots p.slot)).snapshot? w (some .null)
            m.settings =
          .ok ((ofSlots t (Storage.inner t m.slots p.slot)).state w).toValue := by
  rw [snapshot?_eq_ok hn, toList_state hn, List.forall₂_map_right_iff, List.forall₂_same]
  simp only [List.mem_filter, and_imp]
  refine forall₃_congr fun p hp ha => ?_
  rw [EntryOf, gives, readPrimary, Dict.empty_overlay]
  cases hk : p.target.kind with
  | leaf k =>
    -- A leaf gives what is stored or its default, and null on both sides if it has neither.
    have hleaf : p.target.schema? = none := Component.schema?_eq_none_iff.2 ⟨k, hk⟩
    cases (Storage.stored? m.slots p.slot).or (m.defaultFor p p.name) <;>
      simp [hleaf, fillIn, valueOf]
  | model t =>
    have ht : p.target.schema? = some t := Component.schema?_eq_some_iff.2 hk
    simp [ht, valueOf]

end State

/-- **An instance without settings of its own has for its state the snapshot under no settings**,
with null filled in. -/
theorem snapshot?_of_settings_empty {w : Workspace} {m : Model} (hs : m.schema.Sound)
    (hm : m.settings = ∅) : m.snapshot? w (some .null) ∅ = .ok (m.state w) := by
  induction m, hs using nested_induction with
  | step m hs ih =>
    refine (snapshot?_eq_state_iff_nested hs.here.nodup_names).2 fun p hp _ t ht => ?_
    rw [hm, ih p hp t ht (Storage.inner t m.slots p.slot) rfl]
    rfl

/-! ### Settings that make no difference -/

section Indifferent

variable {w : Workspace} {call : Settings}

/-- Under settings that make no difference, every snapshot is the same as under none. -/
theorem snapshot?_of_indifferent {m : Model} {fill : Option Value}
    (h : m.schema.Indifferent w call) (hm : m.settings = ∅) :
    m.snapshot? w fill call = m.snapshot? w fill ∅ := by
  generalize hschema : m.schema = s at h
  induction h generalizing m with
  | @intro s here _ ih =>
    subst hschema
    have hadmits : ∀ c, m.admits w c = (new m.schema).admits w c := admits_congr rfl hm
    have hfilter : m.schema.primaries.filter (m.admits w call) =
        m.schema.primaries.filter (m.admits w ∅) :=
      List.filter_congr fun p hp => by rw [hadmits, hadmits, here p hp]
    rw [snapshot?_eq_gives, snapshot?_eq_gives, hfilter]
    congr 1
    refine Outcome.mapM_congr fun p hp => ?_
    obtain ⟨hp, ha⟩ := List.mem_filter.1 hp
    cases ht : p.target.schema? with
    | none => rw [gives_of_leaf ht, gives_of_leaf ht]
    | some t =>
      have hinner := ih p hp (hadmits ∅ ▸ ha) t ht
        (m := ofSlots t (Storage.inner t m.slots p.slot)) rfl rfl
      rw [gives_of_model ht, gives_of_model ht, hm, Dict.overlay_empty, Dict.overlay_empty, hinner]

/-- Whether a primary is found in a snapshot is whether it takes part. -/
theorem isSome_at?_eq_admits {m : Model} {fill : Option Value} {st : State}
    (hn : (m.schema.primaries.map Primary.name).Nodup) (h : m.snapshot? w fill call = .ok st)
    {p : Primary (Component Schema)} (hp : p ∈ m.schema.primaries) :
    (st.toValue.at? [p.name]).isSome = m.admits w call p := by
  by_cases ha : m.admits w call p = true
  · obtain ⟨x, -, hx⟩ := at?_of_admits hn h hp ha
    rw [hx, ha]
    rfl
  · rw [at?_of_not_admits hn h hp ha, Bool.eq_false_iff.2 ha]
    rfl

/-- Settings that do not show in a snapshot make no difference. -/
theorem indifferent_of_toValue_eq {m : Model} {fill : Option Value} {st st₀ : State}
    (hs : m.schema.Sound) (hm : m.settings = ∅) (h : m.snapshot? w fill call = .ok st)
    (h₀ : m.snapshot? w fill ∅ = .ok st₀) (heq : st.toValue = st₀.toValue) :
    m.schema.Indifferent w call := by
  induction m, hs using nested_induction generalizing st st₀ with
  | step m hs ih =>
    have hn := hs.here.nodup_names
    have hadmits : ∀ c, m.admits w c = (new m.schema).admits w c := admits_congr rfl hm
    have hsame : ∀ p ∈ m.schema.primaries, m.admits w call p = m.admits w ∅ p := by
      intro p hp
      rw [← isSome_at?_eq_admits hn h hp, heq, isSome_at?_eq_admits hn h₀ hp]
    refine .intro (fun p hp => by rw [← hadmits, ← hadmits, hsame p hp]) fun p hp ha t ht => ?_
    -- Both snapshots hold the same under the name of a nested instance that takes part.
    have ha : m.admits w ∅ p = true := hadmits ∅ ▸ ha
    obtain ⟨x, hx, hat⟩ := at?_of_admits hn h hp ((hsame p hp).trans ha)
    obtain ⟨x₀, hx₀, hat₀⟩ := at?_of_admits hn h₀ hp ha
    have hvalue : x = x₀ := by
      have := hat []
      rw [heq, hat₀, Value.at?, Value.at?] at this
      exact (Option.some.inj this).symm
    obtain ⟨inner, hinner, hi⟩ := exists_snapshot_of_gives ht hx
    obtain ⟨inner₀, hinner₀, hi₀⟩ := exists_snapshot_of_gives ht hx₀
    rw [hm, Dict.overlay_empty] at hinner hinner₀
    exact ih p hp t ht _ rfl hinner hinner₀ (hi.trans (hvalue.trans hi₀.symm))

end Indifferent

/-! ### When the state is the snapshot -/

/-- **The state is the snapshot under no settings exactly if the instance's own settings make no
difference to the nested instances that take part.** So it is for every instance that has no
settings of its own. -/
theorem snapshot?_eq_state_iff {w : Workspace} {m : Model} (hs : Everywhere Compiled m.schema) :
    (m.snapshot? w (some .null) ∅ = .ok (m.state w) ↔
      ∀ p ∈ m.schema.primaries, m.admits w ∅ p = true → ∀ t, p.target.schema? = some t →
        t.Indifferent w m.settings) ∧
      (m.settings = ∅ → m.snapshot? w (some .null) ∅ = .ok (m.state w)) := by
  have hsound := Schema.sound_of_compiled hs
  refine ⟨?_, snapshot?_of_settings_empty hsound⟩
  rw [snapshot?_eq_state_iff_nested hsound.here.nodup_names]
  refine forall₅_congr fun p hp _ t ht => ?_
  have ht' := hsound.nested hp ht
  have hstate := snapshot?_of_settings_empty (w := w)
    (m := ofSlots t (Storage.inner t m.slots p.slot)) ht' rfl
  constructor
  · intro h
    obtain ⟨st, hst, heq⟩ := Outcome.map_eq_ok.1 h
    exact indifferent_of_toValue_eq (m := ofSlots t (Storage.inner t m.slots p.slot)) ht' rfl hst
      hstate heq
  · intro h
    rw [snapshot?_of_indifferent (m := ofSlots t (Storage.inner t m.slots p.slot)) h rfl, hstate]
    rfl

/-- A person with a version of their own. -/
def pinned (v : Int64) : Model :=
  { new Schema.Sample.person with settings := .ofList [(versionKey, .integer v)] }

theorem compiled_pinned (v : Int64) : Everywhere Compiled (pinned v).schema := by
  change Everywhere Compiled Schema.Sample.person
  exact (Schema.Sample.everywhere_kept (fun _ => True) fun _ _ => trivial).mono fun _ =>
    Schema.Kept.compiled

/-- An address has a city under version 2, as it has under no settings. -/
theorem snapshot?_eq_state_of_pinned :
    Everywhere Compiled (pinned 2).schema ∧
      (pinned 2).snapshot? Schema.Sample.town (some .null) ∅ =
        .ok ((pinned 2).state Schema.Sample.town) := by
  refine ⟨compiled_pinned 2, (snapshot?_eq_state_iff (compiled_pinned 2)).1.2 fun p hp _ t ht => ?_⟩
  simp only [pinned, new, ofSlots, Schema.Sample.person, Schema.primaries, Schema.bindings,
    Bindings.primaries, List.mem_cons, List.not_mem_nil, or_false] at hp
  rcases hp with rfl | rfl
  · cases ht
  · cases ht
    refine .intro (fun q hq => ?_) fun q hq _ u hu => ?_
    all_goals
      simp only [Schema.Sample.address, Schema.primaries, Schema.bindings, Bindings.primaries,
        List.mem_singleton] at hq
      subst hq
    · decide
    · cases hu

/-- An address has no city under version 1, but the state of a person who has this version shows
one. -/
theorem snapshot?_ne_state_of_pinned :
    Everywhere Compiled (pinned 1).schema ∧
      withOptions Schema.Sample.person ⟨none, ∅, .ofList [(versionKey, .integer 1)]⟩ =
        .ok (pinned 1) ∧
      (pinned 1).snapshot? Schema.Sample.town (some .null) ∅ =
        .ok ⟨[("name", .null), ("home", .map [])]⟩ ∧
      (pinned 1).state Schema.Sample.town =
        ⟨[("name", .null), ("home", .map [("city", .null)])]⟩ ∧
      (pinned 1).snapshot? Schema.Sample.town (some .null) ∅ ≠
        .ok ((pinned 1).state Schema.Sample.town) := by
  have hsnapshot : (pinned 1).snapshot? Schema.Sample.town (some .null) ∅ =
      .ok ⟨[("name", .null), ("home", .map [])]⟩ := rfl
  have hstate : (pinned 1).state Schema.Sample.town =
      ⟨[("name", .null), ("home", .map [("city", .null)])]⟩ := rfl
  refine ⟨compiled_pinned 1, rfl, hsnapshot, hstate, ?_⟩
  rw [hsnapshot, hstate]
  simp

end Model

end VersionedModel
