import VersionedModel.Proofs.Model.Places

/-!
# Defaults

The state of defaults is put together from the defaults of leaves and, for each nested instance, from
its own state of defaults (`Model.defaultState_eq_givesDefault`). Nested instances have no defaults
but those of their components, so what is stored makes no difference. It is a snapshot of what an
instance falls back on: at the end of every chain of fields it has what is read there after
everything was cleared (`Model.at?_defaultState_iff_readAt_clear`), whoever takes part under whatever
settings.
-/

namespace VersionedModel

open Schema (Everywhere Compiled)

namespace Model

/-! ### Chains of fields -/

/-- A chain of fields leads, by their own names, to the last of them. -/
theorem LeafChain.leafAt {s : Schema} {ps : List (Primary (Component Schema))}
    (h : LeafChain s ps) (hs : s.Sound) :
    s.LeafAt (ps.map Primary.name) (ps.map Primary.slot) (ps.getLast h.ne_nil) := by
  induction h with
  | leaf mem kind =>
    exact .leaf (hs.here.resolve?_name mem) (Component.schema?_eq_none_iff.2 ⟨_, kind⟩)
  | nested mem kind rest ih =>
    have ht := Component.schema?_eq_some_iff.2 kind
    rw [List.getLast_cons rest.ne_nil]
    exact .nested (hs.here.resolve?_name mem) ht (ih (hs.nested mem ht))

/-! ### The state of defaults -/

/-- What a field gives to the state of defaults. -/
def givesDefault (m : Model) (p : Primary (Component Schema)) : Option Value :=
  match p.target.schema? with
  | some t => some (new t).defaultState.toValue
  | none => m.defaultFor p p.name

theorem defaultState_eq_givesDefault (m : Model) :
    m.defaultState =
      .ofList (m.schema.primaries.filterMap fun p => (m.givesDefault p).map (p.name, ·)) := by
  rw [defaultState_eq]
  congr 2
  funext p
  rw [givesDefault]
  cases p.target.schema? <;> rfl

/-- What the state of defaults holds for a field, and inside it. -/
theorem at?_defaultState_cons {m : Model} (hn : (m.schema.primaries.map Primary.name).Nodup)
    {p : Primary (Component Schema)} (hp : p ∈ m.schema.primaries) (rest : List String) :
    m.defaultState.toValue.at? (p.name :: rest) = (m.givesDefault p).bind (·.at? rest) := by
  have hkeys : (Listing.keys (m.schema.primaries.filterMap fun p =>
      (m.givesDefault p).map (p.name, ·))).Nodup :=
    hn.sublist (Listing.keys_filterMap_sublist Primary.name m.givesDefault _)
  rw [defaultState_eq_givesDefault, State.ofList, Listing.ofList_of_nodup hkeys,
    get?_toValue hkeys, Listing.get?_filterMap hn hp]

/-- **At the end of a chain of fields, the state of defaults has what the chain falls back on.** -/
theorem at?_defaultState {m : Model} {ps : List (Primary (Component Schema))}
    (h : LeafChain m.schema ps) (hs : m.schema.Sound) :
    m.defaultState.toValue.at? (ps.map Primary.name) =
      m.fallbackAt (ps.map Primary.name) (ps.getLast h.ne_nil) := by
  generalize hschema : m.schema = s at h
  induction h generalizing m with
  | @leaf s p k mem kind =>
    subst hschema
    rw [List.map_singleton, at?_defaultState_cons hs.here.nodup_names mem, givesDefault,
      Component.schema?_eq_none_iff.2 ⟨k, kind⟩]
    exact Option.bind_fun_some _
  | @nested s t p ps mem kind rest ih =>
    subst hschema
    have ht := Component.schema?_eq_some_iff.2 kind
    have hnames : ps.map Primary.name ≠ [] := by simpa using rest.ne_nil
    have hin := ih (m := new t) (hs.nested mem ht) rfl
    rw [List.map_cons, at?_defaultState_cons hs.here.nodup_names mem, givesDefault, ht,
      List.getLast_cons rest.ne_nil, fallbackAt_cons m p.name hnames]
    exact hin.trans (fallbackAt_ofSlots t t.fresh _ _)

/-- What is stored makes no difference to the defaults. -/
theorem defaultState_congr (m : Model) (slots : List Slot) :
    defaultState { m with slots := slots } = m.defaultState := rfl

/-- **A cleared instance reads what it falls back on.** -/
theorem readAt_clear {m : Model} {ps : List (Primary (Component Schema))}
    (h : LeafChain m.schema ps) (hs : m.schema.Sound) :
    m.clear.readAt (ps.map Primary.name) =
      .ok ((m.fallbackAt (ps.map Primary.name) (ps.getLast h.ne_nil)).elim .missing .value) := by
  have hnone : Storage.storedAt? m.clear.slots (ps.map Primary.slot) = none :=
    Storage.storedAt?_clearAll m.slots _
  rw [readAt_of_leafAt (m := m.clear) (h.leafAt hs), hnone]
  rfl

/-- **The state of defaults is what remains when everything is cleared.** It does not depend on what
is stored, so nothing that is done to an instance changes it; and a chain of fields that ends at a
leaf finds a value in it exactly if this value is read along the chain after a clearing, and finds
nothing exactly if nothing is read. -/
theorem at?_defaultState_iff_readAt_clear {m : Model}
    (hcompiled : Everywhere Compiled m.schema) :
    (∀ slots, defaultState { m with slots := slots } = m.defaultState) ∧
      (∀ n, Relation.ReflTransGen Step m n → n.defaultState = m.defaultState) ∧
      ∀ ps, LeafChain m.schema ps →
        (∀ v, m.defaultState.toValue.at? (ps.map Primary.name) = some v ↔
          m.clear.readAt (ps.map Primary.name) = .ok (.value v)) ∧
        (m.defaultState.toValue.at? (ps.map Primary.name) = none ↔
          m.clear.readAt (ps.map Primary.name) = .ok .missing) := by
  have hs := Schema.sound_of_compiled hcompiled
  refine ⟨defaultState_congr m, fun n h => ?_, fun ps hps => ?_⟩
  · obtain ⟨slots, rfl, -⟩ := sustains_of_history h
    exact defaultState_congr m slots
  · rw [at?_defaultState hps hs, readAt_clear hps hs]
    cases m.fallbackAt (ps.map Primary.name) (ps.getLast hps.ne_nil) with
    | none => simp
    | some d => simp

/-! ### A shipment with a default -/

/-- The shipment that was given a number and a label, with a number to fall back on. -/
def numbered : Model :=
  { shipped with defaults := .ofList [("number", .string "A0")] }

/-- The default of the number is what is read after a clearing; the label of the parcel has none. -/
theorem at?_defaultState_iff_readAt_clear_of_numbered :
    Everywhere Compiled numbered.schema ∧
      numbered.clear.readAt ["number"] = .ok (.value (.string "A0")) ∧
      numbered.defaultState.toValue.at? ["parcel", "label"] = none := by
  have hcompiled : Everywhere Compiled numbered.schema := Schema.Sample.compiled_shipment
  obtain ⟨-, -, hchains⟩ := at?_defaultState_iff_readAt_clear hcompiled
  have hnumber := hchains _ (.leaf (p := ⟨"number", 0, _⟩) List.mem_cons_self rfl)
  have hlabel := hchains _ (.nested (p := ⟨"parcel", 1, _⟩)
    (List.mem_cons_of_mem _ List.mem_cons_self) rfl (.leaf Schema.Sample.label_mem rfl))
  exact ⟨hcompiled, (hnumber.1 _).1 rfl, hlabel.2.2 rfl⟩

end Model

end VersionedModel
