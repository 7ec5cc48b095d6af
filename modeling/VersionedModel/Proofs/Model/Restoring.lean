import VersionedModel.Proofs.Model.Rearranging
import VersionedModel.Proofs.Model.Reloading

/-!
# Restoring snapshots

A snapshot that is put into any instance of the schema is that instance's snapshot afterwards, and
whatever the snapshot does not hold stays as it was, at every depth
(`Model.exists_setState_of_snapshot`). A field is looked up in a snapshot under the names of the
primaries on the way to it, whichever names it is called by (`Schema.Leads`).
-/

namespace VersionedModel

/-- The names, of which each may be an alias, lead through nested models to a field, and the path
has the names of the primaries in their place. -/
inductive Schema.Leads : Schema → List String → List String → Prop
  | field {s : Schema} {name : String} {p : Primary (Component Schema)}
      (resolve : s.resolve? name = some p) : Leads s [name] [p.name]
  | nested {s t : Schema} {name : String} {p : Primary (Component Schema)}
      {names path : List String} (resolve : s.resolve? name = some p)
      (kind : p.target.kind = .model t) (rest : Leads t names path) :
      Leads s (name :: names) (p.name :: path)

theorem Schema.Leads.ne_nil {s : Schema} {names path : List String} (h : s.Leads names path) :
    names ≠ [] := by
  cases h <;> simp

namespace Model

open Schema (Compiled Everywhere Leads)

/-- A snapshot is loaded as it is. -/
theorem exists_load_toValue {w : Workspace} {m : Model} {call : Settings} {st : State}
    (hs : m.schema.Sound) (h : m.snapshot? w none call = .ok st) {slots : List Slot}
    (hfits : Storage.Fits m.schema slots) :
    ∃ after, Storage.load m.schema st.toValue slots = .ok () after ∧
      (∀ p ∈ m.schema.primaries, p.name ∉ st.keys → after[p.slot]? = slots[p.slot]?) ∧
      (∀ p ∈ m.schema.primaries, ∀ v, (p.name, v) ∈ st.toList →
        Storage.Takes p v slots after) ∧
      ∀ n : Model, n.schema = m.schema → n.settings = m.settings → n.slots = after →
        n.snapshot? w none call = .ok st := by
  have hself : ∀ c v, Value.mapLeaves (fun _ v => v) c v = v :=
    fun c v => Value.mapLeaves_eq_self v fun _ _ => rfl
  have hentries : ∀ es, Value.mapEntryLeaves (fun _ v => v) m.schema es = es :=
    fun es => Value.mapEntryLeaves_eq_self es fun _ _ => rfl
  obtain ⟨after, hload, hkept, htaken⟩ := exists_load_takes (fun _ v => v) hs h hfits
  obtain ⟨after', hload', hsnapshot⟩ := exists_load_of_snapshot (fun _ v => v) hs h hfits
  rw [hload] at hload'
  cases hload'
  rw [hentries] at hload
  rw [State.mapLeaves, hentries] at hsnapshot
  exact ⟨after, hload, hkept, fun p hp v hv => hself p.target v ▸ htaken p hp v hv, hsnapshot⟩

/-! ### What is not in a snapshot -/

/-- What a primary gives when it is read is a matter of its own slot and of the defaults. -/
theorem readPrimary_of_slot_eq {n n' : Model} {p : Primary (Component Schema)}
    (hdefaults : n'.defaults = n.defaults) (h : n'.slots[p.slot]? = n.slots[p.slot]?)
    (name : String) : n'.readPrimary p name = n.readPrimary p name := by
  simp only [readPrimary, defaultFor, Storage.inner, Storage.stored?, h, hdefaults]

/-- **What a snapshot does not hold is not written**, at any depth. -/
theorem readAt_of_load {w : Workspace} {m n : Model} {call : Settings} {st : State} (n' : Model)
    (hs : m.schema.Sound) (hst : m.snapshot? w none call = .ok st)
    (hschema : n.schema = m.schema) (hschema' : n'.schema = m.schema)
    (hdefaults : n'.defaults = n.defaults) (hfits : Storage.Fits m.schema n.slots)
    (hload : Storage.load m.schema st.toValue n.slots = .ok () n'.slots)
    {names path : List String} (hleads : m.schema.Leads names path)
    (habsent : st.toValue.at? path = none) : n'.readAt names = n.readAt names := by
  generalize hm : m.schema = s at hleads
  -- The induction is on the names; where the snapshot has a nested one, this one was loaded.
  induction hleads generalizing m n call st n' with
  | @field s name p resolve =>
    subst hm
    obtain ⟨after, hload', hkept, -⟩ := exists_load_toValue hs hst hfits
    rw [hload] at hload'
    cases hload'
    rw [get?_toValue (nodup_keys_of_snapshot hs.here.nodup_names hst)] at habsent
    have hname : p.name ∉ st.keys := by
      refine Entries.get?_eq_none_iff.1 (Option.eq_none_iff_forall_ne_some.2 fun v hv => ?_)
      rw [hv] at habsent
      cases habsent
    rw [readAt, readAt, read_of_resolve? (hschema'.symm ▸ resolve),
      read_of_resolve? (hschema.symm ▸ resolve),
      readPrimary_of_slot_eq hdefaults (hkept p (Schema.mem_of_resolve? resolve) hname)]
  | @nested s t name p names path resolve kind rest ih =>
    subst hm
    obtain ⟨after, hload', hkept, htaken, -⟩ := exists_load_toValue hs hst hfits
    rw [hload] at hload'
    cases hload'
    have hp := Schema.mem_of_resolve? resolve
    have ht := Component.schema?_eq_some_iff.2 kind
    rw [get?_toValue (nodup_keys_of_snapshot hs.here.nodup_names hst)] at habsent
    rw [readAt_cons_of_resolve? (hschema'.symm ▸ resolve) kind rest.ne_nil,
      readAt_cons_of_resolve? (hschema.symm ▸ resolve) kind rest.ne_nil]
    cases hv : Entries.get? p.name st.toList with
    | none =>
      rw [Storage.inner, Storage.inner, hkept p hp (Entries.get?_eq_none_iff.1 hv)]
    | some v =>
      rw [hv, Option.bind_some] at habsent
      have hmem := Entries.mem_of_get?_eq_some hv
      obtain ⟨q, hq, hname, hgives⟩ :=
        exists_of_mem_entries ((snapshot?_eq_ok hs.here.nodup_names).1 hst) hmem
      obtain rfl := hs.here.eq_of_name_eq (List.mem_filter.1 hq).1 hp hname.symm
      obtain ⟨inner, hinner, rfl⟩ := exists_snapshot_of_gives ht hgives
      exact ih _ (hs.nested hp ht) hinner rfl rfl rfl (hfits.nested hp ht)
        ((htaken q hp _ hmem).2 t ht) habsent rfl

/-! ### Putting snapshots into other instances -/

/-- A snapshot may be loaded in the order of its fields as well as in that of their names. -/
theorem loadPayload_ofState {w : Workspace} {m : Model} {call : Settings} {st : State}
    (hs : m.schema.Sound) (hst : m.snapshot? w none call = .ok st) {slots after : List Slot}
    (hload : Storage.load m.schema st.toValue slots = .ok () after) :
    Storage.loadPayload m.schema (.ofState st) slots = .ok () after := by
  have hkeys := nodup_keys_of_snapshot hs.here.nodup_names hst
  have hnames : ∀ e ∈ st.toList, e.1 ∈ Storage.names m.schema := by
    intro e he
    obtain ⟨p, hp, hname, -⟩ :=
      exists_of_mem_entries ((snapshot?_eq_ok hs.here.nodup_names).1 hst) he
    exact hname ▸ List.mem_map_of_mem (List.mem_filter.1 hp).1
  rw [State.toValue, Storage.load_map] at hload
  rcases Storage.alike_loadPayload_perm hs (Entries.ofList_perm hkeys).symm
    (Storage.apart_of_names hs hkeys hnames) slots with ⟨after', h, h'⟩ | ⟨e, e', -, h'⟩
  · rw [State.toDict, Dict.ofList, h'] at hload
    cases hload
    exact h
  · rw [State.toDict, Dict.ofList, h'] at hload
    cases hload

/-- **A snapshot can be put into every instance of the schema.** An instance with the schema and the
settings of the one that gave the snapshot, whatever it holds and whatever its defaults are, takes
the snapshot, then gives it itself under the same call, and every field that the snapshot does not
hold reads as before, at every depth. -/
theorem exists_setState_of_snapshot {w : Workspace} {m n : Model}
    (hcompiled : Everywhere Compiled m.schema) {call : Settings} {st : State}
    (hst : m.snapshot? w none call = .ok st) (hn : n.Reachable) (hschema : n.schema = m.schema)
    (hsettings : n.settings = m.settings) :
    ∃ n', n.setState (.ofState st) = .ok () n' ∧ n'.snapshot? w none call = .ok st ∧
      ∀ names path, n.schema.Leads names path → st.toValue.at? path = none →
        n'.readAt names = n.readAt names := by
  have hs := Schema.sound_of_compiled hcompiled
  have hfits : Storage.Fits m.schema n.slots := hschema ▸ hn.fits (hschema ▸ hs)
  obtain ⟨after, hload, -, -, hsnapshot⟩ := exists_load_toValue hs hst hfits
  refine ⟨{ n with slots := after }, ?_, hsnapshot _ hschema hsettings rfl,
    fun names path hleads habsent =>
      readAt_of_load { n with slots := after } hs hst hschema hschema rfl hfits hload
        (hschema ▸ hleads) habsent⟩
  change changing (fun s => Storage.loadPayload s (.ofState st)) n = _
  rw [changing, hschema, loadPayload_ofState hs hst hload]

/-! ### A person in the place of another -/

open Schema.Sample (address city person town)

/-- A person who lives in Lima. -/
def rosa : Model :=
  { new person with slots := [.leaf (some (.string "Rosa")), .opened [.leaf (some (.string "Lima"))]] }

/-- A person who lives in Oslo and whose name was never set. -/
def nobody : Model :=
  { new person with
    defaults := .ofList [("name", .string "nobody")]
    slots := [.leaf none, .opened [.leaf (some (.string "Oslo"))]] }

/-- Under version 1, where a home has no city yet, Rosa's snapshot does not move anybody. -/
theorem exists_setState_of_rosa :
    Everywhere Compiled rosa.schema ∧
      rosa.snapshot? town none (Dict.ofList [(versionKey, .integer 1)]) =
        .ok ⟨[("name", .string "Rosa"), ("home", .map [])]⟩ ∧
      nobody.Reachable ∧ nobody.schema = rosa.schema ∧ nobody.settings = rosa.settings ∧
      ∃ n', nobody.setState (.ofState ⟨[("name", .string "Rosa"), ("home", .map [])]⟩) =
          .ok () n' ∧
        n'.snapshot? town none (Dict.ofList [(versionKey, .integer 1)]) =
          .ok ⟨[("name", .string "Rosa"), ("home", .map [])]⟩ ∧
        n'.readAt ["home", "city"] = .ok (.value (.string "Oslo")) := by
  have hcompiled : Everywhere Compiled rosa.schema :=
    (Schema.Sample.everywhere_kept (fun _ => True) fun _ _ => trivial).mono fun _ =>
      Schema.Kept.compiled
  have hst : rosa.snapshot? town none (Dict.ofList [(versionKey, .integer 1)]) =
      .ok ⟨[("name", .string "Rosa"), ("home", .map [])]⟩ := rfl
  have hn : nobody.Reachable :=
    ⟨person, ⟨none, .ofList [("name", .string "nobody")], ∅⟩, _, rfl, .single (.attempt _
      (.bind [("home", .map [("city", .string "Oslo")])]))⟩
  refine ⟨hcompiled, hst, hn, rfl, rfl, ?_⟩
  obtain ⟨n', hset, hsnapshot, hreads⟩ := exists_setState_of_snapshot hcompiled hst hn rfl rfl
  have hcity : address.Leads ["city"] ["city"] := .field (p := ⟨"city", 0, city⟩) rfl
  have hhome : person.resolve? "home" =
      some ⟨"home", 1, { Component.ofKind (.model address) with id := 2, name := some "home" }⟩ :=
    rfl
  have hleads : person.Leads ["home", "city"] ["home", "city"] := .nested hhome rfl hcity
  exact ⟨n', hset, hsnapshot, hreads _ _ hleads rfl⟩

end Model

end VersionedModel
