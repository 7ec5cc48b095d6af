import VersionedModel.Proofs.Model.Restoring

/-!
# Snapshots by position

A snapshot may be sent as the sequence of its values. Then they are those of the fields that take
part, but an instance that is given a sequence counts all of its fields. So the values come back to
their own fields where the fields that take part are the first ones; in general the snapshot
survives exactly if each value does no harm at its position (`Model.yields_values_iff`).
-/

namespace VersionedModel

namespace Model

open Schema (Compiled Everywhere)

/-- The update succeeds, and the snapshot under the given call is `st` then. -/
def Yields (w : Workspace) (call : Settings) (st : State) (m : Model) (u : Update Unit) : Prop :=
  ∃ n, u m = .ok () n ∧ n.snapshot? w none call = .ok st

theorem yields_changing_iff {w : Workspace} {call : Settings} {st : State} {m : Model}
    {c : Schema → Storage.Change Unit} :
    m.Yields w call st (changing c) ↔
      ∃ after, c m.schema m.slots = .ok () after ∧
        snapshot? w { m with slots := after } none call = .ok st := by
  simp only [Yields, changing]
  cases c m.schema m.slots with
  | ok u after =>
    constructor
    · rintro ⟨n, hn, h⟩
      cases hn
      exact ⟨after, rfl, h⟩
    · rintro ⟨after', hafter, h⟩
      cases hafter
      exact ⟨_, rfl, h⟩
  | error e after =>
    constructor
    · rintro ⟨n, hn, -⟩
      cases hn
    · rintro ⟨after', hafter, -⟩
      cases hafter

/-! ### Snapshots field by field -/

theorem gives_of_slot_eq {w : Workspace} {n n' : Model} {fill : Option Value} {call : Settings}
    {p : Primary (Component Schema)} (hdefaults : n'.defaults = n.defaults)
    (hsettings : n'.settings = n.settings) (h : n'.slots[p.slot]? = n.slots[p.slot]?) :
    n'.gives w fill call p = n.gives w fill call p := by
  rw [gives, gives, readPrimary_of_slot_eq hdefaults h, hsettings]

/-- An instance with another storage has the same snapshot if all that take part give the same. -/
theorem snapshot?_slots_eq_ok_iff {w : Workspace} {m : Model} {fill : Option Value}
    {call : Settings} {st : State} (hn : (m.schema.primaries.map Primary.name).Nodup)
    (hst : m.snapshot? w fill call = .ok st) (slots : List Slot) :
    snapshot? w { m with slots := slots } fill call = .ok st ↔
      ∀ p ∈ m.schema.primaries, m.admits w call p = true →
        gives w { m with slots := slots } fill call p = m.gives w fill call p := by
  have hentries := (snapshot?_eq_ok hn).1 hst
  have hkeys := nodup_keys_of_snapshot hn hst
  have hadmits : admits w { m with slots := slots } call = m.admits w call := rfl
  rw [snapshot?_eq_ok (m := { m with slots := slots }) hn, hadmits]
  constructor
  · intro h p hp ha
    obtain ⟨v, hv, hmem⟩ := mem_of_entries hentries (List.mem_filter.2 ⟨hp, ha⟩)
    obtain ⟨v', hv', hmem'⟩ := mem_of_entries h (List.mem_filter.2 ⟨hp, ha⟩)
    have hget := Entries.get?_eq_some_of_mem hkeys hmem
    rw [Entries.get?_eq_some_of_mem hkeys hmem'] at hget
    rw [hv, hv', Option.some.inj hget]
  · intro h
    refine List.forall₂_iff_zip.2 ⟨hentries.length_eq, fun {p e} hmem => ?_⟩
    obtain ⟨hname, hgives⟩ := (List.forall₂_iff_zip.1 hentries).2 hmem
    obtain ⟨hp, ha⟩ := List.mem_filter.1 (List.of_mem_zip hmem).1
    exact ⟨hname, (h p hp ha).trans hgives⟩

section Snapshot

variable {w : Workspace} {m : Model} {call : Settings} {st : State} (hs : m.schema.Sound)
  (hst : m.snapshot? w none call = .ok st)
include hs hst

/-- A value that is set leaves a snapshot as it is if the field can take it and, where it takes part,
gives the same as before. -/
theorem yields_set_iff {p : Primary (Component Schema)} (hp : p ∈ m.schema.primaries) (v : Value) :
    m.Yields w call st (set p.name v) ↔
      Storage.checkAt m.schema p.name v = .ok () ∧
        (m.admits w call p = true →
          gives w { m with slots := Storage.put m.schema m.slots (p.name, v) } none call p =
            m.gives w none call p) := by
  have hresolve : m.schema.resolve? p.name = some p := hs.here.resolve?_name hp
  rw [set, write, yields_changing_iff]
  simp only [Storage.set, Storage.change_eq_ok_iff hs (e := (p.name, v)) hresolve, and_assoc,
    exists_and_left, exists_eq_left]
  refine and_congr_right fun _ => ?_
  rw [snapshot?_slots_eq_ok_iff hs.here.nodup_names hst]
  refine ⟨fun h => h p hp, fun h q hq ha => ?_⟩
  by_cases hqp : q = p
  · subst hqp
    exact h ha
  · -- The other fields have slots of their own.
    refine gives_of_slot_eq rfl rfl (Storage.getElem?_put_of_ne hs hq ?_ _)
    rw [hresolve]
    exact fun he => hqp (Option.some.inj he).symm

/-- **Values by position leave a snapshot as it is exactly if each of them does alone.** -/
theorem yields_sequence_iff (vs : List Value) :
    m.Yields w call st (setState (.sequence vs)) ↔
      ∀ e ∈ m.schema.primaries.zip vs, m.Yields w call st (set e.1.name e.2) := by
  have hzip : (Storage.names m.schema).zip vs =
      (m.schema.primaries.zip vs).map fun e => (e.1.name, e.2) := by
    rw [Storage.names, List.zip_map_left]
    rfl
  have hsub := Storage.keys_zip_names_sublist m.schema vs
  have hnodup := hs.here.nodup_names.sublist hsub
  have hnames : ∀ e ∈ (Storage.names m.schema).zip vs, e.1 ∈ Storage.names m.schema :=
    fun e he => hsub.subset (List.mem_map_of_mem he)
  -- A field that is given a value has it in the end as if it had been given this value alone.
  have hgiven : ∀ e ∈ m.schema.primaries.zip vs,
      gives w { m with
          slots := ((Storage.names m.schema).zip vs).foldl (Storage.put m.schema) m.slots }
          none call e.1 =
        gives w { m with slots := Storage.put m.schema m.slots (e.1.name, e.2) } none call e.1 := by
    intro e he
    refine gives_of_slot_eq rfl rfl
      (Storage.getElem?_foldl_put_of_mem hs (List.of_mem_zip he).1 hnodup hnames ?_ m.slots)
    rw [hzip]
    exact List.mem_map_of_mem he
  rw [setState, yields_changing_iff]
  simp only [Storage.loadPayload_sequence, Storage.loadPayload_mapping_eq_ok_iff hs, and_assoc,
    exists_and_left, exists_eq_left]
  rw [snapshot?_slots_eq_ok_iff hs.here.nodup_names hst]
  constructor
  · rintro ⟨hcheck, hgives⟩ e he
    have hp := (List.of_mem_zip he).1
    refine (yields_set_iff hs hst hp e.2).2 ⟨?_, fun ha => ?_⟩
    · exact hcheck (e.1.name, e.2) (hzip ▸ List.mem_map_of_mem he)
    · rw [← hgiven e he, hgives e.1 hp ha]
  · intro h
    refine ⟨fun e he => ?_, fun p hp ha => ?_⟩
    · rw [hzip] at he
      obtain ⟨d, hd, rfl⟩ := List.mem_map.1 he
      exact ((yields_set_iff hs hst (List.of_mem_zip hd).1 d.2).1 (h d hd)).1
    · by_cases hmem : ∃ v, (p, v) ∈ m.schema.primaries.zip vs
      · obtain ⟨v, hv⟩ := hmem
        exact (hgiven (p, v) hv).trans (((yields_set_iff hs hst hp v).1 (h _ hv)).2 ha)
      · -- A field behind the last value keeps what it has.
        refine gives_of_slot_eq rfl rfl (Storage.getElem?_foldl_put_of_ne hs hp ?_ m.slots)
        rw [hzip]
        intro f hf hresolve
        obtain ⟨e, he, rfl⟩ := List.mem_map.1 hf
        have hown : m.schema.resolve? e.1.name = some e.1 :=
          hs.here.resolve?_name (List.of_mem_zip he).1
        rw [hown] at hresolve
        cases hresolve
        exact hmem ⟨e.2, he⟩

/-- A value does no harm in a leaf that the snapshot does not show, or shows with this value. -/
theorem yields_set_leaf_iff (hfits : Storage.Fits m.schema m.slots)
    {p : Primary (Component Schema)} (hp : p ∈ m.schema.primaries)
    (hk : p.target.schema? = none) (v : Value) :
    m.Yields w call st (set p.name v) ↔ ∀ x, st.get? p.name = some x → x = v := by
  have hresolve : m.schema.resolve? p.name = some p := hs.here.resolve?_name hp
  have hentries := (snapshot?_eq_ok hs.here.nodup_names).1 hst
  have hkeys := nodup_keys_of_snapshot hs.here.nodup_names hst
  have hcheck : Storage.checkAt m.schema p.name v = .ok () :=
    Storage.checkAt_of_leaf hresolve hk v
  have hgives : gives w { m with slots := Storage.put m.schema m.slots (p.name, v) } none call p =
      .ok v := by
    rw [gives_of_leaf hk, Storage.put_of_resolve? (e := (p.name, v)) hresolve,
      Storage.taken_of_leaf hk, Storage.stored?, List.getElem?_set_self (hfits.slot_lt hs hp)]
    rfl
  rw [yields_set_iff hs hst hp, hgives]
  constructor
  · rintro ⟨-, h⟩ x hx
    obtain ⟨q, hq, hname, hgives'⟩ :=
      exists_of_mem_entries hentries (Entries.mem_of_get?_eq_some hx)
    obtain ⟨hq, ha⟩ := List.mem_filter.1 hq
    obtain rfl := hs.here.eq_of_name_eq hq hp hname.symm
    rw [hgives'] at h
    exact (Except.ok.inj (h ha)).symm
  · intro h
    refine ⟨hcheck, fun ha => ?_⟩
    obtain ⟨x, hx, hmem⟩ := mem_of_entries hentries (List.mem_filter.2 ⟨hp, ha⟩)
    rw [hx, h x (Entries.get?_eq_some_of_mem hkeys hmem)]

/-- Where the fields that take part are the first ones, the values by position are those by name. -/
theorem zip_names_values
    (hfirst : m.schema.primaries.filter (m.admits w call) <+: m.schema.primaries) :
    (Storage.names m.schema).zip st.values = st.toList := by
  have hentries := (snapshot?_eq_ok hs.here.nodup_names).1 hst
  obtain ⟨rest, hrest⟩ := hfirst
  have hnames : Storage.names m.schema = st.toList.map Prod.fst ++ rest.map Primary.name := by
    have hkeys : st.toList.map Prod.fst = _ := keys_of_entries hentries
    rw [hkeys, ← List.map_append, hrest]
    rfl
  rw [hnames, State.values, ← List.append_nil (st.toList.map Prod.snd),
    List.zip_append (by rw [List.length_map, List.length_map]), List.zip_nil_right,
    List.append_nil]
  exact (List.zip_of_prod rfl rfl).symm

end Snapshot

/-! ### Whole snapshots -/

/-- **What becomes of a snapshot whose values are put back by position.** If no field that is left
out stands before one that takes part, the snapshot stays as it is. In general it does so exactly if
each value, set alone in the field at its position, leaves it as it is; in a leaf, this is so if the
snapshot does not hold the field, or holds just this value for it. -/
theorem yields_values_iff {w : Workspace} {m : Model} (hcompiled : Everywhere Compiled m.schema)
    (hm : m.Reachable) {call : Settings} {st : State}
    (hst : m.snapshot? w none call = .ok st) :
    (m.schema.primaries.filter (m.admits w call) <+: m.schema.primaries →
        m.Yields w call st (setState (.sequence st.values))) ∧
      (m.Yields w call st (setState (.sequence st.values)) ↔
        ∀ e ∈ m.schema.primaries.zip st.values, m.Yields w call st (set e.1.name e.2)) ∧
      ∀ p ∈ m.schema.primaries, p.target.schema? = none → ∀ v,
        (m.Yields w call st (set p.name v) ↔ ∀ x, st.get? p.name = some x → x = v) := by
  have hs := Schema.sound_of_compiled hcompiled
  have hfits := hm.fits hs
  refine ⟨fun hfirst => ?_, yields_sequence_iff hs hst st.values, fun p hp hk v =>
    yields_set_leaf_iff hs hst hfits hp hk v⟩
  obtain ⟨after, hload, -, -, hsnapshot⟩ := exists_load_toValue hs hst hfits
  refine yields_changing_iff.2 ⟨after, ?_, hsnapshot _ rfl rfl rfl⟩
  rw [Storage.loadPayload_sequence, zip_names_values hs hst hfirst]
  exact loadPayload_ofState hs hst hload

end Model

/-! ### A trip -/

namespace Schema.Sample

/-- A stop on the way, which there is from version 2 on. -/
def via : Component Schema :=
  { Component.ofKind (.leaf .string) with name := some "via", firstVersion := some 2 }

/-- A trip, with a stop on the way before its ends. -/
def tripDeclaration : Declaration where
  name := "trip"
  settings := ∅
  rule := .version .usual
  members := [.field "via" (.built 0), .field "start" (.kind .string), .field "finish" (.kind .string)]

/-- The trip, compiled. -/
def trip : Schema :=
  .mk "trip" ∅ 0
    [.primary "via" 0 via,
      .primary "start" 1 { Component.ofKind (.leaf .string) with id := 1, name := some "start" },
      .primary "finish" 2 { Component.ofKind (.leaf .string) with id := 2, name := some "finish" }]

/-- What is there before the trip is compiled. -/
def platform : Workspace := Workspace.empty.run [.declare via]

/-- What is there in the end. -/
def station : Workspace := platform.run [.build tripDeclaration]

theorem compiled_trip : Everywhere Compiled trip := by
  refine .intro ⟨.build tripDeclaration, platform, station, ⟨[.declare via], rfl⟩, rfl⟩
    fun p hp t ht => ?_
  simp only [trip, primaries, bindings, Bindings.primaries, List.mem_cons, List.not_mem_nil,
    or_false] at hp
  rcases hp with rfl | rfl | rfl <;> cases ht

end Schema.Sample

namespace Model

open Schema (Compiled Everywhere)
open Schema.Sample (trip station compiled_trip)

/-- A trip under version 1. -/
def travel (start finish : String) : Model :=
  { new trip with
    settings := .ofList [(versionKey, .integer 1)]
    slots := [.leaf none, .leaf (some (.string start)), .leaf (some (.string finish))] }

theorem reachable_travel (start finish : String) : (travel start finish).Reachable :=
  ⟨trip, ⟨none, ∅, .ofList [(versionKey, .integer 1)]⟩, _, rfl, .single (.attempt _
    (.bind [("start", .string start), ("finish", .string finish)]))⟩

/-- What is left out stands first, but where a trip ends at its start, no harm is done. -/
theorem yields_values_of_travel :
    Everywhere Compiled (travel "Rome" "Rome").schema ∧ (travel "Rome" "Rome").Reachable ∧
      (travel "Rome" "Rome").snapshot? station none ∅ =
        .ok ⟨[("start", .string "Rome"), ("finish", .string "Rome")]⟩ ∧
      (travel "Rome" "Rome").Yields station ∅
        ⟨[("start", .string "Rome"), ("finish", .string "Rome")]⟩
        (setState (.sequence [.string "Rome", .string "Rome"])) := by
  have hst : (travel "Rome" "Rome").snapshot? station none ∅ =
      .ok ⟨[("start", .string "Rome"), ("finish", .string "Rome")]⟩ := rfl
  refine ⟨compiled_trip, reachable_travel _ _, hst, ?_⟩
  obtain ⟨-, hyields, hleaf⟩ := yields_values_iff compiled_trip (reachable_travel _ _) hst
  refine hyields.2 fun e he => ?_
  have hp : e.1 ∈ trip.primaries := (List.of_mem_zip he).1
  simp only [travel, new, ofSlots, trip, Schema.primaries, Schema.bindings, Bindings.primaries,
    State.values, List.map_cons, List.map_nil, List.zip_cons_cons, List.zip_nil_right,
    List.mem_cons, List.not_mem_nil, or_false] at he
  rcases he with rfl | rfl
  · exact (hleaf _ hp rfl _).2 fun x hx => by cases hx
  · exact (hleaf _ hp rfl _).2 fun x hx => by cases hx; rfl

/-- The start goes to the stop on the way, which is left out, and the end to the start. -/
theorem not_yields_values_of_travel :
    Everywhere Compiled (travel "Rome" "Oslo").schema ∧ (travel "Rome" "Oslo").Reachable ∧
      (travel "Rome" "Oslo").snapshot? station none ∅ =
        .ok ⟨[("start", .string "Rome"), ("finish", .string "Oslo")]⟩ ∧
      ∃ n, (travel "Rome" "Oslo").setState (.sequence [.string "Rome", .string "Oslo"]) =
          .ok () n ∧
        n.snapshot? station none ∅ =
          .ok ⟨[("start", .string "Oslo"), ("finish", .string "Oslo")]⟩ ∧
        ¬(travel "Rome" "Oslo").Yields station ∅
          ⟨[("start", .string "Rome"), ("finish", .string "Oslo")]⟩
          (setState (.sequence [.string "Rome", .string "Oslo"])) := by
  refine ⟨compiled_trip, reachable_travel _ _, rfl, _, rfl, rfl, ?_⟩
  rintro ⟨n, hn, h⟩
  cases hn
  have hne := State.mk.inj (Except.ok.inj h)
  revert hne
  decide

end Model

end VersionedModel
