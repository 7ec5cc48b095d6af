import VersionedModel.Proofs.Model.Histories
import VersionedModel.Proofs.Model.Leaves

/-!
# Loading snapshots

Values that are written under different names do not get into each other's way: every primary that
is written holds its own value afterwards (`Storage.exists_putEntries`). So what is loaded from a
snapshot, with its leaves replaced or not, is what a snapshot under the same settings gives
afterwards (`Model.exists_load_of_snapshot`), whatever was stored before and at every depth.
-/

namespace VersionedModel

namespace Storage

/-! ### Writing under different names -/

/-- What a primary has taken in: a leaf holds the value, and a nested instance has loaded it. -/
def Takes (p : Primary (Component Schema)) (v : Value) (before after : List Slot) : Prop :=
  (p.target.schema? = none → stored? after p.slot = some v) ∧
    ∀ t, p.target.schema? = some t →
      load t v (inner t before p.slot) = .ok () (inner t after p.slot)

/-- It is a matter of the primary's own slot. -/
theorem Takes.congr {p : Primary (Component Schema)} {v : Value}
    {before before' after after' : List Slot} (hb : before'[p.slot]? = before[p.slot]?)
    (ha : after'[p.slot]? = after[p.slot]?) (h : Takes p v before after) :
    Takes p v before' after' := by
  refine ⟨fun hk => ?_, fun t ht => ?_⟩
  · rw [stored?, ha]
    exact h.1 hk
  · have hload := h.2 t ht
    rw [inner, inner] at hload ⊢
    rwa [hb, ha]

/-- A primary takes in a value that passes the check, and no other slot is written. -/
theorem exists_set_of_check {s : Schema} (hs : s.Sound) {p : Primary (Component Schema)}
    (hp : p ∈ s.primaries) {v : Value} (hv : checkAt s p.name v = .ok ()) {slots : List Slot}
    (hlt : p.slot < slots.length) :
    ∃ x, change s p.name (some v) (fun t => load t v) slots = .ok () (slots.set p.slot x) ∧
      Takes p v slots (slots.set p.slot x) := by
  have hresolve := hs.here.resolve?_name hp
  cases hk : p.target.schema? with
  | none =>
    refine ⟨_, change_of_leaf hresolve hk, fun _ => ?_, fun t ht => ?_⟩
    · rw [stored?, List.getElem?_set_self hlt]
    · rw [hk] at ht
      cases ht
  | some t =>
    obtain ⟨b, hb⟩ :=
      exists_load_of_check (hs.nested hp hk) v (checkAt_of_nested hresolve hk v ▸ hv)
        (inner t slots p.slot)
    refine ⟨_, (change_of_model hresolve hk).trans (within_of_ok hb), fun hn => ?_, fun u hu => ?_⟩
    · rw [hk] at hn
      cases hn
    · obtain rfl := Option.some.inj (hk.symm.trans hu)
      rwa [inner_set_opened hlt]

/-- **Primaries that are written under different names take in their values**, and the others keep
what they have. -/
theorem exists_putEntries {s : Schema} (hs : s.Sound) {entries : List (String × Value)}
    (hn : (entries.map Prod.fst).Nodup) (hb : ∀ e ∈ entries, ∃ p ∈ s.primaries, p.name = e.1)
    (hc : checkEntries s entries = .ok ()) {slots : List Slot}
    (hlen : slots.length = s.primaries.length) :
    ∃ after, putEntries s entries slots = .ok () after ∧
      (∀ p ∈ s.primaries, p.name ∉ entries.map Prod.fst → after[p.slot]? = slots[p.slot]?) ∧
      ∀ p ∈ s.primaries, ∀ v, (p.name, v) ∈ entries → Takes p v slots after := by
  induction entries generalizing slots with
  | nil => exact ⟨slots, rfl, fun _ _ _ => rfl, fun _ _ _ h => by cases h⟩
  | cons e entries ih =>
    obtain ⟨name, v⟩ := e
    obtain ⟨⟨p, hp, rfl⟩, hbound⟩ := List.forall_mem_cons.1 hb
    rw [checkEntries_cons] at hc
    obtain ⟨⟨⟩, hv, hc⟩ := Outcome.bind_eq_ok.1 hc
    obtain ⟨hfresh, hn⟩ := List.nodup_cons.1 hn
    have hlt : p.slot < slots.length := hlen ▸ hs.here.slot_lt hp
    obtain ⟨x, hx, htakes⟩ := exists_set_of_check hs hp hv hlt
    have hlen' : (slots.set p.slot x).length = s.primaries.length := by
      rw [List.length_set, hlen]
    obtain ⟨after, hafter, hkept, htaken⟩ := ih hn hbound hc hlen'
    have hbinds : s.binds p.name = true := Bindings.contains_name hp
    -- A primary with another name has another slot, which the first value does not touch.
    have hother : ∀ q ∈ s.primaries, q.name ≠ p.name →
        (slots.set p.slot x)[q.slot]? = slots[q.slot]? := by
      intro q hq hne
      refine List.getElem?_set_ne fun hslot => hne ?_
      rw [hs.here.eq_of_slot_eq hp hq hslot]
    refine ⟨after, (putEntries_cons_of_binds hbinds hx).trans hafter, fun q hq hname => ?_,
      fun q hq u hu => ?_⟩
    · rw [List.map_cons, List.mem_cons, not_or] at hname
      rw [hkept q hq hname.2, hother q hq hname.1]
    · rcases List.mem_cons.1 hu with heq | hu
      · -- The first value is not written over, since its name does not occur again.
        obtain ⟨hname, rfl⟩ := Prod.mk.inj heq
        obtain rfl := hs.here.eq_of_name_eq hq hp hname
        exact htakes.congr rfl (hkept q hq hfresh)
      · have hne : q.name ≠ p.name := fun he =>
          hfresh (he ▸ List.mem_map.2 ⟨(q.name, u), hu, rfl⟩)
        exact (htaken q hq u hu).congr (hother q hq hne).symm rfl

end Storage

/-! ### What a snapshot gives afterwards -/

namespace Value

theorem keys_mapEntryLeaves (f : ValueKind → Value → Value) (s : Schema)
    (entries : List (String × Value)) :
    (mapEntryLeaves f s entries).map Prod.fst = entries.map Prod.fst := by
  rw [mapEntryLeaves_eq_map, List.map_map]
  rfl

theorem EntriesFill.exists_primary {s : Schema} {entries : List (String × Value)}
    (h : EntriesFill s entries) (f : ValueKind → Value → Value) :
    ∀ e ∈ mapEntryLeaves f s entries, ∃ p ∈ s.primaries, p.name = e.1 := by
  intro e he
  rw [mapEntryLeaves_eq_map] at he
  obtain ⟨d, hd, rfl⟩ := List.mem_map.1 he
  obtain ⟨p, hp, hname, -⟩ := entriesFill_iff.1 h d hd
  exact ⟨p, hp, hname⟩

/-- The value under the name of a primary has its leaves replaced. -/
theorem mem_mapEntryLeaves {f : ValueKind → Value → Value} {s : Schema} (hs : s.Sound)
    {p : Primary (Component Schema)} (hp : p ∈ s.primaries) {v : Value}
    {entries : List (String × Value)} (h : (p.name, v) ∈ entries) :
    (p.name, mapLeaves f p.target v) ∈ mapEntryLeaves f s entries := by
  rw [mapEntryLeaves_eq_map]
  refine List.mem_map.2 ⟨_, h, ?_⟩
  rw [Schema.resolve?, hs.here.resolve?_name hp]
  rfl

end Value

namespace Model

/-- A primary that has taken in what another instance gave for it, with the leaves replaced, gives
just that, if nested instances do. -/
theorem gives_of_takes {f : ValueKind → Value → Value} {w : Workspace} {m n : Model}
    {call : Settings} (hsettings : n.settings = m.settings) {p : Primary (Component Schema)}
    {v : Value} (hv : m.gives w none call p = .ok v) {slots : List Slot}
    (htakes : Storage.Takes p (v.mapLeaves f p.target) slots n.slots)
    (hnested : ∀ t, p.target.schema? = some t → ∀ st after,
      (ofSlots t (Storage.inner t m.slots p.slot)).snapshot? w none (call.overlay m.settings) =
        .ok st →
      Storage.load t (.map (Value.mapEntryLeaves f t st.toDict.toList))
        (Storage.inner t slots p.slot) = .ok () after →
      (ofSlots t after).snapshot? w none (call.overlay m.settings) = .ok (st.mapLeaves f t)) :
    n.gives w none call p = .ok (v.mapLeaves f p.target) := by
  cases ht : p.target.schema? with
  | none =>
    rw [gives_of_leaf ht, htakes.1 ht]
    rfl
  | some t =>
    obtain ⟨st, hst, rfl⟩ := exists_snapshot_of_gives ht hv
    -- The map that was loaded is that of the nested snapshot, so its own snapshot is known.
    have hload := htakes.2 t ht
    rw [State.toValue, Value.mapLeaves_of_model f ht] at hload ⊢
    rw [gives_of_model ht, hsettings, hnested t ht st _ hst hload, ← State.toDict_mapLeaves]
    rfl

/-- **A snapshot is loaded**, whatever its leaves were replaced by on the way and whatever was stored
before: each primary that it names takes in its value, and the others keep what they have. -/
theorem exists_load_takes (f : ValueKind → Value → Value) {w : Workspace} {m : Model}
    {call : Settings} {st : State} (hs : m.schema.Sound) (h : m.snapshot? w none call = .ok st)
    {slots : List Slot} (hfits : Storage.Fits m.schema slots) :
    ∃ after,
      Storage.load m.schema (.map (Value.mapEntryLeaves f m.schema st.toDict.toList)) slots =
        .ok () after ∧
      (∀ p ∈ m.schema.primaries, p.name ∉ st.keys → after[p.slot]? = slots[p.slot]?) ∧
      ∀ p ∈ m.schema.primaries, ∀ v, (p.name, v) ∈ st.toList →
        Storage.Takes p (v.mapLeaves f p.target) slots after := by
  have hfill := entriesFill_of_snapshot hs h
  have hcheck := Value.checkEntries_mapEntryLeaves f hs _ hfill
  have hkeys := nodup_keys_of_snapshot hs.here.nodup_names h
  have hnames := Value.keys_mapEntryLeaves f m.schema st.toDict.toList
  obtain ⟨after, hafter, hkept, htaken⟩ :=
    Storage.exists_putEntries hs (hnames ▸ st.toDict.sorted.nodup_keys) (hfill.exists_primary f)
      hcheck hfits.length_eq
  refine ⟨after, ?_, fun p hp hname => hkept p hp fun hmem => hname ?_, fun p hp v hv => ?_⟩
  · rw [Storage.load, Storage.guarded_of_ok hcheck, hafter]
  · rw [hnames] at hmem
    obtain ⟨e, he, hname⟩ := List.mem_map.1 hmem
    exact List.mem_map.2 ⟨e, Entries.mem_of_mem_ofList he, hname⟩
  · exact htaken p hp _ (Value.mem_mapEntryLeaves hs hp (Entries.mem_ofList hkeys hv))

/-- **What is loaded from a snapshot is what the snapshot gives afterwards**, at every depth. -/
theorem exists_load_of_snapshot (f : ValueKind → Value → Value) {w : Workspace} {m : Model}
    {call : Settings} {st : State} (hs : m.schema.Sound) (h : m.snapshot? w none call = .ok st)
    {slots : List Slot} (hfits : Storage.Fits m.schema slots) :
    ∃ after,
      Storage.load m.schema (.map (Value.mapEntryLeaves f m.schema st.toDict.toList)) slots =
        .ok () after ∧
      ∀ n : Model, n.schema = m.schema → n.settings = m.settings → n.slots = after →
        n.snapshot? w none call = .ok (st.mapLeaves f m.schema) := by
  induction m, hs using nested_induction generalizing call st slots with
  | step m hs ih =>
    have hentries := (snapshot?_eq_ok hs.here.nodup_names).1 h
    obtain ⟨after, hafter, -, htaken⟩ := exists_load_takes f hs h hfits
    refine ⟨after, hafter, fun n hschema hsettings hslots => ?_⟩
    -- The same primaries take part, so the entries can be compared one by one.
    refine (snapshot?_eq_ok (hschema ▸ hs.here.nodup_names)).2 ?_
    rw [admits_congr hschema hsettings, hschema, State.mapLeaves, Value.mapEntryLeaves_eq_map,
      List.forall₂_map_right_iff]
    refine List.forall₂_iff_zip.2 ⟨hentries.length_eq, fun {p e} hmem => ?_⟩
    obtain ⟨hname, hgives⟩ := (List.forall₂_iff_zip.1 hentries).2 hmem
    obtain ⟨hp, he⟩ := List.of_mem_zip hmem
    have hp := (List.mem_filter.1 hp).1
    obtain ⟨name, v⟩ := e
    obtain rfl : name = p.name := hname
    have hresolve : m.schema.resolve? p.name = some p := hs.here.resolve?_name hp
    refine ⟨rfl, ?_⟩
    rw [hresolve, Option.elim_some]
    refine gives_of_takes hsettings hgives (hslots ▸ htaken p hp v he)
      fun t ht inner mid hinner hload => ?_
    -- The nested storage is the one that the induction hypothesis speaks of.
    obtain ⟨mid', hmid', hsnapshot⟩ := ih p hp t ht _ hinner (hfits.nested hp ht)
    obtain rfl : mid' = mid := by
      have hboth := hmid'.symm.trans hload
      cases hboth
      rfl
    exact hsnapshot (ofSlots t mid') rfl rfl rfl

end Model

end VersionedModel
