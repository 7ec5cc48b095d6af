import VersionedModel.Proofs.Codec.Payloads

/-!
# Aliases as keys

An object may have a field's value under an alias instead of the primary's name. The model takes it
under either key, but the serializer knows the field's kind under the primary's name only; so a
value that this kind would have changed stays as it came. The two objects are loaded alike exactly
if there is nothing to change (`Model.load_alias_key_eq_iff`): the field does not take part, and so
its kind is not known at all, or the value is not one that is fitted to the kind.
-/

namespace VersionedModel

open Schema (Everywhere Compiled Kept)
open Schema.Compilation (Built)

namespace Storage

/-- What goes to a leaf is never a misfit, and if nothing else goes there it can be written last. -/
theorem loadPayload_mapping_leaf {s : Schema} (hs : s.Sound) {p : Primary (Component Schema)}
    (hk : p.target.schema? = none) {e : String × Value} (he : s.resolve? e.1 = some p)
    {fs gs : List (String × Value)} (h : ∀ f ∈ fs ++ gs, s.resolve? f.1 ≠ some p)
    (slots : List Slot) :
    ((∀ f ∈ fs ++ gs, checkAt s f.1 f.2 = .ok ()) →
        loadPayload s (.mapping (fs ++ e :: gs)) slots =
          .ok () (((fs ++ gs).foldl (put s) slots).set p.slot (.leaf (some e.2)))) ∧
      ((∃ f ∈ fs ++ gs, checkAt s f.1 f.2 ≠ .ok ()) →
        ∃ err, loadPayload s (.mapping (fs ++ e :: gs)) slots = .error err slots) := by
  have hcheck : checkAt s e.1 e.2 = .ok () := checkAt_of_leaf he hk e.2
  have hlast : ∀ g ∈ gs, Apart s e g := fun g hg q hq hq' =>
    h g (List.mem_append_right fs hg) (hq'.trans (hq.symm.trans he))
  have hperm : (fs ++ e :: gs).Perm (e :: (fs ++ gs)) := List.perm_middle
  obtain ⟨hok, herror⟩ := loadPayload_mapping hs (fs ++ e :: gs) slots
  refine ⟨fun hrest => ?_, fun ⟨f, hf, hne⟩ => ?_⟩
  · rw [hok, foldl_put_append_cons hs hlast, put_of_resolve? he, taken_of_leaf hk]
    intro f hf
    rcases List.mem_cons.1 (hperm.mem_iff.1 hf) with rfl | hf
    · exact hcheck
    · exact hrest f hf
  · exact herror ⟨f, hperm.mem_iff.2 (List.mem_cons_of_mem e hf), hne⟩

end Storage

namespace Model

section AliasKeys

variable {w : Workspace} {m : Model} {call : Settings} {p : Primary (Component Schema)}

/-- Under the primary's name a leaf's value is fitted to its kind, if the leaf takes part. -/
theorem restoreNamed_name (hs : Schema.Exact w m.schema) (hp : p ∈ m.schema.primaries)
    {k : ValueKind} (hk : p.target.kind = .leaf k) (v : Value) :
    Shape.restoreNamed (m.shapes w call) p.name v =
      if m.admits w call p = true then v.coerce k else v := by
  rw [Shape.restoreNamed, named?_shapes hs call hp]
  split
  · rw [Option.elim_some, Shape.ofComponent, hk]
    dsimp only
    rw [Shape.restore]
  · rfl

/-- Under an alias it is not. -/
theorem restoreNamed_alias (hs : Schema.Exact w m.schema) (hp : p ∈ m.schema.primaries)
    {a : String} (ha : .aliasOf a p.name ∈ m.schema.bindings) (v : Value) :
    Shape.restoreNamed (m.shapes w call) a v = v := by
  have hname : a ∉ Storage.names m.schema := fun hmem => by
    obtain ⟨q, hq, rfl⟩ := List.mem_map.1 hmem
    have hresolve := hs.wellFormed.resolve?_alias hp ha
    rw [hs.wellFormed.resolve?_name hq] at hresolve
    cases hresolve
    exact hs.wellFormed.ne_of_alias hp ha rfl
  rw [Shape.restoreNamed, named?_shapes_of_not_mem hs call hname]
  rfl

/-- Loading a leaf's value under two names, perhaps in two forms, with the rest the same, differs in
that leaf or in nothing. -/
theorem exists_setState_leaf (hs : m.schema.Sound) (hk : p.target.schema? = none)
    {fs gs fs' gs' : List (String × Value)} (hrest : fs ++ gs = fs' ++ gs')
    (h : ∀ f ∈ fs ++ gs, m.schema.resolve? f.1 ≠ some p) {name name' : String}
    (hname : m.schema.resolve? name = some p) (hname' : m.schema.resolve? name' = some p)
    (v v' : Value) :
    (∃ e e', setState (.mapping (fs ++ (name, v) :: gs)) m = .error e m ∧
        setState (.mapping (fs' ++ (name', v') :: gs')) m = .error e' m) ∨
      ∃ mid : List Slot, mid.length = m.slots.length ∧
        setState (.mapping (fs ++ (name, v) :: gs)) m =
          .ok () { m with slots := mid.set p.slot (.leaf (some v)) } ∧
        setState (.mapping (fs' ++ (name', v') :: gs')) m =
          .ok () { m with slots := mid.set p.slot (.leaf (some v')) } := by
  obtain ⟨hok, herror⟩ :=
    Storage.loadPayload_mapping_leaf hs hk (e := (name, v)) hname h m.slots
  obtain ⟨hok', herror'⟩ :=
    Storage.loadPayload_mapping_leaf hs hk (e := (name', v')) hname' (hrest ▸ h) m.slots
  rw [← hrest] at hok' herror'
  simp only [setState, changing]
  by_cases hcheck : ∀ f ∈ fs ++ gs, Storage.checkAt m.schema f.1 f.2 = .ok ()
  · rw [hok hcheck, hok' hcheck]
    exact .inr ⟨_, Storage.length_foldl_put _ _, rfl, rfl⟩
  · simp only [not_forall, exists_prop] at hcheck
    obtain ⟨e, he⟩ := herror hcheck
    obtain ⟨e', he'⟩ := herror' hcheck
    rw [he, he']
    exact .inl ⟨e, e', rfl, rfl⟩

theorem slots_set_leaf_eq_iff {mid : List Slot} {i : Nat} (h : i < mid.length) {v v' : Value} :
    { m with slots := mid.set i (.leaf (some v)) } =
      { m with slots := mid.set i (.leaf (some v')) } ↔ v = v' := by
  refine ⟨fun heq => ?_, fun heq => by rw [heq]⟩
  have hslot := congrArg (fun n : Model => Storage.stored? n.slots i) heq
  simpa [Storage.stored?, h] using hslot

/-- **An object that has a leaf's value under an alias is loaded like the one that has it under the
primary's name exactly if the value is not fitted to the leaf's kind**: the leaf does not take part,
or its kind leaves the value as it is. No other key of the object is bound to the leaf. Either both
loads fail, for another reason and without a trace, or both succeed. -/
theorem load_alias_key_eq_iff (hcompiled : Everywhere Compiled m.schema)
    (hkept : Kept Built w m.schema) (hm : m.Reachable) (hp : p ∈ m.schema.primaries)
    {k : ValueKind} (hk : p.target.kind = .leaf k) {a : String}
    (ha : .aliasOf a p.name ∈ m.schema.bindings) {ms : List (String × Json)} {j : Json}
    (hj : Entries.get? p.name ms = some j)
    (halone : ∀ e ∈ ms, m.schema.resolve? e.1 = some p → e.1 = p.name)
    {named renamed : List UInt8} (hnamed : m.Carries call named (.object ms))
    (hrenamed : m.Carries call renamed
      (.object (Entries.insert a j (Entries.erase p.name ms)))) :
    (∃ e e', m.load w plainJson named call = .error e m ∧
        m.load w plainJson renamed call = .error e' m) ∨
      ∃ n n', m.load w plainJson named call = .ok () n ∧
        m.load w plainJson renamed call = .ok () n' ∧
        (n = n' ↔ (m.admits w call p = true → (Value.ofJson j).coerce k = .ofJson j)) := by
  have hs := Schema.sound_of_compiled hcompiled
  have hexact := hkept.exact_of_built
  have hleaf : p.target.schema? = none := Component.schema?_eq_none_iff.2 ⟨k, hk⟩
  have hname : m.schema.resolve? p.name = some p := hs.here.resolve?_name hp
  have halias : m.schema.resolve? a = some p := hs.here.resolve?_alias hp ha
  -- Nothing else in the object is bound to the leaf, so the alias is not there, either.
  have hother : ∀ e ∈ Entries.erase p.name ms, m.schema.resolve? e.1 ≠ some p := fun e he hr =>
    (Entries.mem_erase.1 he).2 (halone e (Entries.mem_erase.1 he).1 hr)
  have hnew : a ∉ (Entries.erase p.name ms).map Prod.fst := fun hmem => by
    obtain ⟨e, he, rfl⟩ := List.mem_map.1 hmem
    exact hother e he halias
  obtain ⟨fs, gs, hms, herase⟩ := Entries.exists_split_erase hnamed.sorted.nodup_keys hj
  obtain ⟨fs', gs', herase', hinsert⟩ := Entries.exists_split_insert hnew j
  -- Both objects are fitted to shapes member by member, so they have the same rest.
  have hrest : m.restoredMembers w call fs ++ m.restoredMembers w call gs =
      m.restoredMembers w call fs' ++ m.restoredMembers w call gs' := by
    rw [← restoredMembers_append, ← restoredMembers_append, ← herase, ← herase']
  have hfree : ∀ f ∈ m.restoredMembers w call fs ++ m.restoredMembers w call gs,
      m.schema.resolve? f.1 ≠ some p := by
    rw [← restoredMembers_append, ← herase]
    exact List.forall_mem_map.2 fun e he => hother e he
  rw [load_object hnamed, load_object hrenamed, hinsert, hms, restoredMembers_append,
    restoredMembers_append, restoredMembers_cons, restoredMembers_cons]
  rcases exists_setState_leaf hs hleaf hrest hfree hname halias
      (Shape.restoreNamed (m.shapes w call) p.name (.ofJson j))
      (Shape.restoreNamed (m.shapes w call) a (.ofJson j)) with
    hfail | ⟨mid, hlen, hload, hload'⟩
  · exact .inl hfail
  · have hlt : p.slot < mid.length := hlen ▸ (hm.fits hs).slot_lt hs hp
    refine .inr ⟨_, _, hload, hload', ?_⟩
    rw [slots_set_leaf_eq_iff hlt, restoreNamed_name hexact hp hk, restoreNamed_alias hexact hp ha]
    split
    · next hadmits => simp [hadmits]
    · next hadmits => simp [hadmits]

end AliasKeys

/-! ### A parcel with a label -/

open Schema.Sample

/-- The text of an object with one text. -/
def single (key text : String) : List UInt8 :=
  Json.bytesOf ((Json.object [(key, .string text)]).render .compact)

theorem carries_of_single {m : Model} {call : Settings}
    (he : (m.effective call).flag envelopeKey = false) (key text : String) :
    m.Carries call (single key text) (.object [(key, .string text)]) := by
  have hsendable : Json.Sendable (.object [(key, .string text)]) :=
    ⟨List.pairwise_singleton _ _, trivial, trivial⟩
  have hdepth : (Json.object [(key, .string text)]).depth = 1 := rfl
  exact carries_render hsendable (by rw [hdepth]; decide) he .compact

theorem carries_single (key text : String) :
    (new parcel).Carries ∅ (single key text) (.object [(key, .string text)]) :=
  carries_of_single rfl key text

theorem reachable_parcel : (new parcel).Reachable :=
  ⟨parcel, .none, new parcel, rfl, .refl⟩

/-- A label that is no base64 is taken as it is, under either key. -/
theorem load_alias_key_eq_of_parcel :
    Everywhere Compiled (new parcel).schema ∧ Kept Built depot (new parcel).schema ∧
      (new parcel).Reachable ∧
      (⟨"label", 1, label⟩ : Primary (Component Schema)) ∈ (new parcel).schema.primaries ∧
      .aliasOf "tag" "label" ∈ (new parcel).schema.bindings ∧
      (new parcel).Carries ∅ (single "label" "fragile")
        (.object [("label", .string "fragile")]) ∧
      (new parcel).Carries ∅ (single "tag" "fragile") (.object [("tag", .string "fragile")]) ∧
      ∃ n, load depot plainJson (single "label" "fragile") ∅ (new parcel) = .ok () n ∧
        load depot plainJson (single "tag" "fragile") ∅ (new parcel) = .ok () n := by
  have hcompiled : Everywhere Compiled (new parcel).schema := compiled_parcel
  have hkept : Kept Built depot (new parcel).schema := kept_parcel
  have hnamed := carries_single "label" "fragile"
  have hrenamed := carries_single "tag" "fragile"
  refine ⟨hcompiled, hkept, reachable_parcel, label_mem, tag_mem, hnamed, hrenamed, ?_⟩
  rcases load_alias_key_eq_iff hcompiled hkept reachable_parcel label_mem (k := .bytes) rfl tag_mem
      rfl (fun e he _ => List.mem_singleton.1 he ▸ rfl) hnamed hrenamed with
    ⟨e, e', he, -⟩ | ⟨n, n', hn, hn', hiff⟩
  · rw [load_object hnamed] at he
    cases he
  · obtain rfl := hiff.2 fun _ => rfl
    exact ⟨n, hn, hn'⟩

/-- Bytes are decoded under the primary's name and not under the alias. -/
theorem load_alias_key_ne :
    Everywhere Compiled (new parcel).schema ∧ Kept Built depot (new parcel).schema ∧
      .aliasOf "tag" "label" ∈ (new parcel).schema.bindings ∧
      (new parcel).Carries ∅ (single "label" "AQI=") (.object [("label", .string "AQI=")]) ∧
      (new parcel).Carries ∅ (single "tag" "AQI=") (.object [("tag", .string "AQI=")]) ∧
      load depot plainJson (single "label" "AQI=") ∅ (new parcel) =
        .ok () { new parcel with slots := [.leaf none, .leaf (some (.bytes [1, 2]))] } ∧
      load depot plainJson (single "tag" "AQI=") ∅ (new parcel) =
        .ok () { new parcel with slots := [.leaf none, .leaf (some (.string "AQI="))] } ∧
      ¬Outcome.Alike (load depot plainJson (single "label" "AQI=") ∅)
        (load depot plainJson (single "tag" "AQI=") ∅) (new parcel) := by
  have hnamed := carries_single "label" "AQI="
  have hrenamed := carries_single "tag" "AQI="
  have hname : load depot plainJson (single "label" "AQI=") ∅ (new parcel) =
      .ok () { new parcel with slots := [.leaf none, .leaf (some (.bytes [1, 2]))] } := by
    rw [load_object hnamed]
    rfl
  have halias : load depot plainJson (single "tag" "AQI=") ∅ (new parcel) =
      .ok () { new parcel with slots := [.leaf none, .leaf (some (.string "AQI="))] } := by
    rw [load_object hrenamed]
    rfl
  exact ⟨compiled_parcel, kept_parcel, tag_mem, hnamed, hrenamed, hname, halias,
    Outcome.not_alike_of_ne hname halias fun h => by cases h⟩

end Model

end VersionedModel
