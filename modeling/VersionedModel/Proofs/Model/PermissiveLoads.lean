import VersionedModel.Proofs.Model.Places
import VersionedModel.Proofs.Model.Rearranging

/-!
# Loads that leave things out

A load leaves out what the schema does not know: entries whose names are not bound, and items beyond
the primaries, in the payload and, at any depth, in what it gives to nested models
(`Storage.Deletion`). A payload without such parts is loaded with the same result, be it a model or
an error (`Storage.Deletion.load_eq`). And a load changes no leaf but those that it addresses
(`Storage.spares_of_not_addresses`).
-/

namespace VersionedModel

namespace Storage

open Relation (ReflTransGen)

/-! ### What is left out -/

/-- The second value is the first one without one thing that is not known: an entry whose name is
not bound, or an item beyond the primaries; or without such a thing in what is given to a nested
model. -/
inductive Deletion : Schema → Value → Value → Prop
  | entry {s : Schema} {name : String} {v : Value} (before after : List (String × Value))
      (unbound : s.binds name = false) :
      Deletion s (.map (before ++ (name, v) :: after)) (.map (before ++ after))
  | item {s : Schema} {v : Value} (before after : List Value)
      (beyond : s.primaries.length ≤ before.length) :
      Deletion s (.array (before ++ v :: after)) (.array (before ++ after))
  | inEntry {s t : Schema} {name : String} {v v' : Value} (before after : List (String × Value))
      (nested : nested? s name = some t) (rest : Deletion t v v') :
      Deletion s (.map (before ++ (name, v) :: after)) (.map (before ++ (name, v') :: after))
  | inItem {s t : Schema} {p : Primary (Component Schema)} {v v' : Value}
      (before after : List Value) (position : s.primaries[before.length]? = some p)
      (nested : p.target.schema? = some t) (rest : Deletion t v v') :
      Deletion s (.array (before ++ v :: after)) (.array (before ++ v' :: after))

/-! ### Values as entries -/

/-- The entries that a value is loaded as: its own, or its items under the names of the
primaries. -/
def given (s : Schema) : Value → List (String × Value)
  | .array items => (names s).zip items
  | .map entries => entries
  | _ => []

theorem writes_eq_map_given {s : Schema} (hs : s.Sound) (v : Value) :
    writes s v = (given s v).map fun e => (s.resolve? e.1).map fun p => (p, e.2) := by
  cases v with
  | array items =>
    rw [writes, given, names, List.zip_map_left, List.map_map]
    refine List.map_congr_left fun e he => ?_
    have hresolve : s.resolve? e.1.name = some e.1 :=
      hs.here.resolve?_name (List.of_mem_zip he).1
    exact (congrArg (Option.map fun p => (p, e.2)) hresolve).symm
  | _ => rfl

/-- Entries that can take each other's place: they are checked alike and written alike. -/
structure Interchangeable (s : Schema) (es fs : List (String × Value)) : Prop where
  /-- The checks. -/
  check_eq : checkEntries s fs = checkEntries s es
  /-- The writes. -/
  put_eq : putEntries s fs = putEntries s es

section Interchangeable

variable {s t : Schema} {es fs : List (String × Value)}

theorem Interchangeable.append (h : Interchangeable s es fs) (before : List (String × Value)) :
    Interchangeable s (before ++ es) (before ++ fs) := by
  induction before with
  | nil => exact h
  | cons e before ih =>
    refine ⟨?_, ?_⟩
    · rw [List.cons_append, List.cons_append, checkEntries_cons, checkEntries_cons, ih.check_eq]
    · rw [List.cons_append, List.cons_append, putEntries, putEntries, ih.put_eq]

/-- An entry whose name is not bound passes its check and is not written. -/
theorem interchangeable_of_unbound {name : String} (h : s.binds name = false) (v : Value)
    (es : List (String × Value)) : Interchangeable s ((name, v) :: es) es := by
  have hb : ¬s.binds name = true := by simp [h]
  have hresolve : s.resolve? name = none := Bindings.resolve?_of_not_contains hb
  refine ⟨?_, funext fun slots => (putEntries_cons_of_not_binds hb).symm⟩
  rw [checkEntries_cons, checkAt_eq_checkGiven, hresolve]
  rfl

/-- What is given to a nested model may be anything that is checked and loaded alike there. -/
theorem interchangeable_of_nested {name : String} (h : nested? s name = some t) {v v' : Value}
    (hcheck : check t v' = check t v) (hload : load t v' = load t v)
    (es : List (String × Value)) : Interchangeable s ((name, v) :: es) ((name, v') :: es) := by
  obtain ⟨p, hp, ht⟩ := Option.bind_eq_some_iff.1 h
  have hchange : change s name (some v') (fun t => load t v') =
      change s name (some v) (fun t => load t v) := by
    funext slots
    rw [change_of_model hp ht, change_of_model hp ht, hload]
  refine ⟨?_, ?_⟩
  · rw [checkEntries_cons, checkEntries_cons, checkAt_of_nested hp ht, checkAt_of_nested hp ht,
      hcheck]
  · rw [putEntries, putEntries, hchange]

theorem Interchangeable.loadPayload_eq (h : Interchangeable s es fs) :
    loadPayload s (.mapping fs) = loadPayload s (.mapping es) := by
  rw [loadPayload, loadPayload, checkPayload, checkPayload, putPayload, putPayload, h.check_eq,
    h.put_eq]

theorem Interchangeable.of_map (h : Interchangeable s es fs) :
    check s (.map fs) = check s (.map es) ∧ load s (.map fs) = load s (.map es) := by
  rw [check, check, load_map, load_map]
  exact ⟨h.check_eq, h.loadPayload_eq⟩

theorem Interchangeable.of_array {items items' : List Value}
    (h : Interchangeable s ((names s).zip items) ((names s).zip items')) :
    check s (.array items') = check s (.array items) ∧
      load s (.array items') = load s (.array items) := by
  rw [check, check, checkItems_eq_checkEntries, checkItems_eq_checkEntries, load_array, load_array,
    loadPayload_sequence, loadPayload_sequence]
  exact ⟨h.check_eq, h.loadPayload_eq⟩

end Interchangeable

/-! ### Loads without what is left out -/

/-- Items beyond the names get none. -/
theorem zip_append_of_length_le {ns : List String} {items : List Value}
    (h : ns.length ≤ items.length) (rest : List Value) : ns.zip (items ++ rest) = ns.zip items := by
  induction ns generalizing items with
  | nil => rfl
  | cons n ns ih =>
    cases items with
    | nil => cases h
    | cons v items =>
      rw [List.cons_append, List.zip_cons_cons, List.zip_cons_cons, ih (Nat.le_of_succ_le_succ h)]

/-- The item at a position goes to the name at that position. -/
theorem zip_append_cons {ns : List String} {name : String} {before : List Value}
    (h : ns[before.length]? = some name) (v : Value) (after : List Value) :
    ns.zip (before ++ v :: after) =
      ns.zip before ++ (name, v) :: (ns.drop (before.length + 1)).zip after := by
  induction before generalizing ns with
  | nil =>
    cases ns with
    | nil => cases h
    | cons n ns =>
      cases h
      rfl
  | cons x before ih =>
    cases ns with
    | nil => cases h
    | cons n ns =>
      rw [List.cons_append, List.zip_cons_cons, ih h]
      rfl

/-- **One thing that is not known makes no difference** to the check and to the load, whatever is
stored. -/
theorem Deletion.load_eq {s : Schema} (hs : s.Sound) {v v' : Value} (h : Deletion s v v') :
    check s v' = check s v ∧ load s v' = load s v := by
  induction h with
  | entry before after unbound =>
    exact ((interchangeable_of_unbound unbound _ after).append before).of_map
  | @item s v before after beyond =>
    have hlength : (names s).length ≤ before.length := by rwa [names, List.length_map]
    refine Interchangeable.of_array ?_
    rw [zip_append_of_length_le hlength, zip_append_of_length_le hlength]
    exact ⟨rfl, rfl⟩
  | inEntry before after nested rest ih =>
    obtain ⟨p, hp, ht⟩ := Option.bind_eq_some_iff.1 nested
    obtain ⟨hcheck, hload⟩ := ih (hs.nested (Schema.mem_of_resolve? hp) ht)
    exact ((interchangeable_of_nested nested hcheck hload after).append before).of_map
  | @inItem s t p v v' before after position nested rest ih =>
    have hp := List.mem_of_getElem? position
    obtain ⟨hcheck, hload⟩ := ih (hs.nested hp nested)
    have hname : (names s)[before.length]? = some p.name := by
      rw [names, List.getElem?_map, position, Option.map_some]
    have hresolve : s.resolve? p.name = some p := hs.here.resolve?_name hp
    have hnested : nested? s p.name = some t := by rw [nested?, hresolve, Option.bind_some, nested]
    refine Interchangeable.of_array ?_
    rw [zip_append_cons hname, zip_append_cons hname]
    exact (interchangeable_of_nested hnested hcheck hload _).append _

/-- **Whatever is not known may be deleted**, again and again, at any depth. -/
theorem load_eq_of_deletions {s : Schema} (hs : s.Sound) {v v' : Value}
    (h : ReflTransGen (Deletion s) v v') : load s v' = load s v := by
  induction h with
  | refl => rfl
  | tail _ hstep ih => exact (hstep.load_eq hs).2.trans ih

/-- What is left of a payload is a payload. -/
theorem exists_asValue_of_deletions {s : Schema} {p : Payload} {v : Value}
    (h : ReflTransGen (Deletion s) p.asValue v) : ∃ p' : Payload, p'.asValue = v := by
  induction h with
  | refl => exact ⟨p, rfl⟩
  | tail _ hstep _ =>
    cases hstep with
    | entry | inEntry => exact ⟨.mapping _, rfl⟩
    | item | inItem => exact ⟨.sequence _, rfl⟩

theorem load_asValue (s : Schema) (p : Payload) : load s p.asValue = loadPayload s p := by
  cases p with
  | sequence items => exact load_array s items
  | mapping entries => exact load_map s entries

/-! ### What a load addresses -/

/-- The value gives something to the leaf at the place, by position or by a name that is bound, at
every depth. -/
inductive Addresses : Schema → Value → List Nat → Prop
  | leaf {s : Schema} {v x : Value} {p : Primary (Component Schema)}
      (given : some (p, x) ∈ writes s v) : Addresses s v [p.slot]
  | nested {s t : Schema} {v x : Value} {p : Primary (Component Schema)} {place : List Nat}
      (given : some (p, x) ∈ writes s v) (kind : p.target.schema? = some t)
      (rest : Addresses t x place) : Addresses s v (p.slot :: place)

/-- Where a place is addressed, something is given to the first primary on the way. -/
theorem Addresses.exists_writes {s : Schema} {v : Value} {i : Nat} {place : List Nat}
    (h : Addresses s v (i :: place)) : ∃ p x, some (p, x) ∈ writes s v ∧ p.slot = i := by
  cases h with
  | leaf given | nested given => exact ⟨_, _, given, rfl⟩

/-- A load that succeeds writes the entries of the value one after the other. -/
theorem eq_foldl_put_of_load {s : Schema} (hs : s.Sound) {v : Value} {slots after : List Slot}
    (h : load s v slots = .ok () after) : after = (given s v).foldl (put s) slots := by
  cases v with
  | array items =>
    rw [load_array, loadPayload_sequence] at h
    exact ((loadPayload_mapping_eq_ok_iff hs).1 h).2
  | map entries =>
    rw [load_map] at h
    exact ((loadPayload_mapping_eq_ok_iff hs).1 h).2
  | _ => cases h

/-- Whatever is stored, a load of the value leaves what is stored at the place. -/
def Spares (s : Schema) (v : Value) (place : List Nat) : Prop :=
  ∀ slots, storedAt? (Outcome.left (load s v) slots) place = storedAt? slots place

/-- An entry leaves what is stored at the place of a leaf if it does not go to this leaf, and if a
nested model that it goes to is given what leaves the rest of the place. -/
theorem storedAt?_put {s : Schema} (hs : s.Sound) {names : List String} {place : List Nat}
    {q : Primary (Component Schema)} (h : s.LeafAt names place q) {e : String × Value}
    (hleaf : ∀ p, s.resolve? e.1 = some p → place ≠ [p.slot])
    (hnested : ∀ p t names rest, s.resolve? e.1 = some p → p.target.schema? = some t →
      t.LeafAt names rest q → place = p.slot :: rest → Spares t e.2 rest)
    (slots : List Slot) : storedAt? (put s slots e) place = storedAt? slots place := by
  cases hp : s.resolve? e.1 with
  | none => rw [put_of_unbound hp]
  | some p =>
    rw [put_of_resolve? hp]
    cases h with
    | leaf resolve kind =>
      exact storedAt?_set_of_ne (fun hslot => hleaf p hp (by rw [hslot])) _
    | @nested _ t name p' q names rest resolve kind hrest =>
      by_cases hslot : p.slot = p'.slot
      · obtain rfl :=
          hs.here.eq_of_slot_eq (Schema.mem_of_resolve? hp) (Schema.mem_of_resolve? resolve) hslot
        have hspares := hnested p t names rest hp kind hrest rfl
        rw [taken_of_model kind]
        by_cases hlt : p.slot < slots.length
        · rw [storedAt?_set_opened hlt hrest.place_ne_nil, hspares,
            ← storedAt?_cons t hrest.place_ne_nil]
        · -- A slot that is not there cannot be written.
          rw [List.set_eq_of_length_le (Nat.not_lt.1 hlt)]
      · exact storedAt?_set_of_ne hslot _

/-- **A load changes no leaf that it does not address**, at any depth. The induction is on the
value. -/
theorem spares_of_not_addresses {s : Schema} (hs : s.Sound) {names : List String}
    {place : List Nat} {q : Primary (Component Schema)} (h : s.LeafAt names place q) {v : Value}
    (hplace : ¬Addresses s v place) : Spares s v place := by
  induction hsize : sizeOf v using Nat.strongRecOn generalizing s v names place with
  | ind n ih =>
    subst hsize
    intro slots
    rw [Outcome.left]
    cases hload : load s v slots with
    | error e after => rw [((load_eq_error_iff hs).1 hload).2]
    | ok u after =>
      dsimp only
      rw [eq_foldl_put_of_load hs hload]
      -- Each entry in turn leaves the place alone.
      refine List.foldlRecOn (given s v) (put s)
        (motive := fun a => storedAt? a place = storedAt? slots place) rfl fun a ha e he => ?_
      have hgiven : ∀ p, s.resolve? e.1 = some p → some (p, e.2) ∈ writes s v := fun p hp => by
        rw [writes_eq_map_given hs]
        exact List.mem_map.2 ⟨e, he, by rw [hp, Option.map_some]⟩
      refine (storedAt?_put hs h (fun p hp heq => ?_) (fun p t names rest hp ht hrest heq => ?_)
        a).trans ha
      · exact hplace (heq ▸ .leaf (hgiven p hp))
      · obtain ⟨i, hi⟩ := List.mem_iff_getElem?.1 (hgiven p hp)
        exact ih _ (sizeOf_lt_of_writes hi) (hs.nested (Schema.mem_of_resolve? hp) ht) hrest
          (fun haddr => hplace (heq ▸ .nested (hgiven p hp) ht haddr)) rfl

end Storage

namespace Model

open Schema (Compiled Everywhere)

/-- **Loads leave out what they do not know.** A payload without entries whose names are not bound
and items beyond the primaries, at any depth, is loaded with the same result: the same model, or the
same error. And whatever is loaded, every leaf that the payload does not address by a name that is
bound, or by position, reads as before. -/
theorem setState_of_deletions {m : Model} (hcompiled : Everywhere Compiled m.schema) :
    (∀ (p : Payload) v, Relation.ReflTransGen (Storage.Deletion m.schema) p.asValue v →
      ∃ p' : Payload, p'.asValue = v ∧ setState p' m = setState p m) ∧
      ∀ (p : Payload) m', setState p m = .ok () m' →
        ∀ names place q, m.schema.LeafAt names place q →
          ¬Storage.Addresses m.schema p.asValue place → m'.readAt names = m.readAt names := by
  have hs := Schema.sound_of_compiled hcompiled
  refine ⟨fun p v h => ?_, fun p m' h names place q hleaf hplace => ?_⟩
  · obtain ⟨p', rfl⟩ := Storage.exists_asValue_of_deletions h
    refine ⟨p', rfl, ?_⟩
    rw [setState, setState, changing, changing, ← Storage.load_asValue, ← Storage.load_asValue,
      Storage.load_eq_of_deletions hs h]
  · have hkept := Storage.spares_of_not_addresses hs hleaf hplace m.slots
    rw [setState, changing, ← Storage.load_asValue] at h
    rw [Outcome.left] at hkept
    cases hload : Storage.load m.schema p.asValue m.slots with
    | error e after =>
      rw [hload] at h
      cases h
    | ok u after =>
      rw [hload] at h hkept
      cases h
      exact readAt_congr hleaf hkept

open Schema.Sample (shipment leafAt_number) in
/-- A new label for the parcel of a shipment, under aliases, with a colour and a note that nobody
knows: these make no difference, and the number of the shipment stays. -/
theorem setState_of_deletions_of_shipped :
    Everywhere Compiled shipped.schema ∧
      Relation.ReflTransGen (Storage.Deletion shipment)
        (Payload.asValue (.mapping [("content", .map [("colour", .null), ("tag", .bytes [3])]),
          ("note", .integer 1)]))
        (.map [("content", .map [("tag", .bytes [3])])]) ∧
      ∃ p' m', Payload.asValue p' = .map [("content", .map [("tag", .bytes [3])])] ∧
        setState p' shipped = .ok () m' ∧
        setState (.mapping [("content", .map [("colour", .null), ("tag", .bytes [3])]),
          ("note", .integer 1)]) shipped = .ok () m' ∧
        m'.readAt ["number"] = .ok (.value (.string "A1")) := by
  have hs : Everywhere Compiled shipped.schema := Schema.Sample.compiled_shipment
  obtain ⟨hdelete, hframe⟩ := setState_of_deletions hs
  have hdeletions : Relation.ReflTransGen (Storage.Deletion shipment)
      (Payload.asValue (.mapping [("content", .map [("colour", .null), ("tag", .bytes [3])]),
        ("note", .integer 1)]))
      (.map [("content", .map [("tag", .bytes [3])])]) :=
    .tail (.single (.entry [_] [] rfl)) (.inEntry [] [] rfl (.entry [] [_] rfl))
  obtain ⟨p', hp', heq⟩ := hdelete _ _ hdeletions
  have hload : setState (.mapping [("content", .map [("colour", .null), ("tag", .bytes [3])]),
      ("note", .integer 1)]) shipped =
        .ok () { shipped with
          slots := [.leaf (some (.string "A1")),
            .opened [.leaf none, .leaf (some (.bytes [3]))]] } := rfl
  -- Only the parcel is addressed, which is in slot 1.
  refine ⟨hs, hdeletions, p', _, hp', heq.trans hload, hload,
    hframe _ _ hload _ _ _ leafAt_number fun h => ?_⟩
  obtain ⟨p, x, hgiven, hslot⟩ := h.exists_writes
  rcases List.mem_cons.1 hgiven with hparcel | hnote
  · cases hparcel
    cases hslot
  · cases List.mem_singleton.1 hnote

end Model

end VersionedModel
