import VersionedModel.Proofs.Model.PermissiveLoads

/-!
# What a load leaves at a leaf

A value may give something to a leaf more than once: under the primary's name and under aliases, and
in several entries that go to the nested model that has the leaf. What it gives last is
`Storage.givenAt?`. After a load that succeeds the leaf holds this, or else what it held before
(`Storage.storedAt?_of_load`). Storages agree if they hold the same at the place of each leaf
(`Storage.agree_iff`). So two values that give something to the same leaves leave storages that
agree exactly if they give the same last to each of them (`Storage.agree_of_loads_iff`).
-/

namespace VersionedModel

namespace Storage

/-! ### What is given last -/

/-- What the value gives last to the leaf at the place, if it gives anything to it. -/
def givenAt? (s : Schema) (v : Value) : List Nat → Option Value
  | [] => none
  | i :: place => (given s v).reverse.findSome? fun e => (s.resolve? e.1).bind fun p =>
    if p.slot = i then
      p.target.schema?.elim (if place.isEmpty then some e.2 else none) fun t =>
        givenAt? t e.2 place
    else none

/-- What one entry gives last to the leaf at the place. -/
def handed? (s : Schema) (place : List Nat) (e : String × Value) : Option Value :=
  givenAt? s (.map [e]) place

section Handed

variable {s : Schema} {p : Primary (Component Schema)} {i : Nat} {place : List Nat}
  {e : String × Value}

theorem handed?_cons (s : Schema) (i : Nat) (place : List Nat) (e : String × Value) :
    handed? s (i :: place) e = (s.resolve? e.1).bind fun p =>
      if p.slot = i then
        p.target.schema?.elim (if place.isEmpty then some e.2 else none) fun t =>
          givenAt? t e.2 place
      else none := by
  rw [handed?, givenAt?, given, List.reverse_singleton, List.findSome?_singleton]

/-- The last entry that gives something counts. -/
theorem givenAt?_eq (s : Schema) (v : Value) (place : List Nat) :
    givenAt? s v place = (given s v).reverse.findSome? (handed? s place) := by
  cases place with
  | nil => exact (List.findSome?_eq_none_iff.2 fun _ _ => rfl).symm
  | cons i place =>
    rw [funext (handed?_cons s i place)]
    rfl

theorem handed?_of_unbound (hp : s.resolve? e.1 = none) : handed? s (i :: place) e = none := by
  rw [handed?_cons, hp, Option.bind_none]

theorem handed?_of_resolve? (hp : s.resolve? e.1 = some p) :
    handed? s (i :: place) e =
      if p.slot = i then
        p.target.schema?.elim (if place.isEmpty then some e.2 else none) fun t =>
          givenAt? t e.2 place
      else none := by
  rw [handed?_cons, hp, Option.bind_some]

theorem handed?_of_slot_ne (hp : s.resolve? e.1 = some p) (hi : p.slot ≠ i) :
    handed? s (i :: place) e = none := by
  rw [handed?_of_resolve? hp, if_neg hi]

theorem handed?_of_leaf (hp : s.resolve? e.1 = some p) (hk : p.target.schema? = none) :
    handed? s [p.slot] e = some e.2 := by
  rw [handed?_of_resolve? hp, if_pos rfl, hk]
  rfl

theorem handed?_of_leaf_of_ne_nil (hp : s.resolve? e.1 = some p) (hk : p.target.schema? = none)
    (hplace : place ≠ []) : handed? s (p.slot :: place) e = none := by
  rw [handed?_of_resolve? hp, if_pos rfl, hk]
  exact if_neg (by simpa using hplace)

theorem handed?_of_model {t : Schema} (hp : s.resolve? e.1 = some p)
    (ht : p.target.schema? = some t) : handed? s (p.slot :: place) e = givenAt? t e.2 place := by
  rw [handed?_of_resolve? hp, if_pos rfl, ht]
  rfl

end Handed

/-! ### What a load leaves -/

/-- Writing an entry keeps a storage fitting. -/
theorem Fits.put {s : Schema} {slots : List Slot} (h : Fits s slots) (hs : s.Sound)
    (e : String × Value) : Fits s (put s slots e) := by
  cases hp : s.resolve? e.1 with
  | none => rwa [put_of_unbound hp]
  | some p =>
    have hmem := Schema.mem_of_resolve? hp
    rw [put_of_resolve? hp]
    cases ht : p.target.schema? with
    | none =>
      rw [taken_of_leaf ht]
      exact h.set_leaf hs hmem ht _
    | some t =>
      rw [taken_of_model ht]
      exact h.set_opened hs hmem ht
        (compositional_keeps.load (hs.nested hmem ht) e.2 _ (h.nested hmem ht))

/-- A load that succeeds has passed all checks. -/
theorem checkAt_of_load {s : Schema} (hs : s.Sound) {v : Value} {slots after : List Slot}
    (h : load s v slots = .ok () after) : ∀ e ∈ given s v, checkAt s e.1 e.2 = .ok () := by
  cases v with
  | array items =>
    rw [load_array, loadPayload_sequence] at h
    exact ((loadPayload_mapping_eq_ok_iff hs).1 h).1
  | map entries =>
    rw [load_map] at h
    exact ((loadPayload_mapping_eq_ok_iff hs).1 h).1
  | _ => cases h

/-- A load that succeeds leaves at the place what the value gives last there, or what was stored
there before. -/
def Settles (s : Schema) (place : List Nat) : Prop :=
  ∀ v slots after, Fits s slots → load s v slots = .ok () after →
    storedAt? after place = (givenAt? s v place).or (storedAt? slots place)

/-- An entry that does not go to a primary gives nothing to the leaves there and leaves them. -/
theorem storedAt?_put_of_ne {s : Schema} (hs : s.Sound) {q : Primary (Component Schema)}
    (hq : q ∈ s.primaries) {e : String × Value} (he : s.resolve? e.1 ≠ some q)
    (slots : List Slot) (place : List Nat) :
    storedAt? (put s slots e) (q.slot :: place) =
      (handed? s (q.slot :: place) e).or (storedAt? slots (q.slot :: place)) := by
  cases hp : s.resolve? e.1 with
  | none =>
    rw [put_of_unbound hp, handed?_of_unbound hp]
    rfl
  | some p =>
    have hslot : p.slot ≠ q.slot := fun hslot =>
      he (hp.trans (congrArg some (hs.here.eq_of_slot_eq (Schema.mem_of_resolve? hp) hq hslot)))
    rw [put_of_resolve? hp, storedAt?_set_of_ne hslot, handed?_of_slot_ne hp hslot]
    rfl

/-- What each entry for a primary settles, a load settles. -/
theorem settles_of_put {s : Schema} (hs : s.Sound) {q : Primary (Component Schema)}
    (hq : q ∈ s.primaries) {place : List Nat}
    (hput : ∀ e slots, s.resolve? e.1 = some q → Fits s slots → checkAt s e.1 e.2 = .ok () →
      storedAt? (put s slots e) (q.slot :: place) =
        (handed? s (q.slot :: place) e).or (storedAt? slots (q.slot :: place))) :
    Settles s (q.slot :: place) := by
  intro v slots after hfits hload
  have hcheck := checkAt_of_load hs hload
  rw [eq_foldl_put_of_load hs hload, givenAt?_eq]
  clear hload
  generalize given s v = es at hcheck
  -- The entries are written one after the other, and later ones come first in the answer.
  induction es generalizing slots with
  | nil => rfl
  | cons e es ih =>
    obtain ⟨he, hes⟩ := List.forall_mem_cons.1 hcheck
    have hstep : storedAt? (put s slots e) (q.slot :: place) =
        (handed? s (q.slot :: place) e).or (storedAt? slots (q.slot :: place)) := by
      by_cases hr : s.resolve? e.1 = some q
      · exact hput e slots hr hfits he
      · exact storedAt?_put_of_ne hs hq hr slots place
    rw [List.foldl_cons, ih _ (hfits.put hs e) hes, hstep, List.reverse_cons,
      List.findSome?_append, List.findSome?_singleton, Option.or_assoc]

/-- **After a load that succeeds, a leaf holds what it was given last**, or else what it held
before, at any depth. -/
theorem storedAt?_of_load {s : Schema} (hs : s.Sound) {names : List String} {place : List Nat}
    {q : Primary (Component Schema)} (h : s.LeafAt names place q) : Settles s place := by
  induction h with
  | leaf resolve kind =>
    have hmem := Schema.mem_of_resolve? resolve
    refine settles_of_put hs hmem fun e slots he hfits _ => ?_
    rw [put_of_resolve? he, taken_of_leaf kind, storedAt?_set_leaf (hfits.slot_lt hs hmem),
      handed?_of_leaf he kind]
    rfl
  | @nested s t name p q names place resolve kind rest ih =>
    have hmem := Schema.mem_of_resolve? resolve
    refine settles_of_put hs hmem fun e slots he hfits hcheck => ?_
    -- The nested instance loads its part, which has passed its check.
    obtain ⟨changed, hchanged⟩ := exists_load_of_check (hs.nested hmem kind) e.2
      (checkAt_of_nested he kind e.2 ▸ hcheck) (inner t slots p.slot)
    rw [put_of_resolve? he, taken_of_model kind, Outcome.left, hchanged,
      storedAt?_set_opened (hfits.slot_lt hs hmem) rest.place_ne_nil, handed?_of_model he kind,
      storedAt?_cons t rest.place_ne_nil]
    exact ih (hs.nested hmem kind) e.2 _ _ (hfits.nested hmem kind) hchanged

/-! ### Storages that agree -/

/-- **Storages agree exactly if they hold the same at the place of each leaf.** -/
theorem agree_iff {s : Schema} (hs : s.Sound) {a b : List Slot} :
    Agree s a b ↔
      ∀ names place q, s.LeafAt names place q → storedAt? b place = storedAt? a place := by
  constructor
  · intro h names place q hleaf
    induction hleaf generalizing a b with
    | leaf resolve kind =>
      cases h with
      | intro leaf nested => exact leaf _ (Schema.mem_of_resolve? resolve) kind
    | @nested s t name p q names place resolve kind rest ih =>
      cases h with
      | intro leaf nested =>
        have hmem := Schema.mem_of_resolve? resolve
        rw [storedAt?_cons t rest.place_ne_nil, storedAt?_cons t rest.place_ne_nil]
        exact ih (hs.nested hmem kind) (nested p hmem t kind)
  · intro h
    induction hs generalizing a b with
    | @intro s here _ ih =>
      refine .intro (fun p hp hk => ?_) fun p hp t ht => ih p hp t ht fun names place q hleaf => ?_
      · exact h _ _ p (.leaf (here.resolve?_name hp) hk)
      · rw [← storedAt?_cons t hleaf.place_ne_nil, ← storedAt?_cons t hleaf.place_ne_nil]
        exact h _ _ q (.nested (here.resolve?_name hp) ht hleaf)

/-- **Two loads that give something to the same leaves leave storages that agree exactly if they
give the same last to each of them.** -/
theorem agree_of_loads_iff {s : Schema} (hs : s.Sound) {slots a b : List Slot}
    (hfits : Fits s slots) {v v' : Value} (ha : load s v slots = .ok () a)
    (hb : load s v' slots = .ok () b)
    (hsame : ∀ place, (givenAt? s v' place).isSome = (givenAt? s v place).isSome) :
    Agree s a b ↔
      ∀ names place q, s.LeafAt names place q → givenAt? s v' place = givenAt? s v place := by
  rw [agree_iff hs]
  refine forall_congr' fun names => forall_congr' fun place => forall_congr' fun q =>
    forall_congr' fun hleaf => ?_
  rw [storedAt?_of_load hs hleaf v slots a hfits ha, storedAt?_of_load hs hleaf v' slots b hfits hb]
  have hsome := hsame place
  cases hg : givenAt? s v place with
  | none =>
    rw [hg, Option.isSome_none, Option.isSome_eq_false_iff, Option.isNone_iff_eq_none] at hsome
    rw [hsome]
    exact ⟨fun _ => rfl, fun _ => rfl⟩
  | some x =>
    rw [hg, Option.isSome_some, Option.isSome_iff_exists] at hsome
    obtain ⟨x', hx'⟩ := hsome
    rw [hx', Option.some_or, Option.some_or]

end Storage

end VersionedModel
