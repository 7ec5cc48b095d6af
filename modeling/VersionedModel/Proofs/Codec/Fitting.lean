import VersionedModel.Proofs.Codec.Payloads
import VersionedModel.Proofs.Model.LoadedLeaves

/-!
# What fitting leaves as it is

Fitting a value to a shape changes leaves, but neither what is an array or a map nor the keys of a
map, at any depth (`Shape.Fitted`). So it makes no difference to where the parts of the value go: a
value that is fitted passes a check exactly if it passed before, and otherwise the check finds the
same part, by the kind that it has after fitting (`Storage.load_fitted`); and it gives something
to the same leaves (`Storage.givenAt?_fitted`).
-/

namespace VersionedModel

/-! ### Lists that are related item by item -/

section Forall₂

variable {α β γ : Type} {R : α → β → Prop} {as : List α} {bs : List β}

theorem exists_getElem?_of_forall₂ (h : List.Forall₂ R as bs) {i : Nat} {a : α}
    (ha : as[i]? = some a) : ∃ b, bs[i]? = some b ∧ R a b := by
  induction h generalizing i with
  | nil => cases ha
  | cons hr _ ih =>
    cases i with
    | zero =>
      cases ha
      exact ⟨_, rfl, hr⟩
    | succ i => exact ih ha

/-- The first items that give something are at the same position. -/
theorem rel_findSome? {Q : γ → γ → Prop} {f : α → Option γ} {g : β → Option γ}
    (h : List.Forall₂ R as bs) (hfg : ∀ a b, R a b → Option.Rel Q (f a) (g b)) :
    Option.Rel Q (as.findSome? f) (bs.findSome? g) := by
  induction h with
  | nil => exact .none
  | @cons a b as bs hr _ ih =>
    have hab := hfg a b hr
    rw [List.findSome?_cons, List.findSome?_cons]
    generalize f a = x at hab
    generalize g b = y at hab
    cases hab with
    | none => exact ih
    | some hq => exact .some hq

end Forall₂

namespace Shape

/-! ### Fitting part by part -/

/-- The second value is the first one, fitted to some shape or left as it is. -/
def Fitted (v v' : Value) : Prop :=
  ∃ shape : Option Shape, v' = shape.elim v fun shape => shape.restore v

/-- Under the same key there is a value that was fitted. -/
def FittedEntry (e e' : String × Value) : Prop :=
  e'.1 = e.1 ∧ Fitted e.2 e'.2

theorem Fitted.refl (v : Value) : Fitted v v :=
  ⟨none, rfl⟩

theorem FittedEntry.refl (e : String × Value) : FittedEntry e e :=
  ⟨rfl, .refl e.2⟩

theorem fitted_restore (shape : Shape) (v : Value) : Fitted v (shape.restore v) :=
  ⟨some shape, rfl⟩

theorem fitted_restoreItems (fields : List (String × Shape)) (items : List Value) :
    List.Forall₂ Fitted items (restoreItems fields items) := by
  induction items generalizing fields with
  | nil =>
    rw [restoreItems]
    · exact .nil
    · simp
  | cons v items ih =>
    cases fields with
    | nil =>
      rw [restoreItems]
      · exact List.forall₂_same.2 fun v _ => .refl v
      · simp
    | cons f fields =>
      rw [restoreItems]
      exact .cons (fitted_restore f.2 v) (ih fields)

theorem fitted_restoreEntries (fields : List (String × Shape)) (es : List (String × Value)) :
    List.Forall₂ FittedEntry es (restoreEntries fields es) := by
  rw [restoreEntries_eq_map, List.forall₂_map_right_iff]
  exact List.forall₂_same.2 fun e _ => ⟨rfl, named? fields e.1, rfl⟩

/-- A value that is neither an array nor a map is fitted to a kind. -/
theorem Fitted.exists_coerce {v v' : Value} (h : Fitted v v') (ha : v.kind ≠ .array)
    (hm : v.kind ≠ .map) : ∃ k, v' = v.coerce k := by
  obtain ⟨_ | ⟨k⟩ | ⟨fields⟩, rfl⟩ := h
  · exact ⟨.any, rfl⟩
  · exact ⟨k, by rw [Option.elim_some, restore]⟩
  · refine ⟨.any, ?_⟩
    cases v with
    | array | map => simp [Value.kind] at ha hm
    | _ => rfl

theorem Fitted.array {items : List Value} {v' : Value} (h : Fitted (.array items) v') :
    ∃ items', v' = .array items' ∧ List.Forall₂ Fitted items items' := by
  obtain ⟨_ | ⟨k⟩ | ⟨fields⟩, rfl⟩ := h
  · exact ⟨items, rfl, List.forall₂_same.2 fun v _ => .refl v⟩
  · exact ⟨items, by cases k <;> rfl, List.forall₂_same.2 fun v _ => .refl v⟩
  · exact ⟨_, by rw [Option.elim_some, restore], fitted_restoreItems fields items⟩

theorem Fitted.map {es : List (String × Value)} {v' : Value} (h : Fitted (.map es) v') :
    ∃ es', v' = .map es' ∧ List.Forall₂ FittedEntry es es' := by
  obtain ⟨_ | ⟨k⟩ | ⟨fields⟩, rfl⟩ := h
  · exact ⟨es, rfl, List.forall₂_same.2 fun e _ => .refl e⟩
  · exact ⟨es, by cases k <;> rfl, List.forall₂_same.2 fun e _ => .refl e⟩
  · exact ⟨_, by rw [Option.elim_some, restore], fitted_restoreEntries fields es⟩

/-- A kind makes neither an array nor a map. -/
theorem kind_coerce_ne {v : Value} (ha : v.kind ≠ .array) (hm : v.kind ≠ .map) (k : ValueKind) :
    (v.coerce k).kind ≠ .array ∧ (v.coerce k).kind ≠ .map := by
  rw [Value.coerce.eq_def]
  split
  · split
    · simp [Value.kind]
    · exact ⟨ha, hm⟩
  · simp [Value.kind]
  · exact ⟨ha, hm⟩

/-- What is neither an array nor a map after fitting was neither before. -/
theorem Fitted.kind_ne {v v' : Value} (h : Fitted v v') (ha : v'.kind ≠ .array)
    (hm : v'.kind ≠ .map) : v.kind ≠ .array ∧ v.kind ≠ .map := by
  cases v with
  | array items =>
    obtain ⟨items', rfl, -⟩ := h.array
    exact absurd rfl ha
  | map es =>
    obtain ⟨es', rfl, -⟩ := h.map
    exact absurd rfl hm
  | _ => simp [Value.kind]

end Shape

namespace Storage

open Shape (Fitted FittedEntry)

variable {s : Schema} {v v' : Value}

/-! ### Where the parts go -/

theorem fittedEntry_zip {items items' : List Value} (h : List.Forall₂ Fitted items items')
    (ns : List String) : List.Forall₂ FittedEntry (ns.zip items) (ns.zip items') := by
  induction h generalizing ns with
  | nil => simp
  | cons hv _ ih =>
    cases ns with
    | nil => exact .nil
    | cons n ns => exact .cons ⟨rfl, hv⟩ (ih ns)

/-- What is neither an array nor a map goes nowhere. -/
theorem given_of_kind_ne (s : Schema) (ha : v.kind ≠ .array) (hm : v.kind ≠ .map) :
    given s v = [] := by
  cases v with
  | array | map => simp [Value.kind] at ha hm
  | _ => rfl

/-- The parts of a value that is fitted go to the same fields. -/
theorem given_fitted (s : Schema) (h : Fitted v v') :
    List.Forall₂ FittedEntry (given s v) (given s v') := by
  by_cases hscalar : v.kind ≠ .array ∧ v.kind ≠ .map
  · obtain ⟨k, rfl⟩ := h.exists_coerce hscalar.1 hscalar.2
    obtain ⟨ha, hm⟩ := Shape.kind_coerce_ne hscalar.1 hscalar.2 k
    rw [given_of_kind_ne s hscalar.1 hscalar.2, given_of_kind_ne s ha hm]
    exact .nil
  cases v with
  | array items =>
    obtain ⟨items', rfl, hitems⟩ := h.array
    exact fittedEntry_zip hitems (names s)
  | map es =>
    obtain ⟨es', rfl, hes⟩ := h.map
    exact hes
  | _ => simp [Value.kind] at hscalar

theorem getElem?_writes (hs : s.Sound) {i : Nat} {p : Primary (Component Schema)} {x : Value} :
    (writes s v)[i]? = some (some (p, x)) ↔
      ∃ name, (given s v)[i]? = some (name, x) ∧ s.resolve? name = some p := by
  rw [writes_eq_map_given hs, List.getElem?_map]
  constructor
  · intro h
    obtain ⟨⟨name, y⟩, he, hy⟩ := Option.map_eq_some_iff.1 h
    obtain ⟨q, hq, ⟨⟩⟩ := Option.map_eq_some_iff.1 hy
    exact ⟨name, he, hq⟩
  · rintro ⟨name, he, hp⟩
    rw [he, Option.map_some, hp, Option.map_some]

/-- What goes to a field does so after fitting, too. -/
theorem exists_writes_of_fitted (hs : s.Sound) (h : Fitted v v') {i : Nat}
    {p : Primary (Component Schema)} {x : Value} (hx : (writes s v)[i]? = some (some (p, x))) :
    ∃ x', (writes s v')[i]? = some (some (p, x')) ∧ Fitted x x' := by
  obtain ⟨name, he, hp⟩ := (getElem?_writes hs).1 hx
  obtain ⟨⟨name', x'⟩, he', hname, hfit⟩ := exists_getElem?_of_forall₂ (given_fitted s h) he
  obtain rfl : name' = name := hname
  exact ⟨x', (getElem?_writes hs).2 ⟨_, he', hp⟩, hfit⟩

/-- What goes to a field after fitting did so before. -/
theorem exists_writes_of_fitted_right (hs : s.Sound) (h : Fitted v v') {i : Nat}
    {p : Primary (Component Schema)} {x' : Value}
    (hx : (writes s v')[i]? = some (some (p, x'))) :
    ∃ x, (writes s v)[i]? = some (some (p, x)) ∧ Fitted x x' := by
  obtain ⟨name, he, hp⟩ := (getElem?_writes hs).1 hx
  obtain ⟨⟨name', x⟩, he', hname, hfit⟩ :=
    exists_getElem?_of_forall₂ (given_fitted s h).flip he
  obtain rfl : name = name' := hname
  exact ⟨x, (getElem?_writes hs).2 ⟨_, he', hp⟩, hfit⟩

/-! ### Misfits -/

/-- Fitting leaves a misfit one, but perhaps of another kind. -/
theorem Misfit.fitted (hs : s.Sound) {is : List Nat} {x : Value} (hx : Misfit s v is x)
    (h : Fitted v v') : ∃ k, Misfit s v' is (x.coerce k) := by
  induction hx generalizing v' with
  | here array map =>
    obtain ⟨k, rfl⟩ := h.exists_coerce array map
    obtain ⟨array', map'⟩ := Shape.kind_coerce_ne array map k
    exact ⟨k, .here array' map'⟩
  | inside given nested _ ih =>
    obtain ⟨x', hx', hfit⟩ := exists_writes_of_fitted hs h given
    obtain ⟨k, hk⟩ := ih (hs.nested (mem_of_writes given) nested) hfit
    exact ⟨k, .inside hx' nested hk⟩

/-- Fitting makes no misfits. -/
theorem Misfit.of_fitted (hs : s.Sound) {is : List Nat} {y : Value} (hy : Misfit s v' is y)
    (h : Fitted v v') : ∃ x, Misfit s v is x := by
  induction hy generalizing v with
  | here array map =>
    obtain ⟨array', map'⟩ := h.kind_ne array map
    exact ⟨v, .here array' map'⟩
  | inside given nested _ ih =>
    obtain ⟨x, hx, hfit⟩ := exists_writes_of_fitted_right hs h given
    obtain ⟨y, hy⟩ := ih (hs.nested (mem_of_writes given) nested) hfit
    exact ⟨y, .inside hx nested hy⟩

/-- The first misfit stays the first. -/
theorem FirstMisfit.fitted (hs : s.Sound) {is : List Nat} {x : Value} (hx : FirstMisfit s v is x)
    (h : Fitted v v') : ∃ k, FirstMisfit s v' is (x.coerce k) := by
  obtain ⟨k, hk⟩ := hx.misfit.fitted hs h
  refine ⟨k, hk, fun js y hy => ?_⟩
  obtain ⟨z, hz⟩ := hy.of_fitted hs h
  exact hx.first js z hz

/-- There is at most one value at a place. -/
theorem Misfit.unique {is : List Nat} {x y : Value} (hx : Misfit s v is x)
    (hy : Misfit s v is y) : x = y := by
  induction hx with
  | here =>
    cases hy
    rfl
  | inside given nested _ ih =>
    cases hy with
    | inside given' nested' rest =>
      cases given.symm.trans given'
      cases nested.symm.trans nested'
      exact ih rest

/-- There is only one first misfit. -/
theorem FirstMisfit.unique {is js : List Nat} {x y : Value} (hx : FirstMisfit s v is x)
    (hy : FirstMisfit s v js y) : x = y := by
  rcases trichotomous_of (List.Lex (· < ·)) is js with hlt | rfl | hgt
  · exact absurd hlt (hy.first is x hx.misfit)
  · exact hx.misfit.unique hy.misfit
  · exact absurd hgt (hx.first js y hy.misfit)

/-- Where there is a misfit, the check does not pass, and is about the first one. -/
theorem check_of_firstMisfit (hs : s.Sound) {is : List Nat} {x : Value}
    (hx : FirstMisfit s v is x) : check s v = .error (.unsupportedPayload x.kind) := by
  obtain ⟨hok, herror⟩ := check_spec hs v
  cases hc : check s v with
  | ok u => exact absurd hx.misfit (hok hc is x)
  | error e =>
    obtain ⟨js, y, hy, rfl⟩ := herror e hc
    rw [hx.unique hy]

/-- **Fitting decides neither whether a value is loaded nor where it fails.** A value is loaded
after fitting if it passes the check before, and a value with a first misfit fails for what this one
is fitted to. -/
theorem load_fitted (hs : s.Sound) (h : Fitted v v') (slots : List Slot) :
    (check s v = .ok () → ∃ after, load s v' slots = .ok () after) ∧
      ∀ is x, FirstMisfit s v is x →
        ∃ k, load s v' slots = .error (.unsupportedPayload (x.coerce k).kind) slots := by
  refine ⟨fun hok => exists_load_of_check hs v' ?_ slots, fun is x hx => ?_⟩
  · cases hc : check s v' with
    | ok u => rfl
    | error e =>
      obtain ⟨is, y, hy, -⟩ := (check_spec hs v').2 e hc
      obtain ⟨x, hx⟩ := hy.misfit.of_fitted hs h
      exact absurd hx ((check_spec hs v).1 hok is x)
  · obtain ⟨k, hk⟩ := hx.fitted hs h
    exact ⟨k, (load_eq_error_iff hs).2 ⟨check_of_firstMisfit hs hk, rfl⟩⟩

/-! ### What leaves are given -/

/-- What is given last stays so, fitted. -/
theorem givenAt?_fitted (h : Fitted v v') (place : List Nat) :
    Option.Rel Fitted (givenAt? s v place) (givenAt? s v' place) := by
  induction place generalizing s v v' with
  | nil => exact .none
  | cons i place ih =>
    rw [givenAt?_eq, givenAt?_eq]
    refine rel_findSome? (List.forall₂_reverse_iff.2 (given_fitted s h))
      fun e e' ⟨hname, hfit⟩ => ?_
    cases hp : s.resolve? e.1 with
    | none =>
      rw [handed?_of_unbound hp, handed?_of_unbound (hname ▸ hp)]
      exact .none
    | some p =>
      have hp' : s.resolve? e'.1 = some p := hname ▸ hp
      by_cases hslot : p.slot = i
      · subst hslot
        cases ht : p.target.schema? with
        | some t =>
          rw [handed?_of_model hp ht, handed?_of_model hp' ht]
          exact ih hfit
        | none =>
          by_cases hplace : place = []
          · subst hplace
            rw [handed?_of_leaf hp ht, handed?_of_leaf hp' ht]
            exact .some hfit
          · rw [handed?_of_leaf_of_ne_nil hp ht hplace, handed?_of_leaf_of_ne_nil hp' ht hplace]
            exact .none
      · rw [handed?_of_slot_ne hp hslot, handed?_of_slot_ne hp' hslot]
        exact .none

/-- Something is given to the same leaves. -/
theorem isSome_givenAt?_fitted (h : Fitted v v') (place : List Nat) :
    (givenAt? s v' place).isSome = (givenAt? s v place).isSome := by
  have hrel := givenAt?_fitted (s := s) h place
  generalize givenAt? s v place = x at hrel
  generalize givenAt? s v' place = x' at hrel
  cases hrel <;> rfl

end Storage

end VersionedModel
