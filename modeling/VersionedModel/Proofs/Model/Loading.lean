import VersionedModel.Proofs.Model.Agreement

/-!
# Checking before loading

Whatever is checked can be written: a value that passes the check of an instance is loaded without
an error, at every depth and whatever the instance held before (`Storage.exists_load_of_check`). So
a load fails only where its check fails, with the error of the check, and then it has changed
nothing (`Storage.load_eq_error_iff`).
-/

namespace VersionedModel

theorem Schema.Sound.exists_resolve? {s : Schema} (hs : s.Sound) {name : String}
    (h : s.binds name = true) : ∃ p ∈ s.primaries, s.resolve? name = some p := by
  obtain ⟨p, hp⟩ := Option.isSome_iff_exists.1 (hs.here.resolve?_isSome h)
  exact ⟨p, Schema.mem_of_resolve? hp, hp⟩

namespace Storage

/-! ### Changing a field -/

section Change

variable {s : Schema} {name : String} {p : Primary (Component Schema)} {stored : Option Value}
  {nested : Schema → Change Unit} {slots : List Slot}

theorem change_of_leaf (hp : s.resolve? name = some p) (hk : p.target.schema? = none) :
    change s name stored nested slots = .ok () (slots.set p.slot (.leaf stored)) := by
  obtain ⟨k, hk⟩ := Component.schema?_eq_none_iff.1 hk
  rw [change, primary, hp]
  dsimp only
  rw [hk]
  rfl

theorem change_of_model {t : Schema} (hp : s.resolve? name = some p)
    (hk : p.target.schema? = some t) :
    change s name stored nested slots = within t p.slot (nested t) slots := by
  rw [change, primary, hp]
  dsimp only
  rw [Component.schema?_eq_some_iff.1 hk]

theorem change_of_unbound (hp : s.resolve? name = none) :
    change s name stored nested slots = .error (.unknownField name) slots := by
  rw [change, primary, hp]
  rfl

theorem within_of_ok {t : Schema} {i : Nat} {change : Change Unit} {changed : List Slot}
    (h : change (inner t slots i) = .ok () changed) :
    within t i change slots = .ok () (slots.set i (.opened changed)) := by
  rw [within, h]

theorem answer_within {t : Schema} {i : Nat} (change : Change Unit) (slots : List Slot) :
    Outcome.answer (within t i change) slots = Outcome.answer change (inner t slots i) := by
  rw [Outcome.answer, within, Outcome.answer]
  cases change (inner t slots i) <;> rfl

theorem left_within {t : Schema} {i : Nat} (change : Change Unit) (slots : List Slot) :
    Outcome.left (within t i change) slots =
      slots.set i (.opened (Outcome.left change (inner t slots i))) := by
  rw [Outcome.left, within, Outcome.left]
  cases change (inner t slots i) <;> rfl

theorem exists_change (hp : s.resolve? name = some p)
    (h : ∀ t, p.target.schema? = some t → ∀ a, ∃ b, nested t a = .ok () b)
    (stored : Option Value) (slots : List Slot) :
    ∃ b, change s name stored nested slots = .ok () b := by
  cases hk : p.target.schema? with
  | none => exact ⟨_, change_of_leaf hp hk⟩
  | some t =>
    obtain ⟨b, hb⟩ := h t hk (inner t slots p.slot)
    exact ⟨_, (change_of_model hp hk).trans (within_of_ok hb)⟩

end Change

/-! ### Going into a nested instance -/

section SetAt

variable {s t : Schema} {name : String} {rest : List String} {p : Primary (Component Schema)}

theorem setAt_cons_of_unbound (hp : s.resolve? name = none) (hrest : rest ≠ []) (what : Write) :
    setAt s what (name :: rest) = throw (.unknownField name) := by
  rw [setAt, primary, hp]
  exact hrest

theorem setAt_cons_of_leaf (hp : s.resolve? name = some p) (hk : p.target.schema? = none)
    (hrest : rest ≠ []) (what : Write) :
    setAt s what (name :: rest) = throw (.notAModel name) := by
  obtain ⟨k, hk⟩ := Component.schema?_eq_none_iff.1 hk
  rw [setAt, primary, hp]
  · dsimp only
    rw [hk]
  · exact hrest

theorem setAt_cons_of_model (hp : s.resolve? name = some p) (hk : p.target.schema? = some t)
    (hrest : rest ≠ []) (what : Write) :
    setAt s what (name :: rest) = within t p.slot (setAt t what rest) := by
  rw [setAt, primary, hp]
  · dsimp only
    rw [Component.schema?_eq_some_iff.1 hk]
  · exact hrest

end SetAt

/-! ### Steps of checking and writing -/

/-- The check of one value that goes to a name. -/
def checkAt (s : Schema) (name : String) (v : Value) : Except Error Unit :=
  match nested? s name with
  | some t => check t v
  | none => .ok ()

section Steps

variable {s : Schema} {name : String} {names : List String} {v : Value} {items : List Value}
  {entries : List (String × Value)} {slots mid : List Slot}

theorem checkItems_cons :
    checkItems s (name :: names) (v :: items) =
      checkAt s name v >>= fun _ => checkItems s names items := by
  rw [checkItems, checkAt]
  cases nested? s name <;> rfl

theorem checkEntries_cons :
    checkEntries s ((name, v) :: entries) =
      checkAt s name v >>= fun _ => checkEntries s entries := by
  rw [checkEntries, checkAt]
  cases nested? s name <;> rfl

theorem putItems_cons (h : change s name (some v) (fun t => load t v) slots = .ok () mid) :
    putItems s (name :: names) (v :: items) slots = putItems s names items mid := by
  rw [putItems, Outcome.bind_apply, h]

theorem putEntries_cons_of_binds (hb : s.binds name = true)
    (h : change s name (some v) (fun t => load t v) slots = .ok () mid) :
    putEntries s ((name, v) :: entries) slots = putEntries s entries mid := by
  rw [putEntries, if_pos hb, Outcome.bind_apply, h]

theorem putEntries_cons_of_not_binds (hb : ¬s.binds name = true) :
    putEntries s ((name, v) :: entries) slots = putEntries s entries slots := by
  rw [putEntries, if_neg hb]

end Steps

theorem checkAt_of_nested {s t : Schema} {name : String} {p : Primary (Component Schema)}
    (hp : s.resolve? name = some p) (ht : p.target.schema? = some t) (v : Value) :
    checkAt s name v = check t v := by
  rw [checkAt, nested?, hp, Option.bind_some, ht]

/-- A leaf takes anything. -/
theorem checkAt_of_leaf {s : Schema} {name : String} {p : Primary (Component Schema)}
    (hp : s.resolve? name = some p) (hk : p.target.schema? = none) (v : Value) :
    checkAt s name v = .ok () := by
  rw [checkAt, nested?, hp, Option.bind_some, hk]

theorem guarded_of_ok {checked : Except Error Unit} (h : checked = .ok ())
    (change : Change Unit) : guarded checked change = change := by
  rw [h, guarded]

/-- A map is loaded like a payload that goes by name. -/
theorem load_map (s : Schema) (entries : List (String × Value)) :
    load s (.map entries) = loadPayload s (.mapping entries) := by
  rw [load, loadPayload, checkPayload, putPayload]

/-- An array is loaded like a payload that goes by position. -/
theorem load_array (s : Schema) (items : List Value) :
    load s (.array items) = loadPayload s (.sequence items) := by
  rw [load, loadPayload, checkPayload, putPayload]

/-! ### What is checked can be written -/

/-- The names of the primaries are bound. -/
theorem exists_resolve?_of_mem_names {s : Schema} (hs : s.Sound) {name : String}
    (h : name ∈ names s) : ∃ p ∈ s.primaries, s.resolve? name = some p := by
  obtain ⟨p, hp, rfl⟩ := List.mem_map.1 h
  exact ⟨p, hp, hs.here.resolve?_name hp⟩

mutual

/-- **A value that passes the check is loaded**, whatever was stored before. -/
theorem exists_load_of_check {s : Schema} (hs : s.Sound) (v : Value) (h : check s v = .ok ())
    (slots : List Slot) : ∃ b, load s v slots = .ok () b := by
  match v with
  | .array items =>
    rw [check] at h
    rw [load, guarded_of_ok h]
    exact exists_putItems_of_check hs (names s) (fun _ hn => hn) items h slots
  | .map entries =>
    rw [check] at h
    rw [load, guarded_of_ok h]
    exact exists_putEntries_of_check hs entries h slots
  | .null | .bool _ | .integer _ | .float _ | .string _ | .bytes _ => cases h

theorem exists_putItems_of_check {s : Schema} (hs : s.Sound) (ns : List String)
    (hn : ∀ n ∈ ns, n ∈ names s) (items : List Value) (h : checkItems s ns items = .ok ())
    (slots : List Slot) : ∃ b, putItems s ns items slots = .ok () b := by
  match ns, items with
  | [], _ => exact ⟨slots, by rw [putItems]; rfl; simp⟩
  | _ :: _, [] => exact ⟨slots, by rw [putItems]; rfl; simp⟩
  | n :: ns, v :: items =>
    rw [checkItems_cons] at h
    obtain ⟨⟨⟩, hv, h⟩ := Outcome.bind_eq_ok.1 h
    obtain ⟨p, hmem, hp⟩ := exists_resolve?_of_mem_names hs (hn n List.mem_cons_self)
    -- Whatever the nested instance holds by now, its part of the check has passed.
    have hload : ∀ t, p.target.schema? = some t → ∀ a, ∃ b, load t v a = .ok () b := fun t ht a =>
      exists_load_of_check (hs.nested hmem ht) v (checkAt_of_nested hp ht v ▸ hv) a
    obtain ⟨mid, hmid⟩ := exists_change hp hload (some v) slots
    rw [putItems_cons hmid]
    exact exists_putItems_of_check hs ns (fun n hmem => hn n (List.mem_cons_of_mem _ hmem)) items
      h mid

theorem exists_putEntries_of_check {s : Schema} (hs : s.Sound) (entries : List (String × Value))
    (h : checkEntries s entries = .ok ()) (slots : List Slot) :
    ∃ b, putEntries s entries slots = .ok () b := by
  match entries with
  | [] => exact ⟨slots, rfl⟩
  | (n, v) :: entries =>
    rw [checkEntries_cons] at h
    obtain ⟨⟨⟩, hv, h⟩ := Outcome.bind_eq_ok.1 h
    by_cases hb : s.binds n = true
    · obtain ⟨p, hmem, hp⟩ := hs.exists_resolve? hb
      have hload : ∀ t, p.target.schema? = some t → ∀ a, ∃ b, load t v a = .ok () b :=
        fun t ht a =>
          exists_load_of_check (hs.nested hmem ht) v (checkAt_of_nested hp ht v ▸ hv) a
      obtain ⟨mid, hmid⟩ := exists_change hp hload (some v) slots
      rw [putEntries_cons_of_binds hb hmid]
      exact exists_putEntries_of_check hs entries h mid
    · rw [putEntries_cons_of_not_binds hb]
      exact exists_putEntries_of_check hs entries h slots

end

/-! ### Loads that fail -/

theorem exists_putPayload_of_check {s : Schema} (hs : s.Sound) (p : Payload)
    (h : checkPayload s p = .ok ()) (slots : List Slot) :
    ∃ b, putPayload s p slots = .ok () b := by
  cases p with
  | sequence items => exact exists_putItems_of_check hs (names s) (fun _ hn => hn) items h slots
  | mapping entries => exact exists_putEntries_of_check hs entries h slots

/-- Where what follows a check cannot fail, failing is failing the check. -/
theorem guarded_eq_error_iff {checked : Except Error Unit} {change : Change Unit}
    {slots slots' : List Slot} {e : Error}
    (h : checked = .ok () → ∃ b, change slots = .ok () b) :
    guarded checked change slots = .error e slots' ↔ checked = .error e ∧ slots' = slots := by
  cases checked with
  | error e' =>
    constructor
    · rintro ⟨⟩
      exact ⟨rfl, rfl⟩
    · rintro ⟨⟨⟩, rfl⟩
      rfl
  | ok u =>
    obtain ⟨b, hb⟩ := h rfl
    rw [guarded, hb]
    exact ⟨nofun, nofun⟩

/-- **A payload that cannot be loaded changes nothing**; its check has failed. -/
theorem loadPayload_eq_error_iff {s : Schema} (hs : s.Sound) {p : Payload}
    {slots slots' : List Slot} {e : Error} :
    loadPayload s p slots = .error e slots' ↔ checkPayload s p = .error e ∧ slots' = slots :=
  guarded_eq_error_iff fun h => exists_putPayload_of_check hs p h slots

/-- A value that cannot be loaded changes nothing; its check has failed. -/
theorem load_eq_error_iff {s : Schema} (hs : s.Sound) {v : Value} {slots slots' : List Slot}
    {e : Error} : load s v slots = .error e slots' ↔ check s v = .error e ∧ slots' = slots := by
  cases v with
  | array items => exact loadPayload_eq_error_iff hs (p := .sequence items)
  | map entries => exact loadPayload_eq_error_iff hs (p := .mapping entries)
  | _ =>
    constructor
    · rintro ⟨⟩
      exact ⟨rfl, rfl⟩
    · rintro ⟨⟨⟩, rfl⟩
      rfl

end Storage

end VersionedModel
