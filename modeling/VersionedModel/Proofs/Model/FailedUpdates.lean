import VersionedModel.Model.Transfer
import VersionedModel.Proofs.Model.Loading

/-!
# Updates that fail

An update that fails may have opened nested instances on its way, but it has changed nothing that a
reading shows (`Model.sameView_of_error`). Loading fails only for one reason: somewhere a nested
model is given a value that is neither an array nor a map. `Storage.Misfit` says where a value has
such a place, and the error is about the first of them, depth first (`Storage.check_spec`).
-/

namespace VersionedModel

open Schema (Everywhere)

/-- A payload as the value that it is taken from. -/
def Payload.asValue : Payload → Value
  | .sequence items => .array items
  | .mapping entries => .map entries

namespace Storage

/-! ### Misfits -/

/-- What a value gives to the fields of a schema, position by position: a value for a primary, or
nothing where a name is not bound. -/
def writes (s : Schema) : Value → List (Option (Primary (Component Schema) × Value))
  | .array items => (s.primaries.zip items).map some
  | .map entries => entries.map fun e => (s.resolve? e.1).map fun p => (p, e.2)
  | _ => []

/-- A nested model of the schema that is given the value `v` is given, at the place `is` in `v`, the
value `x` that is neither an array nor a map. A place is a chain of positions. -/
inductive Misfit : Schema → Value → List Nat → Value → Prop
  | here {s : Schema} {v : Value} (array : v.kind ≠ .array) (map : v.kind ≠ .map) : Misfit s v [] v
  | inside {s t : Schema} {v x y : Value} {i : Nat} {is : List Nat}
      {p : Primary (Component Schema)} (given : (writes s v)[i]? = some (some (p, x)))
      (nested : p.target.schema? = some t) (rest : Misfit t x is y) : Misfit s v (i :: is) y

/-- The first misfit, depth first: the place of no other comes before its place, position by
position. -/
structure FirstMisfit (s : Schema) (v : Value) (is : List Nat) (x : Value) : Prop where
  /-- It is one. -/
  misfit : Misfit s v is x
  /-- It is the first. -/
  first : ∀ js y, Misfit s v js y → ¬List.Lex (· < ·) js is

theorem sizeOf_lt_of_writes {s : Schema} {v x : Value} {p : Primary (Component Schema)} {i : Nat}
    (h : (writes s v)[i]? = some (some (p, x))) : sizeOf x < sizeOf v := by
  have hmem := List.mem_of_getElem? h
  cases v with
  | array items =>
    obtain ⟨_, hz, ⟨⟩⟩ := List.mem_map.1 hmem
    have := List.sizeOf_lt_of_mem (List.of_mem_zip hz).2
    rw [Value.array.sizeOf_spec]
    omega
  | map entries =>
    obtain ⟨⟨name, y⟩, he, hy⟩ := List.mem_map.1 hmem
    obtain ⟨q, -, ⟨⟩⟩ := Option.map_eq_some_iff.1 hy
    have := List.sizeOf_lt_of_mem he
    rw [Prod.mk.sizeOf_spec] at this
    rw [Value.map.sizeOf_spec]
    dsimp only
    omega
  | _ => cases hmem

theorem mem_of_writes {s : Schema} {v x : Value} {p : Primary (Component Schema)} {i : Nat}
    (h : (writes s v)[i]? = some (some (p, x))) : p ∈ s.primaries := by
  have hmem := List.mem_of_getElem? h
  cases v with
  | array items =>
    obtain ⟨_, hz, ⟨⟩⟩ := List.mem_map.1 hmem
    exact (List.of_mem_zip hz).1
  | map entries =>
    obtain ⟨e, -, hy⟩ := List.mem_map.1 hmem
    obtain ⟨q, hq, ⟨⟩⟩ := Option.map_eq_some_iff.1 hy
    exact Schema.mem_of_resolve? hq
  | _ => cases hmem

/-! ### What the check finds -/

/-- The check of what is given to one field. -/
def checkGiven : Option (Primary (Component Schema) × Value) → Except Error Unit
  | some (p, x) =>
    match p.target.schema? with
    | some t => check t x
    | none => .ok ()
  | none => .ok ()

theorem checkAt_eq_checkGiven (s : Schema) (name : String) (v : Value) :
    checkAt s name v = checkGiven ((s.resolve? name).map fun p => (p, v)) := by
  rw [checkAt, nested?]
  cases s.resolve? name <;> rfl

theorem checkItems_eq {s : Schema} (hs : s.Sound) {ps : List (Primary (Component Schema))}
    (hps : ∀ p ∈ ps, p ∈ s.primaries) (items : List Value) :
    checkItems s (ps.map Primary.name) items = ((ps.zip items).map some).forM checkGiven := by
  induction ps generalizing items with
  | nil => rw [List.map_nil, checkItems]; rfl; simp
  | cons p ps ih =>
    cases items with
    | nil => rw [List.map_cons, checkItems]; rfl; simp
    | cons v items =>
      have hresolve : s.resolve? p.name = some p := hs.here.resolve?_name (hps p List.mem_cons_self)
      rw [List.map_cons, checkItems_cons, checkAt_eq_checkGiven, hresolve,
        ih fun q hq => hps q (List.mem_cons_of_mem p hq)]
      rfl

theorem checkEntries_eq (s : Schema) (entries : List (String × Value)) :
    checkEntries s entries =
      (entries.map fun e => (s.resolve? e.1).map fun p => (p, e.2)).forM checkGiven := by
  induction entries with
  | nil => rfl
  | cons e entries ih =>
    rw [checkEntries_cons, checkAt_eq_checkGiven, ih]
    rfl

/-- Arrays and maps are checked field by field, and nothing else passes. -/
theorem check_eq {s : Schema} (hs : s.Sound) (v : Value) :
    check s v =
      if v.kind = .array ∨ v.kind = .map then (writes s v).forM checkGiven
      else .error (.unsupportedPayload v.kind) := by
  cases v with
  | array items => exact checkItems_eq hs (fun _ hp => hp) items
  | map entries => exact checkEntries_eq s entries
  | _ => rfl

theorem checkPayload_eq (s : Schema) (p : Payload) : checkPayload s p = check s p.asValue := by
  cases p <;> rfl

/-- Where nothing is given to a nested model, nothing fails. -/
theorem exists_check_of_checkGiven {w : Option (Primary (Component Schema) × Value)} {e : Error}
    (h : checkGiven w = .error e) :
    ∃ p x t, w = some (p, x) ∧ p.target.schema? = some t ∧ check t x = .error e := by
  cases w with
  | none => cases h
  | some w =>
    rw [checkGiven] at h
    cases ht : w.1.target.schema? with
    | none =>
      rw [ht] at h
      cases h
    | some t =>
      rw [ht] at h
      exact ⟨w.1, w.2, t, rfl, ht, h⟩

theorem checkGiven_of_nested {p : Primary (Component Schema)} {t : Schema}
    (ht : p.target.schema? = some t) (x : Value) : checkGiven (some (p, x)) = check t x := by
  rw [checkGiven, ht]

/-- **The check finds the first misfit.** It passes where there is none, and otherwise names the
kind of the first one's value. The induction is on the value. -/
theorem check_spec {s : Schema} (hs : s.Sound) (v : Value) :
    (check s v = .ok () → ∀ is x, ¬Misfit s v is x) ∧
      ∀ e, check s v = .error e →
        ∃ is x, FirstMisfit s v is x ∧ e = .unsupportedPayload x.kind := by
  induction hsize : sizeOf v using Nat.strongRecOn generalizing s v with
  | ind n ih =>
    subst hsize
    rw [check_eq hs]
    by_cases hk : v.kind = .array ∨ v.kind = .map
    · rw [if_pos hk]
      -- A misfit lies in what is given to some field, and there the check does not pass.
      have hinside : ∀ is y, Misfit s v is y → ∃ i p x t js, is = i :: js ∧
          (writes s v)[i]? = some (some (p, x)) ∧ p.target.schema? = some t ∧
          Misfit t x js y ∧ check t x ≠ .ok () := by
        rintro is y (⟨harray, hmap⟩ | ⟨given, nested, rest⟩)
        · exact absurd hk (by simp [harray, hmap])
        · exact ⟨_, _, _, _, _, rfl, given, nested, rest, fun hok =>
            (ih _ (sizeOf_lt_of_writes given) (hs.nested (mem_of_writes given) nested) _ rfl).1 hok
              _ _ rest⟩
      refine ⟨fun hok is y hy => ?_, fun e he => ?_⟩
      · obtain ⟨i, p, x, t, js, -, given, nested, -, hne⟩ := hinside is y hy
        exact hne (checkGiven_of_nested nested x ▸
          Outcome.forM_eq_ok.1 hok _ (List.mem_of_getElem? given))
      · obtain ⟨i, w, hi, hw, hbefore⟩ := Outcome.forM_eq_error.1 he
        obtain ⟨p, x, t, rfl, nested, hx⟩ := exists_check_of_checkGiven hw
        obtain ⟨is, y, hfirst, rfl⟩ :=
          (ih _ (sizeOf_lt_of_writes hi) (hs.nested (mem_of_writes hi) nested) x rfl).2 e hx
        refine ⟨i :: is, y, ⟨.inside hi nested hfirst.misfit, fun js z hz => ?_⟩, rfl⟩
        obtain ⟨j, q, x', u, js, rfl, given, nested', rest, hne⟩ := hinside js z hz
        -- Before place `i` all checks pass, and at place `i` the first misfit is known.
        rcases Nat.lt_trichotomy j i with hlt | rfl | hgt
        · exact absurd (checkGiven_of_nested nested' x' ▸ hbefore j hlt _ given) hne
        · rw [hi] at given
          cases given
          cases nested.symm.trans nested'
          rw [List.cons_lex_cons_iff]
          rintro (hlt | ⟨-, hlt⟩)
          · exact Nat.lt_irrefl j hlt
          · exact hfirst.first js z rest hlt
        · rw [List.cons_lex_cons_iff]
          rintro (hlt | ⟨rfl, -⟩)
          · exact Nat.lt_asymm hlt hgt
          · exact Nat.lt_irrefl j hgt
    · -- What is neither an array nor a map is a misfit itself.
      rw [if_neg hk]
      refine ⟨nofun, fun e he => ?_⟩
      cases he
      rw [not_or] at hk
      exact ⟨[], v, ⟨.here hk.1 hk.2, fun js y _ => List.not_lex_nil⟩, rfl⟩

/-! ### Writes that fail -/

theorem within_eq_error {t : Schema} {i : Nat} {change : Change Unit} {slots slots' : List Slot}
    {e : Error} (h : within t i change slots = .error e slots') :
    ∃ changed, change (inner t slots i) = .error e changed ∧
      slots' = slots.set i (.opened changed) := by
  rw [within] at h
  cases hc : change (inner t slots i) with
  | ok u changed =>
    rw [hc] at h
    cases h
  | error e' changed =>
    rw [hc] at h
    cases h
    exact ⟨changed, rfl, rfl⟩

/-- A field's change that fails leaves a storage that agrees, if nested changes do. -/
theorem agree_of_change_error {s : Schema} (hs : s.Sound) {name : String} {stored : Option Value}
    {nested : Schema → Change Unit} {slots slots' : List Slot} {e : Error}
    (hn : ∀ t : Schema, t.Sound → ∀ a b, nested t a = .error e b → Agree t a b)
    (h : change s name stored nested slots = .error e slots') : Agree s slots slots' := by
  cases hp : s.resolve? name with
  | none =>
    rw [change_of_unbound hp] at h
    cases h
    exact .refl hs slots
  | some p =>
    have hmem := Schema.mem_of_resolve? hp
    cases ht : p.target.schema? with
    | none =>
      rw [change_of_leaf hp ht] at h
      cases h
    | some t =>
      rw [change_of_model hp ht] at h
      obtain ⟨changed, hchanged, rfl⟩ := within_eq_error h
      exact .set_opened hs hmem ht (hn t (hs.nested hmem ht) _ _ hchanged)

theorem agree_of_set_error {s : Schema} (hs : s.Sound) {name : String} {what : Write}
    {slots slots' : List Slot} {e : Error} (h : set s name what slots = .error e slots') :
    Agree s slots slots' := by
  cases what with
  | set v =>
    refine agree_of_change_error hs (fun t ht a b hload => ?_) h
    obtain ⟨-, rfl⟩ := (load_eq_error_iff ht).1 hload
    exact .refl ht b
  | clear => exact agree_of_change_error hs (fun t ht a b hclear => by cases hclear) h

/-- On the way to a field that cannot be written, nested instances are opened, but no more. -/
theorem agree_of_setAt_error {s : Schema} (hs : s.Sound) {names : List String} {what : Write}
    {slots slots' : List Slot} {e : Error} (h : setAt s what names slots = .error e slots') :
    Agree s slots slots' := by
  induction names generalizing s slots slots' with
  | nil =>
    cases h
    exact .refl hs slots
  | cons name rest ih =>
    by_cases hrest : rest = []
    · subst hrest
      exact agree_of_set_error hs h
    cases hp : s.resolve? name with
    | none =>
      rw [setAt_cons_of_unbound hp hrest] at h
      cases h
      exact .refl hs slots
    | some p =>
      have hmem := Schema.mem_of_resolve? hp
      cases hk : p.target.schema? with
      | none =>
        rw [setAt_cons_of_leaf hp hk hrest] at h
        cases h
        exact .refl hs slots
      | some t =>
        rw [setAt_cons_of_model hp hk hrest] at h
        obtain ⟨changed, hchanged, rfl⟩ := within_eq_error h
        exact .set_opened hs hmem hk (ih (hs.nested hmem hk) hchanged)

end Storage

namespace Model

/-- Something that is tried on a model and may fail. -/
inductive Attempt where
  /-- Give a field a value. -/
  | set (name : String) (v : Value)
  /-- Take a field's value away. -/
  | clearField (name : String)
  /-- Write the field at the end of a chain of names. -/
  | writeAt (names : List String) (what : Write)
  /-- Load values by name. -/
  | bind (pairs : List (String × Value))
  /-- Load a payload. -/
  | setState (p : Payload)
  /-- Load a value. -/
  | loadState (v : Value)
  /-- Load an encoded payload. -/
  | load (w : Workspace) (t : Target) (payload : List UInt8) (call : Settings)

/-- Try it. -/
def Attempt.run : Attempt → Update Unit
  | .set name v => Model.set name v
  | .clearField name => Model.clearField name
  | .writeAt names what => Model.writeAt names what
  | .bind pairs => Model.bind pairs
  | .setState p => Model.setState p
  | .loadState v => Model.loadState v
  | .load w t payload call => Model.load w t payload call

theorem changing_eq_error {change : Schema → Storage.Change Unit} {m m' : Model} {e : Error}
    (h : changing change m = .error e m') :
    ∃ slots, change m.schema m.slots = .error e slots ∧ m' = { m with slots := slots } := by
  rw [changing] at h
  cases hc : change m.schema m.slots with
  | ok u slots =>
    rw [hc] at h
    cases h
  | error e' slots =>
    rw [hc] at h
    cases h
    exact ⟨slots, rfl, rfl⟩

theorem answer_changing (change : Schema → Storage.Change Unit) (m : Model) :
    Outcome.answer (changing change) m = Outcome.answer (change m.schema) m.slots := by
  rw [Outcome.answer, changing, Outcome.answer]
  cases change m.schema m.slots <;> rfl

theorem left_changing (change : Schema → Storage.Change Unit) (m : Model) :
    Outcome.left (changing change) m =
      { m with slots := Outcome.left (change m.schema) m.slots } := by
  rw [Outcome.left, changing, Outcome.left]
  cases change m.schema m.slots <;> rfl

theorem agree_of_changing_error {change : Schema → Storage.Change Unit} {m m' : Model} {e : Error}
    (hchange : ∀ slots, change m.schema m.slots = .error e slots →
      Storage.Agree m.schema m.slots slots)
    (h : changing change m = .error e m') : m.Agree m' := by
  obtain ⟨slots, hslots, rfl⟩ := changing_eq_error h
  exact ⟨rfl, hchange slots hslots⟩

theorem Agree.refl {m : Model} (hs : m.schema.Sound) : m.Agree m :=
  ⟨rfl, .refl hs m.slots⟩

theorem setState_eq_error_iff {m m' : Model} (hs : m.schema.Sound) {p : Payload} {e : Error} :
    setState p m = .error e m' ↔ Storage.check m.schema p.asValue = .error e ∧ m' = m := by
  rw [← Storage.checkPayload_eq]
  constructor
  · intro h
    obtain ⟨slots, hslots, rfl⟩ := changing_eq_error h
    obtain ⟨hcheck, rfl⟩ := (Storage.loadPayload_eq_error_iff hs).1 hslots
    exact ⟨hcheck, rfl⟩
  · rintro ⟨hcheck, rfl⟩
    rw [setState, changing, (Storage.loadPayload_eq_error_iff hs).2 ⟨hcheck, rfl⟩]

theorem agree_of_loadState_error {m m' : Model} (hs : m.schema.Sound) {v : Value} {e : Error}
    (h : loadState v m = .error e m') : m.Agree m' := by
  rw [loadState] at h
  cases hp : Payload.ofValue v with
  | ok p =>
    rw [hp] at h
    obtain ⟨-, rfl⟩ := (setState_eq_error_iff hs).1 h
    exact .refl hs
  | error e' =>
    rw [hp] at h
    cases h
    exact .refl hs

theorem agree_of_error {m m' : Model} (hs : m.schema.Sound) {a : Attempt} {e : Error}
    (h : a.run m = .error e m') : m.Agree m' := by
  cases a with
  | set name v =>
    change changing (fun s => Storage.set s name (.set v)) m = .error e m' at h
    exact agree_of_changing_error (fun _ => Storage.agree_of_set_error hs) h
  | clearField name =>
    change changing (fun s => Storage.set s name .clear) m = .error e m' at h
    exact agree_of_changing_error (fun _ => Storage.agree_of_set_error hs) h
  | writeAt names what =>
    change changing (fun s => Storage.setAt s what names) m = .error e m' at h
    exact agree_of_changing_error (fun _ => Storage.agree_of_setAt_error hs) h
  | bind pairs =>
    obtain ⟨-, rfl⟩ := (setState_eq_error_iff hs).1 h
    exact .refl hs
  | setState p =>
    obtain ⟨-, rfl⟩ := (setState_eq_error_iff hs).1 h
    exact .refl hs
  | loadState v => exact agree_of_loadState_error hs h
  | load w t payload call =>
    change load w t payload call m = .error e m' at h
    rw [load] at h
    cases hr : m.rawOf w t payload call with
    | ok raw =>
      rw [hr] at h
      exact agree_of_loadState_error hs h
    | error e' =>
      rw [hr] at h
      cases h
      exact .refl hs

/-- **Whatever fails changes nothing that can be read**, and loading a payload fails exactly if it
has a misfit; then the error names the kind of the first one's value. -/
theorem sameView_of_error {m : Model} (hs : Everywhere Schema.Compiled m.schema) :
    (∀ (a : Attempt) (e : Error) (m' : Model), a.run m = .error e m' → m.SameView m') ∧
      ∀ p : Payload,
        ((∃ e m', setState p m = .error e m') ↔
          ∃ is x, Storage.Misfit m.schema p.asValue is x) ∧
        ∀ e m', setState p m = .error e m' →
          ∃ is x, Storage.FirstMisfit m.schema p.asValue is x ∧ e = .unsupportedPayload x.kind := by
  have hsound := Schema.sound_of_compiled hs
  refine ⟨fun a e m' h => (agree_of_error hsound h).sameView, fun p => ?_⟩
  obtain ⟨hok, herror⟩ := Storage.check_spec hsound p.asValue
  have hfirst : ∀ e m', setState p m = .error e m' →
      ∃ is x, Storage.FirstMisfit m.schema p.asValue is x ∧ e = .unsupportedPayload x.kind :=
    fun e m' h => herror e ((setState_eq_error_iff hsound).1 h).1
  refine ⟨⟨fun ⟨e, m', h⟩ => ?_, fun ⟨is, x, h⟩ => ?_⟩, hfirst⟩
  · obtain ⟨is, x, hx, -⟩ := hfirst e m' h
    exact ⟨is, x, hx.misfit⟩
  · cases hcheck : Storage.check m.schema p.asValue with
    | ok u => exact absurd h (hok hcheck is x)
    | error e => exact ⟨e, m, (setState_eq_error_iff hsound).2 ⟨hcheck, rfl⟩⟩

/-- A person does not take a number for a home, and does not take the name that came with it. -/
theorem sameView_of_person :
    Everywhere Schema.Compiled (new Schema.Sample.person).schema ∧
      ∃ e m', setState (.mapping [("name", .string "Ada"), ("home", .integer 1)])
          (new Schema.Sample.person) = .error e m' ∧
        (new Schema.Sample.person).SameView m' ∧
        ∃ is x, Storage.FirstMisfit Schema.Sample.person
            (.map [("name", .string "Ada"), ("home", .integer 1)]) is x ∧
          e = .unsupportedPayload x.kind := by
  have hs : Everywhere Schema.Compiled (new Schema.Sample.person).schema :=
    (Schema.Sample.everywhere_kept (fun _ => True) fun _ _ => trivial).mono fun _ =>
      Schema.Kept.compiled
  obtain ⟨hview, hload⟩ := sameView_of_error hs
  have hmisfit : Storage.Misfit Schema.Sample.person
      (.map [("name", .string "Ada"), ("home", .integer 1)]) [1] (.integer 1) :=
    .inside (i := 1) rfl rfl (.here (by decide) (by decide))
  obtain ⟨e, m', h⟩ := (hload (.mapping _)).1.2 ⟨_, _, hmisfit⟩
  exact ⟨hs, e, m', h, hview (.setState _) e m' h, (hload (.mapping _)).2 e m' h⟩

end Model

end VersionedModel
