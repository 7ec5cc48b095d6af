import VersionedModel.Proofs.Model.FailedUpdates

/-!
# Entries in another order

A mapping that passes its check is loaded by writing its entries one after the other, each into the
slot of its own primary (`Storage.loadPayload_mapping`). Entries that go to different primaries do
not get into each other's way, so they may be loaded in any order
(`Storage.alike_loadPayload_perm`), and an entry that shares its primary with none behind it may be
loaded last (`Storage.foldl_put_append_cons`). A sequence is a mapping under the names of the
primaries (`Storage.loadPayload_sequence`).
-/

namespace VersionedModel

namespace Storage

variable {s : Schema}

/-! ### Writing an entry -/

/-- The slot of a primary after it was given a value that it can be given. -/
def taken (p : Primary (Component Schema)) (v : Value) (slots : List Slot) : Slot :=
  match p.target.schema? with
  | some t => .opened (Outcome.left (load t v) (inner t slots p.slot))
  | none => .leaf (some v)

/-- A storage after an entry was written; a name that is not bound is left out. -/
def put (s : Schema) (slots : List Slot) (e : String × Value) : List Slot :=
  match s.resolve? e.1 with
  | some p => slots.set p.slot (taken p e.2 slots)
  | none => slots

theorem taken_of_leaf {p : Primary (Component Schema)} (hk : p.target.schema? = none) (v : Value)
    (slots : List Slot) : taken p v slots = .leaf (some v) := by
  rw [taken, hk]

theorem taken_of_model {p : Primary (Component Schema)} {t : Schema}
    (ht : p.target.schema? = some t) (v : Value) (slots : List Slot) :
    taken p v slots = .opened (Outcome.left (load t v) (inner t slots p.slot)) := by
  rw [taken, ht]

theorem put_of_resolve? {p : Primary (Component Schema)} {e : String × Value}
    (hp : s.resolve? e.1 = some p) (slots : List Slot) :
    put s slots e = slots.set p.slot (taken p e.2 slots) := by
  rw [put, hp]

theorem put_of_unbound {e : String × Value} (hp : s.resolve? e.1 = none) (slots : List Slot) :
    put s slots e = slots := by
  rw [put, hp]

theorem length_put (slots : List Slot) (e : String × Value) :
    (put s slots e).length = slots.length := by
  cases hp : s.resolve? e.1 with
  | none => rw [put_of_unbound hp]
  | some p => rw [put_of_resolve? hp, List.length_set]

theorem length_foldl_put (es : List (String × Value)) (slots : List Slot) :
    (es.foldl (put s) slots).length = slots.length := by
  induction es generalizing slots with
  | nil => rfl
  | cons e es ih => rw [List.foldl_cons, ih, length_put]

/-- What passes the check is written into the primary's slot. -/
theorem change_eq_put (hs : s.Sound) {p : Primary (Component Schema)} {e : String × Value}
    (hp : s.resolve? e.1 = some p) (hv : checkAt s e.1 e.2 = .ok ()) (slots : List Slot) :
    change s e.1 (some e.2) (fun t => load t e.2) slots = .ok () (put s slots e) := by
  rw [put_of_resolve? hp]
  cases ht : p.target.schema? with
  | none => rw [change_of_leaf hp ht, taken_of_leaf ht]
  | some t =>
    obtain ⟨after, hafter⟩ :=
      exists_load_of_check (hs.nested (Schema.mem_of_resolve? hp) ht) e.2
        (checkAt_of_nested hp ht e.2 ▸ hv) (inner t slots p.slot)
    rw [change_of_model hp ht, within_of_ok hafter, taken_of_model ht, Outcome.left, hafter]

/-- What does not pass the check is meant for a nested instance, which refuses it. -/
theorem change_eq_ok_iff (hs : s.Sound) {p : Primary (Component Schema)} {e : String × Value}
    (hp : s.resolve? e.1 = some p) {slots after : List Slot} :
    change s e.1 (some e.2) (fun t => load t e.2) slots = .ok () after ↔
      checkAt s e.1 e.2 = .ok () ∧ after = put s slots e := by
  cases hv : checkAt s e.1 e.2 with
  | ok u =>
    rw [change_eq_put hs hp hv]
    exact ⟨fun h => by cases h; exact ⟨rfl, rfl⟩, fun h => by rw [h.2]⟩
  | error err =>
    refine ⟨fun h => ?_, nofun⟩
    cases ht : p.target.schema? with
    | none =>
      rw [checkAt_of_leaf hp ht] at hv
      cases hv
    | some t =>
      rw [checkAt_of_nested hp ht] at hv
      rw [change_of_model hp ht, within,
        (load_eq_error_iff (hs.nested (Schema.mem_of_resolve? hp) ht)).2 ⟨hv, rfl⟩] at h
      cases h

/-! ### Writing all entries -/

theorem checkEntries_eq_ok {es : List (String × Value)} :
    checkEntries s es = .ok () ↔ ∀ e ∈ es, checkAt s e.1 e.2 = .ok () := by
  rw [checkEntries_eq, Outcome.forM_eq_ok, List.forall_mem_map]
  simp only [checkAt_eq_checkGiven]

theorem putEntries_eq_foldl (hs : s.Sound) {es : List (String × Value)}
    (h : ∀ e ∈ es, checkAt s e.1 e.2 = .ok ()) (slots : List Slot) :
    putEntries s es slots = .ok () (es.foldl (put s) slots) := by
  induction es generalizing slots with
  | nil => rfl
  | cons e es ih =>
    obtain ⟨he, h⟩ := List.forall_mem_cons.1 h
    rw [List.foldl_cons, ← ih h]
    by_cases hb : s.binds e.1 = true
    · obtain ⟨p, -, hp⟩ := hs.exists_resolve? hb
      exact putEntries_cons_of_binds hb (change_eq_put hs hp he slots)
    · rw [put_of_unbound (Bindings.resolve?_of_not_contains hb)]
      exact putEntries_cons_of_not_binds hb

/-- **A mapping that passes its check is loaded entry by entry**; one that does not fails and
changes nothing. -/
theorem loadPayload_mapping (hs : s.Sound) (es : List (String × Value)) (slots : List Slot) :
    ((∀ e ∈ es, checkAt s e.1 e.2 = .ok ()) →
        loadPayload s (.mapping es) slots = .ok () (es.foldl (put s) slots)) ∧
      ((∃ e ∈ es, checkAt s e.1 e.2 ≠ .ok ()) →
        ∃ e, loadPayload s (.mapping es) slots = .error e slots) := by
  constructor
  · intro h
    rw [loadPayload, checkPayload, guarded_of_ok (checkEntries_eq_ok.2 h), putPayload,
      putEntries_eq_foldl hs h]
  · rintro ⟨e, he, hne⟩
    cases hcheck : checkEntries s es with
    | ok u => exact absurd (checkEntries_eq_ok.1 hcheck e he) hne
    | error err => exact ⟨err, (loadPayload_eq_error_iff hs).2 ⟨hcheck, rfl⟩⟩

theorem loadPayload_mapping_eq_ok_iff (hs : s.Sound) {es : List (String × Value)}
    {slots after : List Slot} :
    loadPayload s (.mapping es) slots = .ok () after ↔
      (∀ e ∈ es, checkAt s e.1 e.2 = .ok ()) ∧ after = es.foldl (put s) slots := by
  obtain ⟨hok, herror⟩ := loadPayload_mapping hs es slots
  by_cases hcheck : ∀ e ∈ es, checkAt s e.1 e.2 = .ok ()
  · rw [hok hcheck]
    exact ⟨fun h => by cases h; exact ⟨hcheck, rfl⟩, fun h => by rw [h.2]⟩
  · refine ⟨fun h => ?_, fun h => absurd h.1 hcheck⟩
    simp only [not_forall, exists_prop] at hcheck
    obtain ⟨err, herr⟩ := herror hcheck
    rw [herr] at h
    cases h

/-! ### Any order -/

/-- Two entries do not go to the same primary. -/
def Apart (s : Schema) (e f : String × Value) : Prop :=
  ∀ p, s.resolve? e.1 = some p → s.resolve? f.1 ≠ some p

/-- What a primary takes in is a matter of its own slot. -/
theorem taken_congr {q : Primary (Component Schema)} (v : Value) {slots slots' : List Slot}
    (h : slots'[q.slot]? = slots[q.slot]?) : taken q v slots' = taken q v slots := by
  cases ht : q.target.schema? with
  | none => rw [taken_of_leaf ht, taken_of_leaf ht]
  | some t => rw [taken_of_model ht, taken_of_model ht, inner, inner, h]

/-- What goes to different primaries can be written in either order. -/
theorem put_comm (hs : s.Sound) {e f : String × Value} (h : Apart s e f) (slots : List Slot) :
    put s (put s slots e) f = put s (put s slots f) e := by
  cases hp : s.resolve? e.1 with
  | none => rw [put_of_unbound hp, put_of_unbound hp]
  | some p =>
    cases hq : s.resolve? f.1 with
    | none => rw [put_of_unbound hq, put_of_unbound hq]
    | some q =>
      have hslot : p.slot ≠ q.slot := fun heq => h p hp <| by
        rw [hq, hs.here.eq_of_slot_eq (Schema.mem_of_resolve? hp) (Schema.mem_of_resolve? hq) heq]
      rw [put_of_resolve? hp, put_of_resolve? hq, put_of_resolve? hq, put_of_resolve? hp,
        taken_congr _ (List.getElem?_set_ne hslot), taken_congr _ (List.getElem?_set_ne hslot.symm),
        List.set_comm _ _ hslot]

theorem foldl_put_perm (hs : s.Sound) {es fs : List (String × Value)} (h : es.Perm fs)
    (hapart : ∀ e ∈ es, ∀ f ∈ es, e ≠ f → Apart s e f) (slots : List Slot) :
    es.foldl (put s) slots = fs.foldl (put s) slots := by
  refine h.foldl_eq' (fun e he f hf slots => ?_) slots
  by_cases hef : e = f
  · rw [hef]
  · exact (put_comm hs (hapart e he f hf hef) slots)

/-- An entry may wait for those that do not go to its primary. -/
theorem foldl_put_append_cons (hs : s.Sound) {e : String × Value} {fs gs : List (String × Value)}
    (h : ∀ g ∈ gs, Apart s e g) (slots : List Slot) :
    (fs ++ e :: gs).foldl (put s) slots = put s ((fs ++ gs).foldl (put s) slots) e := by
  rw [List.foldl_append, List.foldl_append, List.foldl_cons]
  generalize fs.foldl (put s) slots = mid
  induction gs generalizing mid with
  | nil => rfl
  | cons g gs ih =>
    obtain ⟨hg, h⟩ := List.forall_mem_cons.1 h
    rw [List.foldl_cons, List.foldl_cons, put_comm hs hg, ih h]

/-- **Entries that go to different primaries are loaded in any order.** -/
theorem alike_loadPayload_perm (hs : s.Sound) {es fs : List (String × Value)} (h : es.Perm fs)
    (hapart : ∀ e ∈ es, ∀ f ∈ es, e ≠ f → Apart s e f) (slots : List Slot) :
    Outcome.Alike (loadPayload s (.mapping es)) (loadPayload s (.mapping fs)) slots := by
  obtain ⟨hok, herror⟩ := loadPayload_mapping hs es slots
  obtain ⟨hok', herror'⟩ := loadPayload_mapping hs fs slots
  by_cases hcheck : ∀ e ∈ es, checkAt s e.1 e.2 = .ok ()
  · refine .inl ⟨_, hok hcheck, ?_⟩
    rw [foldl_put_perm hs h hapart]
    exact hok' fun e he => hcheck e (h.mem_iff.2 he)
  · simp only [not_forall, exists_prop] at hcheck
    obtain ⟨e, he, hne⟩ := hcheck
    obtain ⟨err, herr⟩ := herror ⟨e, he, hne⟩
    obtain ⟨err', herr'⟩ := herror' ⟨e, h.mem_iff.1 he, hne⟩
    exact .inr ⟨err, err', herr, herr'⟩

/-- Under the names of primaries, entries with different keys go to different primaries. -/
theorem apart_of_names (hs : s.Sound) {es : List (String × Value)}
    (hn : (es.map Prod.fst).Nodup) (hnames : ∀ e ∈ es, e.1 ∈ names s) :
    ∀ e ∈ es, ∀ f ∈ es, e ≠ f → Apart s e f := by
  intro e he f hf hne p hp hq
  obtain ⟨q, hq', hname⟩ := List.mem_map.1 (hnames e he)
  obtain ⟨r, hr, hname'⟩ := List.mem_map.1 (hnames f hf)
  have hp' : s.resolve? q.name = some q := hs.here.resolve?_name hq'
  have hq'' : s.resolve? r.name = some r := hs.here.resolve?_name hr
  rw [hname, hp] at hp'
  rw [hname', hq] at hq''
  cases hp'
  cases hq''
  exact hne (List.inj_on_of_nodup_map hn he hf (hname.symm.trans hname'))

/-! ### Slot by slot -/

section Slots

variable {p : Primary (Component Schema)} {es : List (String × Value)}

theorem getElem?_put_of_ne (hs : s.Sound) (hp : p ∈ s.primaries) {e : String × Value}
    (h : s.resolve? e.1 ≠ some p) (slots : List Slot) :
    (put s slots e)[p.slot]? = slots[p.slot]? := by
  cases hq : s.resolve? e.1 with
  | none => rw [put_of_unbound hq]
  | some q =>
    rw [put_of_resolve? hq]
    refine List.getElem?_set_ne fun hslot => h ?_
    rw [hq, hs.here.eq_of_slot_eq (Schema.mem_of_resolve? hq) hp hslot]

theorem getElem?_put_congr (hs : s.Sound) (hp : p ∈ s.primaries) (v : Value)
    {slots slots' : List Slot} (h : slots'[p.slot]? = slots[p.slot]?) :
    (put s slots' (p.name, v))[p.slot]? = (put s slots (p.name, v))[p.slot]? := by
  have hresolve : s.resolve? p.name = some p := hs.here.resolve?_name hp
  rw [put_of_resolve? (e := (p.name, v)) hresolve, put_of_resolve? (e := (p.name, v)) hresolve,
    List.getElem?_set_self', List.getElem?_set_self', taken_congr v h, h]

/-- Where no entry goes to a primary, its slot is as it was. -/
theorem getElem?_foldl_put_of_ne (hs : s.Sound) (hp : p ∈ s.primaries)
    (h : ∀ e ∈ es, s.resolve? e.1 ≠ some p) (slots : List Slot) :
    (es.foldl (put s) slots)[p.slot]? = slots[p.slot]? := by
  induction es generalizing slots with
  | nil => rfl
  | cons e es ih =>
    obtain ⟨he, h⟩ := List.forall_mem_cons.1 h
    rw [List.foldl_cons, ih h, getElem?_put_of_ne hs hp he]

/-- **Where one entry goes to a primary, its slot is as if this entry alone were written.** -/
theorem getElem?_foldl_put_of_mem (hs : s.Sound) (hp : p ∈ s.primaries)
    (hn : (es.map Prod.fst).Nodup) (hnames : ∀ e ∈ es, e.1 ∈ names s) {v : Value}
    (hv : (p.name, v) ∈ es) (slots : List Slot) :
    (es.foldl (put s) slots)[p.slot]? = (put s slots (p.name, v))[p.slot]? := by
  have hresolve : s.resolve? p.name = some p := hs.here.resolve?_name hp
  have hapart := apart_of_names hs hn hnames
  induction es generalizing slots with
  | nil => cases hv
  | cons e es ih =>
    rw [List.foldl_cons]
    rw [List.map_cons, List.nodup_cons] at hn
    rcases List.mem_cons.1 hv with rfl | hmem
    · refine getElem?_foldl_put_of_ne hs hp (fun f hf => ?_) _
      refine hapart _ List.mem_cons_self f (List.mem_cons_of_mem _ hf) ?_ p hresolve
      rintro rfl
      exact hn.1 (List.mem_map_of_mem hf)
    · have hne : s.resolve? e.1 ≠ some p := by
        refine hapart _ hv e List.mem_cons_self ?_ p hresolve
        rintro rfl
        exact hn.1 (List.mem_map_of_mem hmem)
      rw [ih hn.2 (fun f hf => hnames f (List.mem_cons_of_mem _ hf)) hmem _
        fun f hf g hg => hapart f (List.mem_cons_of_mem _ hf) g (List.mem_cons_of_mem _ hg)]
      exact getElem?_put_congr hs hp v (getElem?_put_of_ne hs hp hne slots)

end Slots

/-! ### Sequences -/

theorem checkItems_eq_checkEntries (ns : List String) (items : List Value) :
    checkItems s ns items = checkEntries s (ns.zip items) := by
  induction ns generalizing items with
  | nil => rw [checkItems]; rfl; simp
  | cons n ns ih =>
    cases items with
    | nil => rw [checkItems]; rfl; simp
    | cons v items => rw [List.zip_cons_cons, checkItems_cons, checkEntries_cons, ih]

theorem putItems_eq_putEntries {ns : List String} (hn : ∀ n ∈ ns, s.binds n = true)
    (items : List Value) : putItems s ns items = putEntries s (ns.zip items) := by
  induction ns generalizing items with
  | nil => rw [putItems]; rfl; simp
  | cons n ns ih =>
    obtain ⟨hb, hn⟩ := List.forall_mem_cons.1 hn
    cases items with
    | nil => rw [putItems]; rfl; simp
    | cons v items => rw [List.zip_cons_cons, putItems, putEntries, if_pos hb, ih hn]

theorem keys_zip_names_sublist (s : Schema) (vs : List Value) :
    (((names s).zip vs).map Prod.fst).Sublist (names s) := by
  rw [List.zip_eq_zip_take_min, List.map_fst_zip (by simp)]
  exact List.take_sublist _ _

/-- **A sequence is loaded like a mapping under the names of the primaries.** -/
theorem loadPayload_sequence (s : Schema) (items : List Value) :
    loadPayload s (.sequence items) = loadPayload s (.mapping ((names s).zip items)) := by
  have hbinds : ∀ n ∈ names s, s.binds n = true := fun n hn => by
    obtain ⟨p, hp, rfl⟩ := List.mem_map.1 hn
    exact Bindings.contains_name hp
  rw [loadPayload, loadPayload, checkPayload, checkPayload, putPayload, putPayload,
    checkItems_eq_checkEntries, putItems_eq_putEntries hbinds]

end Storage

namespace Model

/-- Changes that do the same to what a model stores do the same to the model. -/
theorem alike_changing {m : Model} {f g : Schema → Storage.Change Unit}
    (h : Outcome.Alike (f m.schema) (g m.schema) m.slots) :
    Outcome.Alike (changing f) (changing g) m := by
  rw [Outcome.Alike]
  simp only [changing]
  rcases h with ⟨after, hf, hg⟩ | ⟨e, e', hf, hg⟩
  · rw [hf, hg]
    exact .inl ⟨_, rfl, rfl⟩
  · rw [hf, hg]
    exact .inr ⟨e, e', rfl, rfl⟩

end Model

end VersionedModel
