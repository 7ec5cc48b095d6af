import VersionedModel.Model.Data
import VersionedModel.Proofs.Model.Gaps
import VersionedModel.Proofs.Model.PathAccess
import VersionedModel.Proofs.Model.Restoring
import VersionedModel.Proofs.Portable

/-!
# Records as states

A record is written into the leaves that have the names of its fields, and into no others
(`Storage.exists_loadPayload_of_leaves`). If these leaves take part, and if no other leaf that takes
part is a gap, the record is what the state is read as afterwards
(`Model.exists_setStateFrom_of_record`). Accounts are records (`Model.stateAs_setStateFrom`).
-/

namespace VersionedModel

namespace Storage

variable {s : Schema} {es : List (String × Value)}

/-- Every entry has the name of a leaf. -/
def ForLeaves (s : Schema) (es : List (String × Value)) : Prop :=
  ∀ e ∈ es, ∃ p ∈ s.primaries, p.name = e.1 ∧ p.target.schema? = none

/-- The leaves that are named in the entries hold the values, and all else is as it was. -/
structure Written (s : Schema) (es : List (String × Value)) (slots after : List Slot) : Prop where
  taken : ∀ p ∈ s.primaries, ∀ v, (p.name, v) ∈ es → after[p.slot]? = some (.leaf (some v))
  kept : ∀ p ∈ s.primaries, p.name ∉ es.map Prod.fst → after[p.slot]? = slots[p.slot]?

/-- Only a leaf has the name of an entry. -/
theorem ForLeaves.schema?_eq_none (h : ForLeaves s es) (hs : s.Sound)
    {p : Primary (Component Schema)} (hp : p ∈ s.primaries) (hname : p.name ∈ es.map Prod.fst) :
    p.target.schema? = none := by
  obtain ⟨e, he, hkey⟩ := List.mem_map.1 hname
  obtain ⟨q, hq, hq', hleaf⟩ := h e he
  obtain rfl := hs.here.eq_of_name_eq hq hp (hq'.trans hkey)
  exact hleaf

/-- **Values under the names of leaves are written into these leaves and nowhere else.** -/
theorem exists_loadPayload_of_leaves (hs : s.Sound) (hn : (es.map Prod.fst).Nodup)
    (hes : ForLeaves s es) {slots : List Slot} (hfits : Fits s slots) :
    ∃ after, loadPayload s (.mapping es) slots = .ok () after ∧ Written s es slots after := by
  have hresolve : ∀ p ∈ s.primaries, s.resolve? p.name = some p := fun p hp =>
    hs.here.resolve?_name hp
  have hcheck : ∀ e ∈ es, checkAt s e.1 e.2 = .ok () := by
    intro e he
    obtain ⟨p, hp, hname, hleaf⟩ := hes e he
    exact checkAt_of_leaf (hname ▸ hresolve p hp) hleaf e.2
  have hnames : ∀ e ∈ es, e.1 ∈ names s := by
    intro e he
    obtain ⟨p, hp, hname, -⟩ := hes e he
    exact hname ▸ List.mem_map_of_mem hp
  refine ⟨_, (loadPayload_mapping hs es slots).1 hcheck, fun p hp v hv => ?_,
    fun p hp habsent => ?_⟩
  · have hleaf := hes.schema?_eq_none hs hp (List.mem_map_of_mem hv)
    rw [getElem?_foldl_put_of_mem hs hp hn hnames hv, put_of_resolve? (hresolve p hp),
      taken_of_leaf hleaf, List.getElem?_set_self (hfits.slot_lt hs hp)]
  · refine getElem?_foldl_put_of_ne hs hp (fun e he hgoes => habsent ?_) slots
    obtain ⟨q, hq, hname, -⟩ := hes e he
    rw [← hname, hresolve q hq] at hgoes
    obtain rfl := Option.some.inj hgoes
    exact hname ▸ List.mem_map_of_mem he

end Storage

namespace Model

open Schema (Compiled Everywhere)
open Storage (ForLeaves Written)

/-! ### After values were written into leaves -/

section Written

variable {w : Workspace} {m : Model} {es : List (String × Value)} {after : List Slot}
  {call : Settings}

/-- A leaf that takes part was written, or is no gap because it was none before. -/
theorem held?_ne_none_of_written (hs : m.schema.Sound) (hes : ForLeaves m.schema es)
    (hw : Written m.schema es m.slots after)
    (hothers : ∀ l ∈ m.leavesUnder w call,
      (∀ name ∈ es.map Prod.fst, l.names ≠ [name]) → m.held? l ≠ none) {l : Leaf}
    (hl : l ∈ m.leavesUnder w call) : held? { m with slots := after } l ≠ none := by
  obtain ⟨p, hp, -, hcases⟩ := mem_leavesUnder_cases hl
  by_cases hname : p.name ∈ es.map Prod.fst
  · have hleaf := hes.schema?_eq_none hs hp hname
    obtain ⟨-, rfl⟩ | ⟨t, l', ht, -, -⟩ := hcases
    · obtain ⟨e, he, hkey⟩ := List.mem_map.1 hname
      have hslot : after[p.slot]? = some (.leaf (some e.2)) :=
        hw.taken p hp e.2 (hkey ▸ he)
      rw [held?_of_way_nil, Storage.stored?, hslot]
      simp
    · rw [hleaf] at ht
      cases ht
  · have hslot := hw.kept p hp hname
    -- On either way the primary comes first, so the place and the name are its own.
    have hplace : Storage.storedAt? after l.place = Storage.storedAt? m.slots l.place ∧
        ∀ name, l.names = [name] → p.name = name := by
      obtain ⟨-, rfl⟩ | ⟨t, l', -, -, rfl⟩ := hcases
      · exact ⟨Storage.storedAt?_congr hslot, fun name hnames => (List.cons.inj hnames).1⟩
      · exact ⟨Storage.storedAt?_congr hslot, fun name hnames => (List.cons.inj hnames).1⟩
    rw [held?_congr hplace.1]
    exact hothers l hl fun name hmem hnames => hname (hplace.2 name hnames ▸ hmem)

/-- What was written into a leaf that takes part is in the snapshot. -/
theorem get?_snapshot_of_written (hs : m.schema.Sound) (hw : Written m.schema es m.slots after)
    {st : State} (hst : snapshot? w { m with slots := after } none call = .ok st)
    {p : Primary (Component Schema)} (hp : p ∈ m.schema.primaries)
    (hleaf : p.target.schema? = none) (htakes : m.admits w call p = true) {v : Value}
    (hv : (p.name, v) ∈ es) : Entries.get? p.name st.toList = some v := by
  obtain ⟨x, hx, hmem⟩ := mem_of_entries
    ((snapshot?_eq_ok (m := { m with slots := after }) hs.here.nodup_names).1 hst)
    (List.mem_filter.2 ⟨hp, htakes⟩)
  rw [gives_of_leaf hleaf, Storage.stored?, hw.taken p hp v hv] at hx
  cases hx
  exact Entries.get?_eq_some_of_mem
    (nodup_keys_of_snapshot (m := { m with slots := after }) hs.here.nodup_names hst) hmem

/-- What is read behind a name is a matter of the slot of the name's primary. -/
theorem readAt_cons_congr {name : String}
    (h : ∀ p, m.schema.resolve? name = some p → after[p.slot]? = m.slots[p.slot]?)
    (names : List String) :
    readAt { m with slots := after } (name :: names) = m.readAt (name :: names) := by
  cases hp : m.schema.resolve? name with
  | none =>
    rw [readAt_cons_of_unbound hp, readAt_cons_of_unbound (m := { m with slots := after }) hp]
  | some p =>
    have hslot := h p hp
    by_cases hnames : names = []
    · subst hnames
      have hread : readPrimary { m with slots := after } p name = m.readPrimary p name :=
        readPrimary_of_slot_eq (by rfl) hslot name
      rw [readAt, readAt, read_of_resolve? hp, read_of_resolve? (m := { m with slots := after }) hp,
        hread]
    · cases hk : p.target.schema? with
      | none =>
        rw [readAt_cons_of_leaf hp hk hnames,
          readAt_cons_of_leaf (m := { m with slots := after }) hp hk hnames]
      | some t =>
        have ht := Component.schema?_eq_some_iff.1 hk
        rw [readAt_cons_of_resolve? hp ht hnames,
          readAt_cons_of_resolve? (m := { m with slots := after }) hp ht hnames, Storage.inner,
          Storage.inner, hslot]

end Written

/-! ### Records -/

/-- **A record that is written as a state is what the state is read as.** The leaves that have the
names of its fields must take part, and no other leaf that takes part may be a gap. What is read
behind the names of other primaries stays the same. -/
theorem exists_setStateFrom_of_record {α : Type} [Portable α] {a : α}
    {entries : List (String × Value)} (ha : Portable.IsRecord a entries) {w : Workspace} {m : Model}
    (hcompiled : Everywhere Compiled m.schema) (hm : m.Reachable) {call : Settings}
    (hfields : ∀ name ∈ Portable.fields α, ∃ p ∈ m.schema.primaries,
      p.name = name ∧ p.target.schema? = none ∧ m.admits w call p = true)
    (hothers : ∀ l ∈ m.leavesUnder w call,
      (∀ name ∈ Portable.fields α, l.names ≠ [name]) → m.held? l ≠ none) :
    ∃ m', setStateFrom a m = .ok () m' ∧ m'.stateAs α w call = .ok a ∧
      ∀ name names, (∀ p, m.schema.resolve? name = some p → p.name ∉ Portable.fields α) →
        m'.readAt (name :: names) = m.readAt (name :: names) := by
  have hs := Schema.sound_of_compiled hcompiled
  simp only [← ha.mem_keys_iff] at hfields hothers ⊢
  have hes : ForLeaves m.schema entries := by
    intro e he
    obtain ⟨p, hp, hname, hleaf, -⟩ := hfields e.1 (List.mem_map_of_mem he)
    exact ⟨p, hp, hname, hleaf⟩
  obtain ⟨after, hload, hw⟩ :=
    Storage.exists_loadPayload_of_leaves hs ha.nodup_keys hes (hm.fits hs)
  have hheld : ∀ l ∈ leavesUnder w { m with slots := after } call,
      held? { m with slots := after } l ≠ none := by
    intro l hl
    rw [leavesUnder_congr (m := m) (n := { m with slots := after }) rfl rfl] at hl
    exact held?_ne_none_of_written hs hes hw hothers hl
  obtain ⟨st, hst⟩ := exists_snapshot_of_held (m := { m with slots := after }) hs hheld
  have hkeys : (st.toList.map Prod.fst).Nodup :=
    nodup_keys_of_snapshot (m := { m with slots := after }) hs.here.nodup_names hst
  refine ⟨{ m with slots := after }, ?_, ?_, fun name names hname => ?_⟩
  · rw [setStateFrom, ha.ofData_eq]
    change changing (fun s => Storage.loadPayload s (.mapping entries)) m = _
    rw [changing, hload]
  · rw [stateAs, hst]
    refine ha.toData_eq _ (Dict.sorted _).nodup_keys fun e he => ?_
    obtain ⟨p, hp, hname, hleaf, htakes⟩ := hfields e.1 (List.mem_map_of_mem he)
    rw [State.toDict, Dict.ofList, Entries.get?_ofList hkeys, ← hname]
    exact get?_snapshot_of_written hs hw hst hp hleaf htakes (hname ▸ he)
  · exact readAt_cons_congr (fun p hp =>
      hw.kept p (Schema.mem_of_resolve? hp) (hname p hp)) names

/-- **An account that is written as a state is what the state is read as**, if its limit is finite or
absent. The model may have any fields besides those of the account, nested models and aliases among
them, in any order; those of the account must be leaves that take part, and every other leaf that
takes part, at any depth, must have a value or a default. What is read of the other fields, and of
what is in them, stays the same. -/
theorem stateAs_setStateFrom {w : Workspace} {m : Model}
    (hcompiled : Everywhere Compiled m.schema) (hm : m.Reachable) {x : Account}
    (hlimit : ∀ y, x.limit = some y → y.isFinite = true) {call : Settings}
    (hfields : ∀ name ∈ ["id", "owner", "tags", "limit"], ∃ p ∈ m.schema.primaries,
      p.name = name ∧ p.target.schema? = none ∧ m.admits w call p = true)
    (hothers : ∀ l ∈ m.leavesUnder w call,
      (∀ name ∈ ["id", "owner", "tags", "limit"], l.names ≠ [name]) → m.held? l ≠ none) :
    ∃ m', setStateFrom x m = .ok () m' ∧ m'.stateAs Account w call = .ok x ∧
      ∀ name names,
        (∀ p, m.schema.resolve? name = some p → p.name ∉ ["id", "owner", "tags", "limit"]) →
          m'.readAt (name :: names) = m.readAt (name :: names) :=
  exists_setStateFrom_of_record (Portable.isRecord_account hlimit) hcompiled hm hfields hothers

end Model

/-! ### A customer with an account -/

namespace Schema.Sample

/-- The customer, who lives at an address and has an account; the owner of the account is also called
its holder, and customers are rated. -/
def customerDeclaration : Declaration where
  name := "customer"
  settings := ∅
  rule := .version .usual
  members := [.field "limit" (.kind .float), .field "home" (.model address),
    .field "owner" (.kind .string), .aliasOf "holder" "owner", .field "tags" (.kind .array),
    .field "rating" (.kind .integer), .field "id" (.kind .integer)]

/-- The customer, compiled. -/
def customer : Schema :=
  .mk "customer" ∅ 2
    [.primary "limit" 0 { Component.ofKind (.leaf .float) with id := 3, name := some "limit" },
      .primary "home" 1 { Component.ofKind (.model address) with id := 4, name := some "home" },
      .primary "owner" 2 { Component.ofKind (.leaf .string) with id := 5, name := some "owner" },
      .aliasOf "holder" "owner",
      .primary "tags" 3 { Component.ofKind (.leaf .array) with id := 6, name := some "tags" },
      .primary "rating" 4 { Component.ofKind (.leaf .integer) with id := 7, name := some "rating" },
      .primary "id" 5 { Component.ofKind (.leaf .integer) with id := 8, name := some "id" }]

/-- What is there after the customer was compiled in the town. -/
def bank : Workspace := town.run [.build customerDeclaration]

theorem compiled_address : Everywhere Compiled address := by
  refine .intro ⟨.build addressDeclaration, start, start.run [.build addressDeclaration],
    ⟨[.declare city], rfl⟩, rfl⟩ fun p hp t ht => ?_
  simp only [address, primaries, bindings, Bindings.primaries, List.mem_singleton] at hp
  subst hp
  cases ht

theorem compiled_customer : Everywhere Compiled customer := by
  refine .intro ⟨.build customerDeclaration, town, bank,
    ⟨[.declare city, .build addressDeclaration, .build personDeclaration], rfl⟩, rfl⟩
    fun p hp t ht => ?_
  simp only [customer, primaries, bindings, Bindings.primaries, List.mem_cons, List.not_mem_nil,
    or_false] at hp
  rcases hp with rfl | rfl | rfl | rfl | rfl | rfl
  · cases ht
  · cases ht
    exact compiled_address
  all_goals cases ht

end Schema.Sample

namespace Model

open Schema (Compiled Everywhere)
open Schema.Sample (bank customer)

/-- A customer without an account who lives in Lima and was made with a rating. -/
def newcomer : Model :=
  { new customer with
    defaults := .ofList [("rating", .integer 3)]
    slots := [.leaf none, .opened [.leaf (some (.string "Lima"))], .leaf none, .leaf none,
      .leaf none, .leaf none] }

/-- Rosa's account. -/
def rosasAccount : Account :=
  ⟨7, "Rosa", ["new", "local"], some (.ofInt 100)⟩

/-- Under version 2, where a home has a city, the customer takes Rosa's account and stays where he
lives. -/
theorem stateAs_setStateFrom_of_newcomer :
    Everywhere Compiled newcomer.schema ∧ newcomer.Reachable ∧
      (Binary64.ofInt 100).isFinite = true ∧
      (∀ name ∈ ["id", "owner", "tags", "limit"], ∃ p ∈ newcomer.schema.primaries,
        p.name = name ∧ p.target.schema? = none ∧
          newcomer.admits bank (.ofList [(versionKey, .integer 2)]) p = true) ∧
      (∀ l ∈ newcomer.leavesUnder bank (.ofList [(versionKey, .integer 2)]),
        (∀ name ∈ ["id", "owner", "tags", "limit"], l.names ≠ [name]) →
          newcomer.held? l ≠ none) ∧
      ∃ m', setStateFrom rosasAccount newcomer = .ok () m' ∧
        m'.stateAs Account bank (.ofList [(versionKey, .integer 2)]) = .ok rosasAccount ∧
        m'.readAt ["home", "city"] = .ok (.value (.string "Lima")) ∧
        m'.readAt ["rating"] = .ok (.value (.integer 3)) := by
  have hcompiled : Everywhere Compiled newcomer.schema := Schema.Sample.compiled_customer
  have hreachable : newcomer.Reachable :=
    ⟨customer, ⟨none, .ofList [("rating", .integer 3)], ∅⟩, _, rfl, .single (.attempt _
      (.bind [("home", .map [("city", .string "Lima")])]))⟩
  have hfinite : (Binary64.ofInt 100).isFinite = true := by decide
  have hfields : ∀ name ∈ ["id", "owner", "tags", "limit"], ∃ p ∈ newcomer.schema.primaries,
      p.name = name ∧ p.target.schema? = none ∧
        newcomer.admits bank (.ofList [(versionKey, .integer 2)]) p = true := by
    decide
  have hothers : ∀ l ∈ newcomer.leavesUnder bank (.ofList [(versionKey, .integer 2)]),
      (∀ name ∈ ["id", "owner", "tags", "limit"], l.names ≠ [name]) → newcomer.held? l ≠ none := by
    decide
  refine ⟨hcompiled, hreachable, hfinite, hfields, hothers, ?_⟩
  obtain ⟨m', hset, hstate, hreads⟩ := stateAs_setStateFrom hcompiled hreachable
    (x := rosasAccount) (fun y hy => Option.some.inj hy ▸ hfinite) hfields hothers
  exact ⟨m', hset, hstate, hreads "home" ["city"] (by decide), hreads "rating" [] (by decide)⟩

end Model

end VersionedModel
