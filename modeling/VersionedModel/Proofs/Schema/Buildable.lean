import VersionedModel.Proofs.Schema.Progress

/-!
# Declarations that can be built

Attributes do not get in each other's way if their names are valid and different, and if their
components are free and have names that no other component and no attribute of another component
has (`Schema.Tidy`). Such a declaration can be built in any order, and however many attributes share
a component, but for one case (`Schema.exists_build_iff_of_tidy`): a component that was declared for
another attribute is bound under its own name, so this name can only come first
(`Schema.NamedLate`). Binding it again would make it an alias of itself.
-/

namespace VersionedModel

namespace Schema

open Workspace (Accounted)

variable {w₀ w w' : Workspace} {rule : Rule} {stack : StackId} {d d' : Draft} {ms : List Member}
  {m : Member} {id : ComponentId} {decl : Declaration} {own : String}

/-! ### Tidy declarations -/

/-- A component has a name. -/
def HasName (w : Workspace) (id : ComponentId) (own : String) : Prop :=
  ∃ c, w.component? id = some c ∧ c.name = some own

/-- Attributes that do not get in each other's way. -/
structure Tidy (w : Workspace) (ms : List Member) : Prop where
  /-- There are no aliases. -/
  fields : ∀ m ∈ ms, ∃ a arg, m = .field a arg
  /-- The names of the attributes are different. -/
  nodup : (ms.map Member.name).Nodup
  /-- They are valid. -/
  valid : ∀ m ∈ ms, Path.validateName m.name = .ok ()
  /-- The components are there. -/
  exists_component : ∀ a id, .field a (.built id) ∈ ms → ∃ c, w.component? id = some c
  /-- No stack owns them. -/
  free : ∀ a id, .field a (.built id) ∈ ms → w.isOwned id = false
  /-- The names that they have are valid. -/
  valid_own : ∀ a id own, .field a (.built id) ∈ ms → HasName w id own →
    Path.validateName own = .ok ()
  /-- No other component has the name. -/
  unique : ∀ a b id id' own, .field a (.built id) ∈ ms → .field b (.built id') ∈ ms →
    HasName w id own → HasName w id' own → id = id'
  /-- No attribute of another component has the name. -/
  apart : ∀ a id own arg, .field a (.built id) ∈ ms → HasName w id own → .field own arg ∈ ms →
    arg = .built id

/-- A component is declared under its own name after it was declared for another attribute. -/
def NamedLate (w : Workspace) (ms : List Member) (own : String) : Prop :=
  ∃ before after a id, ms = before ++ .field own (.built id) :: after ∧
    .field a (.built id) ∈ before ∧ HasName w id own

theorem HasName.of_getElem? {held : Holding} (h : w.holdings[id]? = some held) :
    HasName w id own ↔ held.component.name = some own := by
  simp [HasName, Workspace.component?, h]

theorem Tidy.exists_holding (h : Tidy w ms) {a : String} (hm : .field a (.built id) ∈ ms) :
    ∃ held, w.holdings[id]? = some held ∧ held.owned = false := by
  obtain ⟨c, hc⟩ := h.exists_component a id hm
  obtain ⟨held, hheld, -⟩ := Option.map_eq_some_iff.1 hc
  exact ⟨held, hheld, (Workspace.isOwned_of_getElem? hheld).1.symm.trans (h.free a id hm)⟩

/-! ### Names that are taken -/

/-- A component that was declared for another attribute has taken its own name. -/
theorem Reached.compileMember_of_declared (h : Reached w₀ rule stack ms d w) {a : String}
    {held : Holding} (hm : .field a (.built id) ∈ ms) (hj : w₀.holdings[id]? = some held)
    (hfree : held.owned = false) (hown : HasName w₀ id own)
    (hvalid : Path.validateName own = .ok ()) :
    Schema.compileMember stack d (.field own (.built id)) w = .error (.aliasCycle own) w := by
  rw [compileMember_field, hvalid]
  dsimp only
  cases hfind : d.seen.find? fun e => some e.1 == (Argument.built id).identity? with
  | none =>
    obtain ⟨primary, hseen⟩ := h.routed.exists_seen a id hm
    exact absurd (by simp [Argument.identity?]) (List.find?_eq_none.1 hfind _ hseen)
  | some e =>
    obtain ⟨id', primary⟩ := e
    obtain rfl : id' = id := by
      simpa [Argument.identity?] using List.find?_some hfind
    have hname := h.name_eq id' held primary hj hfree (List.mem_of_find?_eq_some hfind)
    rw [Holding.name_declaredAs_iff.2 (.inl ((HasName.of_getElem? hj).1 hown))] at hname
    cases hname
    dsimp only
    rw [Bindings.bindAlias_self]

/-- If the name of a further attribute is taken, then by its own component, which was declared for
another attribute. -/
theorem Reached.exists_of_contains (h : Reached w₀ rule stack ms d w) {a : String} {arg : Argument}
    {after : List Member} (htidy : Tidy w₀ (ms ++ .field a arg :: after))
    (hbound : Bindings.contains d.bindings a = true) :
    ∃ b id, .field b (.built id) ∈ ms ∧ HasName w₀ id a ∧ arg = .built id := by
  rcases h.sourced.names a hbound with ⟨m, hm, hname⟩ | ⟨b, id, c, hm, hc, hname⟩
  · -- Declared names are different.
    have hnodup := htidy.nodup
    rw [List.map_append, List.map_cons, List.nodup_middle, List.nodup_cons] at hnodup
    refine absurd ?_ hnodup.1
    exact List.mem_append_left _ (List.mem_map.2 ⟨m, hm, hname⟩)
  · have hown : HasName w₀ id a := ⟨c, hc, hname⟩
    exact ⟨b, id, hm, hown, htidy.apart b id a arg (List.mem_append_left _ hm) hown (by simp)⟩

/-- What a component's own name would be bound to is not there yet. -/
theorem Reached.not_contains_own (h : Reached w₀ rule stack ms d w) {a : String}
    {after : List Member} (htidy : Tidy w₀ (ms ++ .field a (.built id) :: after))
    (hfresh : ∀ primary, (id, primary) ∉ d.seen) (hown : HasName w₀ id own) :
    ¬Bindings.contains d.bindings own = true := by
  intro hbound
  have hm : .field a (.built id) ∈ ms ++ .field a (.built id) :: after := by simp
  have hnot : ∀ b, .field b (.built id) ∉ ms := by
    intro b hb
    obtain ⟨primary, hseen⟩ := h.routed.exists_seen b id hb
    exact hfresh primary hseen
  rcases h.sourced.names own hbound with ⟨m, hm', hname⟩ | ⟨b, id', c, hm', hc, hname⟩
  · obtain ⟨b, arg, rfl⟩ := htidy.fields m (List.mem_append_left _ hm')
    obtain rfl : b = own := hname
    obtain rfl := htidy.apart a id b arg hm hown (List.mem_append_left _ hm')
    exact hnot b hm'
  · obtain rfl := htidy.unique b a id' id own (List.mem_append_left _ hm') hm ⟨c, hc, hname⟩ hown
    exact hnot b hm'

/-! ### Compiling tidy declarations -/

/-- A component is bound under a name that is not taken, and then under another one. -/
theorem exists_bindUnder {table : List (Binding (Component Schema))} {name : String}
    {c : Component Schema} (hwf : Bindings.WellFormed table)
    (hown : ¬Bindings.contains table own = true) (hname : ¬Bindings.contains table name = true) :
    ∃ table', bindUnder table own name c = .ok table' := by
  have hbind : Bindings.bind table own c =
      .ok (table ++ [.primary own (Bindings.slotCount table) c]) :=
    Bindings.bind_eq_ok.2 ⟨hown, rfl⟩
  rw [bindUnder, hbind]
  change ∃ table', (if own = name then _ else _) = _
  split
  · exact ⟨_, rfl⟩
  · next hne =>
    refine ⟨_, Bindings.bindAlias_of_resolve? ?_ (hwf.resolve?_bind hbind)⟩
    rw [Bindings.contains_append]
    rintro (hbound | ⟨b, hb, hname'⟩)
    · exact hname hbound
    · cases List.mem_singleton.1 hb
      exact hne hname'

/-- A component that was not declared yet is as it was. -/
theorem Reached.holding_of_fresh (h : Reached w₀ rule stack ms d w)
    (hfresh : ∀ primary, (id, primary) ∉ d.seen) {held : Holding}
    (hj : w₀.holdings[id]? = some held) : w.holdings[id]? = some held := by
  have := h.holdings_eq id held hj
  rwa [h.routed.firstAttribute?_eq_none_iff.2 hfresh] at this

theorem Reached.compileFresh_of_tidy (h : Reached w₀ rule stack ms d w) {a : String}
    {arg : Argument} {after : List Member} (htidy : Tidy w₀ (ms ++ .field a arg :: after))
    (hfresh : ∀ id primary, arg = .built id → (id, primary) ∉ d.seen)
    (hbound : ¬Bindings.contains d.bindings a = true) :
    ∃ d' w', compileFresh stack d a arg w = .ok d' w' := by
  have hmem : .field a arg ∈ ms ++ .field a arg :: after := by simp
  obtain ⟨id, w₁, hadd⟩ : ∃ id w₁, Workspace.add stack arg (some a) w = .ok id w₁ := by
    refine Workspace.exists_add (by rw [h.tracked.stack?_eq]; rfl) (htidy.valid _ hmem)
      fun id hid => ?_
    obtain rfl := Argument.identity?_eq_some_iff.1 hid
    obtain ⟨held, hj, hfree⟩ := htidy.exists_holding hmem
    exact ⟨held, h.holding_of_fresh (fun primary => hfresh id primary rfl) hj, hfree,
      fun own hown => htidy.valid_own a id own hmem ((HasName.of_getElem? hj).2 hown)⟩
  obtain ⟨c, own, hc, hown, hfrom, -⟩ := Workspace.exists_name_of_add hadd
  have hnew : ¬Bindings.contains d.bindings own = true := by
    rcases hfrom with hoffered | ⟨id', c', rfl, hc', hown'⟩
    · cases hoffered
      exact hbound
    · have hfresh := fun primary => hfresh id' primary rfl
      obtain ⟨held, hj, -⟩ := htidy.exists_holding hmem
      refine h.not_contains_own htidy hfresh ((HasName.of_getElem? hj).2 ?_)
      exact (HasName.of_getElem? (h.holding_of_fresh hfresh hj)).1 ⟨c', hc', hown'⟩
  obtain ⟨table, htable⟩ := exists_bindUnder (c := c) h.tracked.wellFormed hnew hbound
  rw [compileFresh_of_add_ok hadd hc hown, htable]
  exact ⟨_, w₁, rfl⟩

/-- **One more attribute can be compiled**, unless it is the own name of a component that was
declared for another one. -/
theorem Reached.compileMember_of_tidy (h : Reached w₀ rule stack ms d w) {after : List Member}
    (htidy : Tidy w₀ (ms ++ m :: after)) :
    (∃ d' w', Schema.compileMember stack d m w = .ok d' w') ∨
      ∃ own a id, m = .field own (.built id) ∧ .field a (.built id) ∈ ms ∧ HasName w₀ id own ∧
        Schema.compileMember stack d m w = .error (.aliasCycle own) w := by
  have hmem : m ∈ ms ++ m :: after := by simp
  obtain ⟨a, arg, rfl⟩ := htidy.fields m hmem
  have hvalid : Path.validateName a = .ok () := htidy.valid _ hmem
  by_cases hbound : Bindings.contains d.bindings a = true
  · obtain ⟨b, id, hb, hown, rfl⟩ := h.exists_of_contains htidy hbound
    obtain ⟨held, hj, hfree⟩ := htidy.exists_holding (List.mem_append_left _ hb)
    exact .inr ⟨a, b, id, rfl, hb, hown, h.compileMember_of_declared hb hj hfree hown hvalid⟩
  · left
    rw [compileMember_field, hvalid]
    dsimp only
    cases hfind : d.seen.find? fun e => some e.1 == arg.identity? with
    | some e =>
      obtain ⟨b, p, -, -, hp⟩ := h.routed.seen e.1 e.2 (List.mem_of_find?_eq_some hfind)
      dsimp only
      rw [Bindings.bindAlias_of_resolve? hbound hp]
      exact ⟨_, _, rfl⟩
    | none =>
      refine h.compileFresh_of_tidy htidy ?_ hbound
      rintro id primary rfl hseen
      exact List.find?_eq_none.1 hfind _ hseen (by simp [Argument.identity?])

/-- **Which tidy declarations can be built.** Attributes that do not get in each other's way are
built in any order, unless a component is declared under its own name after another attribute; then
the build fails for a cycle of aliases through this name. -/
theorem exists_build_iff_of_tidy (hw : w.Reachable) (htidy : Tidy w decl.members) :
    ((∃ s w', build decl w = .ok s w') ↔ ∀ own, ¬NamedLate w decl.members own) ∧
      ∀ e w', build decl w = .error e w' →
        ∃ own, NamedLate w decl.members own ∧ e = .aliasCycle own := by
  have herror : ∀ e w', build decl w = .error e w' →
      ∃ own, NamedLate w decl.members own ∧ e = .aliasCycle own := by
    intro e w' h
    rw [build_apply] at h
    cases hall : compileAll decl.rule decl.members w with
    | ok d w₁ =>
      rw [hall] at h
      cases h
    | error e₁ w₁ =>
      rw [hall] at h
      cases h
      obtain ⟨before, m, after, d, w₂, hsplit, hbefore, hm⟩ := exists_of_compileAll_error hall
      have hreached := reached_of_compileAll hw.accounted hbefore
      rcases hreached.compileMember_of_tidy (hsplit ▸ htidy) with
        ⟨d', w', hok⟩ | ⟨own, a, id, rfl, ha, hown, hcycle⟩
      · rw [hm] at hok
        cases hok
      · rw [hm] at hcycle
        cases hcycle
        exact ⟨own, ⟨before, after, a, id, hsplit, ha, hown⟩, rfl⟩
  refine ⟨⟨?_, fun hnot => ?_⟩, herror⟩
  · rintro hbuilt own ⟨before, after, a, id, hsplit, ha, hown⟩
    obtain ⟨d, w', hall⟩ := exists_build_iff.1 hbuilt
    rw [hsplit] at hall htidy
    obtain ⟨d₁, w₁, hbefore, hrest⟩ := exists_of_compileAll_append hall
    rw [List.foldlM_cons] at hrest
    obtain ⟨d₂, w₂, hok, -⟩ := Outcome.bind_apply_eq_ok.1 hrest
    obtain ⟨held, hj, hfree⟩ := htidy.exists_holding (List.mem_append_left _ ha)
    rw [(reached_of_compileAll hw.accounted hbefore).compileMember_of_declared ha hj hfree hown
      (htidy.valid_own a id own (List.mem_append_left _ ha) hown)] at hok
    cases hok
  · cases hbuild : build decl w with
    | ok s w' => exact ⟨s, w', rfl⟩
    | error e w' =>
      obtain ⟨own, hlate, -⟩ := herror e w' hbuild
      exact absurd hlate (hnot own)

/-! ### A book -/

namespace Sample

/-- A text that has a name, and a number that has none. -/
def shelf : Workspace :=
  Workspace.empty.run [.declare { Component.ofKind (.leaf .string) with name := some "title" },
    .declare (.ofKind (.leaf .integer))]

theorem reachable_shelf : shelf.Reachable :=
  ⟨_, rfl⟩

theorem eq_title_of_hasName (h : HasName shelf id own) : id = 0 ∧ own = "title" := by
  obtain ⟨c, hc, hname⟩ := h
  match id with
  | 0 =>
    cases hc
    cases hname
    exact ⟨rfl, rfl⟩
  | 1 =>
    cases hc
    cases hname
  | _ + 2 => cases hc

/-- Attributes of the text and the number do not get in each other's way, as long as only the text
is declared under its name. -/
theorem tidy_shelf (fields : ∀ m ∈ ms, ∃ a arg, m = .field a arg)
    (nodup : (ms.map Member.name).Nodup) (valid : ∀ m ∈ ms, Path.validateName m.name = .ok ())
    (hids : ∀ a id, .field a (.built id) ∈ ms → id = 0 ∨ id = 1)
    (htitle : ∀ arg, .field "title" arg ∈ ms → arg = .built 0) : Tidy shelf ms where
  fields := fields
  nodup := nodup
  valid := valid
  exists_component a id hm := by
    rcases hids a id hm with rfl | rfl <;> exact ⟨_, rfl⟩
  free a id hm := by
    rcases hids a id hm with rfl | rfl <;> rfl
  valid_own a id own _ hown := by
    obtain ⟨-, rfl⟩ := eq_title_of_hasName hown
    rfl
  unique a b id id' own _ _ hown hown' :=
    (eq_title_of_hasName hown).1.trans (eq_title_of_hasName hown').1.symm
  apart a id own arg _ hown hm := by
    obtain ⟨rfl, rfl⟩ := eq_title_of_hasName hown
    exact htitle arg hm

/-- A book with attributes that share components. -/
def bookDeclaration : Declaration where
  name := "book"
  settings := ∅
  rule := .version .usual
  members := [.field "label" (.built 0), .field "pages" (.built 1), .field "caption" (.built 0),
    .field "sheets" (.built 1), .field "note" (.kind .string)]

/-- A book whose title has another name first. -/
def titledDeclaration : Declaration where
  name := "book"
  settings := ∅
  rule := .version .usual
  members := [.field "label" (.built 0), .field "title" (.built 0)]

end Sample

open Sample in
theorem exists_build_of_tidy_book :
    shelf.Reachable ∧ Tidy shelf bookDeclaration.members ∧
      ∃ s w', build bookDeclaration shelf = .ok s w' := by
  have htidy : Tidy shelf bookDeclaration.members := by
    refine tidy_shelf ?_ (by decide) ?_ ?_ ?_
    · simp [bookDeclaration]
    · simp only [bookDeclaration, List.forall_mem_cons]
      exact ⟨rfl, rfl, rfl, rfl, rfl, nofun⟩
    · intro a id hm
      simp only [bookDeclaration, List.mem_cons, Member.field.injEq, Argument.built.injEq,
        reduceCtorEq, List.not_mem_nil] at hm
      tauto
    · simp [bookDeclaration]
  refine ⟨reachable_shelf, htidy, (exists_build_iff_of_tidy reachable_shelf htidy).1.2 ?_⟩
  -- The text is never declared under its name.
  rintro own ⟨before, after, a, id, hsplit, -, hown⟩
  obtain ⟨-, rfl⟩ := eq_title_of_hasName hown
  have hm : .field "title" (.built id) ∈ bookDeclaration.members := by
    rw [hsplit]
    simp
  simp [bookDeclaration] at hm

open Sample in
/-- The title comes late. -/
theorem build_error_of_tidy_titled :
    shelf.Reachable ∧ Tidy shelf titledDeclaration.members ∧
      ∃ w', build titledDeclaration shelf = .error (.aliasCycle "title") w' := by
  refine ⟨reachable_shelf, tidy_shelf ?_ (by decide) ?_ ?_ ?_, _, rfl⟩
  · simp [titledDeclaration]
  · simp only [titledDeclaration, List.forall_mem_cons]
    exact ⟨rfl, rfl, nofun⟩
  · intro a id hm
    simp only [titledDeclaration, List.mem_cons, Member.field.injEq, Argument.built.injEq,
      List.not_mem_nil] at hm
    tauto
  · simp [titledDeclaration]

end Schema

end VersionedModel
