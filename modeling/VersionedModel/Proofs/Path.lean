import VersionedModel.Path
import VersionedModel.Proofs.Outcome

/-!
# Reading, printing and joining paths

The names in a text are its stretches between slashes, without the empty ones (`Path.names`). A text
is a path if all its names are identifiers (`Path.parse_eq_ok_iff`); otherwise the first name that
is none is refused, with its position among the names (`Path.parse_eq_error_iff`). No slash stands
in an identifier, so a path that was printed has its components for names
(`Path.names_render`), and two texts with a slash between them have the names of both
(`Path.names_append`). The laws of reading, printing and joining follow
(`Path.parse_render_join`).
-/

namespace VersionedModel

namespace Text

/-! ### Identifiers -/

/-- An identifier has a first character that may start one, or an underscore that does not stand
alone, and only characters after it that may stand in one. -/
def Identifier : List Char → Prop
  | [] => False
  | c :: rest =>
    (isIdentifierStart c = true ∨ c = '_' ∧ rest ≠ []) ∧
      ∀ d ∈ rest, isIdentifierContinue d = true

theorem identifierFault?_eq_none_iff {cs : List Char} :
    identifierFault? cs = none ↔ Identifier cs := by
  cases cs with
  | nil => exact ⟨nofun, False.elim⟩
  | cons c rest =>
    rw [identifierFault?_cons_eq_none, Identifier]
    refine and_congr_left fun hrest => ?_
    -- What follows an underscore may stand there, if anything does.
    have hhead : rest.head?.any isIdentifierContinue = true ↔ rest ≠ [] := by
      cases rest with
      | nil => simp
      | cons d rest => simp [hrest d List.mem_cons_self]
    rw [startsIdentifier, Bool.or_eq_true, Bool.and_eq_true, beq_iff_eq, hhead]

theorem Identifier.ne_nil {cs : List Char} (h : Identifier cs) : cs ≠ [] := by
  rintro rfl
  exact h

/-- A slash can neither start an identifier nor stand in one. -/
theorem isIdentifierContinue_slash : isIdentifierContinue '/' = false := by
  decide +kernel

theorem Identifier.slash_not_mem {cs : List Char} (h : Identifier cs) : '/' ∉ cs := by
  cases cs with
  | nil => exact List.not_mem_nil
  | cons c rest =>
    obtain ⟨hfirst, hrest⟩ := h
    intro hmem
    rcases List.mem_cons.1 hmem with rfl | hmem
    · rcases hfirst with hstart | ⟨hunderscore, -⟩
      · have hcontinue := isIdentifierContinue_of_start hstart
        rw [isIdentifierContinue_slash] at hcontinue
        cases hcontinue
      · exact absurd hunderscore (by decide)
    · have hcontinue := hrest '/' hmem
      rw [isIdentifierContinue_slash] at hcontinue
      cases hcontinue

end Text

namespace Path

open Text (Identifier)

/-! ### Names in a text -/

/-- The names in a text: what stands between slashes, except where nothing does. -/
def names (s : String) : List String :=
  ((s.toList.splitOn '/').filter fun cs => !cs.isEmpty).map String.ofList

theorem segments_eq_splitOn (cs : List Char) : segments cs = cs.splitOn '/' := by
  induction cs with
  | nil => rfl
  | cons c cs ih =>
    rw [segments, List.splitOn_cons_eq_if_modifyHead, ih]
    by_cases h : c = '/'
    · rw [if_pos h, if_pos (beq_iff_eq.2 h)]
    · rw [if_neg h, if_neg (mt beq_iff_eq.1 h)]
      -- There is always a stretch that the character can be put in front of.
      cases hsplit : cs.splitOn '/' with
      | nil => exact absurd hsplit (List.splitOn_ne_nil '/' cs)
      | cons stretch rest => rfl

theorem parse_eq (s : String) : parse s = (fun _ => ⟨names s⟩) <$> checkFrom 0 (names s) := by
  rw [parse, segments_eq_splitOn]
  rfl

/-- The names in two texts with a slash between them. -/
theorem names_append (a b : String) : names (a ++ "/" ++ b) = names a ++ names b := by
  have hchars : (a ++ "/" ++ b).toList = a.toList ++ '/' :: b.toList := by simp
  rw [names, hchars, List.splitOn_append_cons_self, List.filter_append, List.map_append]
  rfl

/-- The names in the text of a path are its components, if these are identifiers. -/
theorem names_render {p : Path} (h : ∀ name ∈ p.components, Identifier name.toList) :
    names p.render = p.components := by
  by_cases hnil : p.components = []
  · rw [render, hnil]
    rfl
  have hslash : ∀ cs ∈ p.components.map String.toList, '/' ∉ cs := by
    rw [List.forall_mem_map]
    exact fun name hname => (h name hname).slash_not_mem
  have hkept : ∀ cs ∈ p.components.map String.toList, (!cs.isEmpty) = true := by
    rw [List.forall_mem_map]
    exact fun name hname => by simpa using (h name hname).ne_nil
  have hchars : p.render.toList = ['/'].intercalate (p.components.map String.toList) :=
    String.toList_intercalate
  rw [names, hchars, List.splitOn_intercalate '/' hslash (by simpa using hnil),
    List.filter_eq_self.2 hkept, List.map_map]
  simp [Function.comp_def]

/-! ### Checking names -/

theorem checkComponent_eq_ok {i : Nat} {name : String} :
    checkComponent i name = .ok () ↔ Identifier name.toList := by
  rw [← Text.identifierFault?_eq_none_iff, checkComponent]
  cases Text.identifierFault? name.toList with
  | none => exact ⟨fun _ => rfl, fun _ => rfl⟩
  | some fault => exact ⟨nofun, nofun⟩

theorem checkComponent_eq_error {i : Nat} {name : String} {e : Error} :
    checkComponent i name = .error e ↔
      ∃ fault, Text.identifierFault? name.toList = some fault ∧
        e = .invalidName (.component name i fault) := by
  rw [checkComponent]
  cases Text.identifierFault? name.toList with
  | none => exact ⟨nofun, fun ⟨_, h, _⟩ => by cases h⟩
  | some fault =>
    constructor
    · rintro ⟨⟩
      exact ⟨fault, rfl, rfl⟩
    · rintro ⟨_, ⟨⟩, rfl⟩
      rfl

theorem checkFrom_eq_ok {i : Nat} {ns : List String} :
    checkFrom i ns = .ok () ↔ ∀ name ∈ ns, Identifier name.toList := by
  induction ns generalizing i with
  | nil => exact ⟨fun _ => nofun, fun _ => rfl⟩
  | cons name ns ih =>
    rw [checkFrom, Outcome.bind_eq_ok, List.forall_mem_cons, ← checkComponent_eq_ok (i := i),
      ← ih (i := i + 1)]
    exact ⟨fun ⟨_, hname, hns⟩ => ⟨hname, hns⟩, fun ⟨hname, hns⟩ => ⟨(), hname, hns⟩⟩

/-- The first name that is no identifier counts. -/
theorem checkFrom_eq_error {i : Nat} {ns : List String} {e : Error} :
    checkFrom i ns = .error e ↔
      ∃ before name after fault, ns = before ++ name :: after ∧
        (∀ other ∈ before, Identifier other.toList) ∧
        Text.identifierFault? name.toList = some fault ∧
        e = .invalidName (.component name (i + before.length) fault) := by
  induction ns generalizing i with
  | nil => exact ⟨nofun, fun ⟨_, _, _, _, h, _⟩ => by simp at h⟩
  | cons name ns ih =>
    rw [checkFrom, Outcome.bind_eq_error, checkComponent_eq_error]
    constructor
    · rintro (⟨fault, hfault, rfl⟩ | ⟨_, hname, hns⟩)
      · exact ⟨[], name, ns, fault, rfl, nofun, hfault, rfl⟩
      · obtain ⟨before, bad, after, fault, rfl, hbefore, hfault, rfl⟩ := ih.1 hns
        refine ⟨name :: before, bad, after, fault, rfl, ?_, hfault, ?_⟩
        · exact List.forall_mem_cons.2 ⟨checkComponent_eq_ok.1 hname, hbefore⟩
        · rw [List.length_cons, Nat.add_assoc, Nat.add_comm 1]
    · rintro ⟨before, bad, after, fault, hns, hbefore, hfault, rfl⟩
      cases before with
      | nil =>
        obtain ⟨rfl, rfl⟩ := List.cons.inj hns
        exact .inl ⟨fault, hfault, rfl⟩
      | cons first before =>
        obtain ⟨rfl, rfl⟩ := List.cons.inj hns
        obtain ⟨hname, hbefore⟩ := List.forall_mem_cons.1 hbefore
        refine .inr ⟨(), checkComponent_eq_ok.2 hname, ih.2 ⟨before, bad, after, fault, rfl,
          hbefore, hfault, ?_⟩⟩
        rw [List.length_cons, Nat.add_assoc, Nat.add_comm 1]

/-! ### Reading -/

/-- **A text is a path exactly if all names in it are identifiers**, and they are its components. -/
theorem parse_eq_ok_iff {s : String} {p : Path} :
    parse s = .ok p ↔ (∀ name ∈ names s, Identifier name.toList) ∧ p.components = names s := by
  rw [parse_eq, Outcome.map_eq_ok]
  constructor
  · rintro ⟨_, hcheck, rfl⟩
    exact ⟨checkFrom_eq_ok.1 hcheck, rfl⟩
  · rintro ⟨hnames, hp⟩
    exact ⟨(), checkFrom_eq_ok.2 hnames, by rw [← hp]⟩

/-- **The first name that is no identifier is refused**, at its position among the names. -/
theorem parse_eq_error_iff {s : String} {e : Error} :
    parse s = .error e ↔
      ∃ before name after fault, names s = before ++ name :: after ∧
        (∀ other ∈ before, Identifier other.toList) ∧
        Text.identifierFault? name.toList = some fault ∧
        e = .invalidName (.component name before.length fault) := by
  rw [parse_eq, Outcome.map_eq_error, checkFrom_eq_error]
  simp only [Nat.zero_add]

/-- **Paths are read, printed and joined coherently.** A text is a path exactly if all names in it
are identifiers; otherwise the first one that is none is refused, with its position among the names
and its own fault. What a path is printed as reads as that path, and two texts with a slash between
them read as a path exactly if both do, and then as the two paths joined. -/
theorem parse_render_join :
    (∀ s p, parse s = .ok p ↔
      (∀ name ∈ names s, Identifier name.toList) ∧ p.components = names s) ∧
    (∀ s e, parse s = .error e ↔
      ∃ before name after fault, names s = before ++ name :: after ∧
        (∀ other ∈ before, Identifier other.toList) ∧ ¬Identifier name.toList ∧
        Text.identifierFault? name.toList = some fault ∧
        e = .invalidName (.component name before.length fault)) ∧
    (∀ s p, parse s = .ok p → parse p.render = .ok p) ∧
    ∀ a b r, parse (a ++ "/" ++ b) = .ok r ↔
      ∃ p q, parse a = .ok p ∧ parse b = .ok q ∧ r = p.join q := by
  refine ⟨fun s p => parse_eq_ok_iff, fun s e => ?_, fun s p h => ?_, fun a b r => ?_⟩
  · rw [parse_eq_error_iff]
    constructor
    · rintro ⟨before, name, after, fault, hs, hbefore, hfault, he⟩
      have hbad : ¬Identifier name.toList := by
        rw [← Text.identifierFault?_eq_none_iff, hfault]
        nofun
      exact ⟨before, name, after, fault, hs, hbefore, hbad, hfault, he⟩
    · rintro ⟨before, name, after, fault, hs, hbefore, -, hfault, he⟩
      exact ⟨before, name, after, fault, hs, hbefore, hfault, he⟩
  · obtain ⟨hnames, hp⟩ := parse_eq_ok_iff.1 h
    rw [← hp] at hnames
    exact parse_eq_ok_iff.2 (by rw [names_render hnames]; exact ⟨hnames, rfl⟩)
  · simp only [parse_eq_ok_iff, names_append, List.forall_mem_append]
    constructor
    · rintro ⟨⟨ha, hb⟩, hr⟩
      exact ⟨⟨names a⟩, ⟨names b⟩, ⟨ha, rfl⟩, ⟨hb, rfl⟩, by rw [join, ← hr]⟩
    · rintro ⟨p, q, ⟨ha, hp⟩, ⟨hb, hq⟩, rfl⟩
      exact ⟨⟨ha, hb⟩, by rw [join, hp, hq]⟩

/-- An address with slashes to spare is read, printed and read again, and joined from its parts; in
another one the second name is refused. -/
theorem parse_render_join_of_street :
    parse "/customer//straße/" = .ok ⟨["customer", "straße"]⟩ ∧
      parse (render ⟨["customer", "straße"]⟩) = .ok ⟨["customer", "straße"]⟩ ∧
      parse ("/customer/" ++ "/" ++ "straße/") = .ok (join ⟨["customer"]⟩ ⟨["straße"]⟩) ∧
      parse "//customer/0_/_" =
        .error (.invalidName (.component "0_" 1 .badStart)) := by
  obtain ⟨-, herror, hprint, hjoin⟩ := parse_render_join
  have hstreet : parse "/customer//straße/" = .ok ⟨["customer", "straße"]⟩ := by decide +kernel
  have hcustomer : parse "/customer/" = .ok ⟨["customer"]⟩ := by decide +kernel
  have hrest : parse "straße/" = .ok ⟨["straße"]⟩ := by decide +kernel
  refine ⟨hstreet, hprint _ _ hstreet, (hjoin _ _ _).2 ⟨_, _, hcustomer, hrest, rfl⟩, ?_⟩
  refine (herror _ _).2 ⟨["customer"], "0_", ["_"], .badStart, by decide +kernel, ?_, ?_,
    by decide +kernel, rfl⟩
  · exact List.forall_mem_singleton.2 (Text.identifierFault?_eq_none_iff.1 (by decide +kernel))
  · exact mt Text.identifierFault?_eq_none_iff.2 (by decide +kernel)

end Path

end VersionedModel
