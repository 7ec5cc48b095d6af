import VersionedModel.Proofs.Json.Numerals

/-!
# Tokens of what is written

A text is cut by what the mode makes of one character after the other (`Json.Mode.read?`,
`Json.tokensFrom_cons`), and everything else about `Json.tokensFrom` rests on that.
`Json.writtenOf` is the shape of the text of a tree, and `Written.tokens` are the tokens of such a
shape. Cutting the text of a tree gives the tokens of its shape, whatever stands behind it and in
either style (`Json.tokensFrom_chars`).
-/

namespace VersionedModel

namespace Json

/-! ### One character -/

/-- What a mode makes of the next character: the tokens that it completes and the mode behind it,
unless no text goes on like this. -/
def Mode.read? : Mode → Char → Option (List Token × Mode)
  | .between, c => some ((boundary? c).getD ([], .run [c]))
  | .run seen, c =>
    (boundary? c).elim (some ([], .run (c :: seen))) fun b =>
      (Token.ofRun? seen.reverse).map fun t => (t :: b.1, b.2)
  | .quoted seen, c =>
    if c = '"' then some ([Token.ofUnits seen.reverse], .between)
    else if c = '\\' then some ([], .escape seen)
    else if c.toNat < 0x20 then none
    else some ([], .quoted (c.toNat :: seen))
  | .escape seen, c =>
    if c = 'u' then some ([], .code seen 0 3)
    else (escaped? c).map fun u => ([], .quoted (u :: seen))
  | .code seen value 0, c => (hexValue? c).map fun h => ([], .quoted ((16 * value + h) :: seen))
  | .code seen value (left + 1), c =>
    (hexValue? c).map fun h => ([], .code seen (16 * value + h) left)

/-- Cutting a text is reading it character by character. -/
theorem tokensFrom_cons (mode : Mode) (c : Char) (rest : List Char) :
    tokensFrom mode (c :: rest) =
      (mode.read? c).bind fun next => (tokensFrom next.2 rest).map (next.1 ++ ·) := by
  cases mode with
  | between =>
    rw [tokensFrom, Mode.read?]
    cases boundary? c with
    | none => simp
    | some b => rfl
  | run seen =>
    rw [tokensFrom, Mode.read?]
    cases boundary? c with
    | none => simp
    | some b => cases Token.ofRun? seen.reverse <;> rfl
  | quoted seen =>
    rw [tokensFrom, Mode.read?]
    split_ifs <;> simp
  | escape seen =>
    rw [tokensFrom, Mode.read?]
    split_ifs
    · simp
    · cases escaped? c <;> simp
  | code seen value left =>
    cases left <;> cases h : hexValue? c <;> simp [tokensFrom, Mode.read?, h]

theorem tokensFrom_of_read? {mode next : Mode} {c : Char} {ts : List Token}
    (h : mode.read? c = some (ts, next)) (rest : List Char) :
    tokensFrom mode (c :: rest) = (tokensFrom next rest).map (ts ++ ·) := by
  rw [tokensFrom_cons, h, Option.bind_some]

/-- A character that completes no token changes the mode only. -/
theorem tokensFrom_of_read?_nil {mode next : Mode} {c : Char}
    (h : mode.read? c = some ([], next)) (rest : List Char) :
    tokensFrom mode (c :: rest) = tokensFrom next rest := by
  simp [tokensFrom_of_read? h]

theorem tokensFrom_boundary {c : Char} {ts : List Token} {mode : Mode}
    (h : boundary? c = some (ts, mode)) (rest : List Char) :
    tokensFrom .between (c :: rest) = (tokensFrom mode rest).map (ts ++ ·) := by
  refine tokensFrom_of_read? ?_ rest
  change some ((boundary? c).getD _) = _
  rw [h, Option.getD_some]

/-! ### Words and numerals -/

/-- The text is over, or goes on with something that ends a word or numeral. -/
def Ends (rest : List Char) : Prop := ∀ c, rest.head? = some c → (boundary? c).isSome

/-- Nothing in the text ends a word or numeral. -/
def Unbroken (cs : List Char) : Prop := ∀ c ∈ cs, boundary? c = none

theorem ends_nil : Ends [] := nofun

theorem ends_cons {c : Char} (h : (boundary? c).isSome) (rest : List Char) : Ends (c :: rest) := by
  rintro d ⟨⟩
  exact h

theorem tokensFrom_run {cs rest : List Char} (hcs : Unbroken cs) (hr : Ends rest)
    (seen : List Char) {t : Token} (ht : Token.ofRun? (seen.reverse ++ cs) = some t) :
    tokensFrom (.run seen) (cs ++ rest) = (tokensFrom .between rest).map (t :: ·) := by
  induction cs generalizing seen with
  | nil =>
    rw [List.append_nil] at ht
    -- The run ends with the text or at a boundary, and is a token only then.
    cases rest with
    | nil => exact congrArg (Option.map ([·])) ht
    | cons c rest =>
      obtain ⟨⟨ts, mode⟩, hc⟩ := Option.isSome_iff_exists.1 (hr c rfl)
      have hread : (Mode.run seen).read? c = some (t :: ts, mode) := by
        change (boundary? c).elim _ _ = _
        rw [hc, Option.elim_some, ht, Option.map_some]
      rw [List.nil_append, tokensFrom_of_read? hread, tokensFrom_boundary hc, Option.map_map]
      rfl
  | cons c cs ih =>
    obtain ⟨hc, hcs⟩ := List.forall_mem_cons.1 hcs
    have hread : (Mode.run seen).read? c = some ([], .run (c :: seen)) := by
      change (boundary? c).elim _ _ = _
      rw [hc, Option.elim_none]
    rw [List.cons_append, tokensFrom_of_read?_nil hread]
    exact ih hcs (c :: seen) (by simpa using ht)

/-- A word or numeral that stands between tokens is a token. -/
theorem tokensFrom_word {cs rest : List Char} (hne : cs ≠ []) (hcs : Unbroken cs) (hr : Ends rest)
    {t : Token} (ht : Token.ofRun? cs = some t) :
    tokensFrom .between (cs ++ rest) = (tokensFrom .between rest).map (t :: ·) := by
  cases cs with
  | nil => exact absurd rfl hne
  | cons c cs =>
    obtain ⟨hc, hcs⟩ := List.forall_mem_cons.1 hcs
    have hread : Mode.between.read? c = some ([], .run [c]) := by
      change some ((boundary? c).getD _) = _
      rw [hc, Option.getD_none]
    rw [List.cons_append, tokensFrom_of_read?_nil hread]
    exact tokensFrom_run hcs hr [c] ht

theorem ofRun?_of_numeral {cs : List Char} {n : Numeral} (h : Numeral.ofChars? cs = some n) :
    Token.ofRun? cs = some (.number n) := by
  rw [Token.ofRun?]
  split
  · next he =>
    rw [he] at h
    cases h
  · split
    · next he =>
      rw [he] at h
      cases h
    · split
      · next he =>
        rw [he] at h
        cases h
      · rw [h]
        rfl

/-! ### Quoted texts -/

theorem hexValue?_hexDigit {n : ℕ} (h : n < 16) : hexValue? (hexDigit n) = some n := by
  interval_cases n <;> decide

theorem tokensFrom_escaped {c : Char} {u : ℕ} (h : escaped? c = some u) (hc : c ≠ 'u')
    (seen : List ℕ) (rest : List Char) :
    tokensFrom (.quoted seen) (['\\', c] ++ rest) = tokensFrom (.quoted (u :: seen)) rest := by
  have hread : (Mode.escape seen).read? c = some ([], .quoted (u :: seen)) := by
    rw [show (Mode.escape seen).read? c = _ from if_neg hc, h, Option.map_some]
  exact (tokensFrom_of_read?_nil rfl (c :: rest)).trans (tokensFrom_of_read?_nil hread rest)

theorem tokensFrom_hexDigit {n : ℕ} (h : n < 16) (seen : List ℕ) (value left : ℕ)
    (rest : List Char) :
    tokensFrom (.code seen value (left + 1)) (hexDigit n :: rest) =
      tokensFrom (.code seen (16 * value + n) left) rest := by
  refine tokensFrom_of_read?_nil ?_ rest
  change (hexValue? (hexDigit n)).map _ = _
  rw [hexValue?_hexDigit h, Option.map_some]

theorem tokensFrom_last_hexDigit {n : ℕ} (h : n < 16) (seen : List ℕ) (value : ℕ)
    (rest : List Char) :
    tokensFrom (.code seen value 0) (hexDigit n :: rest) =
      tokensFrom (.quoted ((16 * value + n) :: seen)) rest := by
  refine tokensFrom_of_read?_nil ?_ rest
  change (hexValue? (hexDigit n)).map _ = _
  rw [hexValue?_hexDigit h, Option.map_some]

theorem tokensFrom_code {a b : ℕ} (ha : a < 16) (hb : b < 16) (seen : List ℕ)
    (rest : List Char) :
    tokensFrom (.quoted seen) (['\\', 'u', '0', '0', hexDigit a, hexDigit b] ++ rest) =
      tokensFrom (.quoted ((16 * a + b) :: seen)) rest := by
  have hzero : '0' = hexDigit 0 := by decide
  calc tokensFrom (.quoted seen) (['\\', 'u', '0', '0', hexDigit a, hexDigit b] ++ rest)
      = tokensFrom (.code seen 0 3) ('0' :: '0' :: hexDigit a :: hexDigit b :: rest) :=
        (tokensFrom_of_read?_nil rfl _).trans (tokensFrom_of_read?_nil rfl _)
    _ = tokensFrom (.quoted ((16 * a + b) :: seen)) rest := by
        rw [hzero, tokensFrom_hexDigit (by decide), tokensFrom_hexDigit (by decide),
          tokensFrom_hexDigit ha, tokensFrom_last_hexDigit hb]
        simp only [Nat.mul_zero, Nat.zero_add]

/-- The form of a character in quotes is read as the character. -/
theorem tokensFrom_escapeChar (c : Char) (seen : List ℕ) (rest : List Char) :
    tokensFrom (.quoted seen) (escapeChar c ++ rest) =
      tokensFrom (.quoted (c.toNat :: seen)) rest := by
  rw [escapeChar]
  -- Seven characters are escaped by a letter or a sign of their own.
  iterate 7
    split
    · next h =>
      subst h
      exact tokensFrom_escaped rfl (by decide) seen rest
  split
  · rw [tokensFrom_code (by omega) (by omega), Nat.div_add_mod]
  · next hquote hslash _ _ _ _ _ hcontrol =>
    refine tokensFrom_of_read?_nil ?_ rest
    exact (if_neg hquote).trans ((if_neg hslash).trans (if_neg hcontrol))

theorem tokensFrom_escapeChars (cs : List Char) (seen : List ℕ) (rest : List Char) :
    tokensFrom (.quoted seen) (cs.flatMap escapeChar ++ '"' :: rest) =
      (tokensFrom .between rest).map (Token.ofUnits (seen.reverse ++ cs.map Char.toNat) :: ·) := by
  induction cs generalizing seen with
  | nil =>
    rw [List.flatMap_nil, List.nil_append, List.map_nil, List.append_nil]
    exact tokensFrom_of_read? (show (Mode.quoted seen).read? '"' = _ from rfl) rest
  | cons c cs ih =>
    rw [List.flatMap_cons, List.append_assoc, tokensFrom_escapeChar, ih]
    simp

/-- No character is half a surrogate pair. -/
theorem not_surrogate (c : Char) : isHigh c.toNat = false ∧ isLow c.toNat = false := by
  have hvalid : c.toNat < 0xD800 ∨ 0xDFFF < c.toNat ∧ c.toNat < 0x110000 := c.valid
  simp only [isHigh, isLow, Bool.and_eq_false_iff, decide_eq_false_iff_not]
  omega

theorem charsOfUnits?_toNat (cs : List Char) : charsOfUnits? (cs.map Char.toNat) = some cs := by
  induction cs with
  | nil => rfl
  | cons c cs ih =>
    obtain ⟨hhigh, hlow⟩ := not_surrogate c
    cases cs with
    | nil => simp [charsOfUnits?, hhigh, hlow]
    | cons d cs =>
      rw [List.map_cons] at ih ⊢
      rw [List.map_cons, charsOfUnits?, hhigh, hlow]
      simp only [Bool.false_eq_true, if_false]
      rw [ih]
      simp

/-- A text in quotes is read as the text. -/
theorem tokensFrom_textChars (s : String) (rest : List Char) :
    tokensFrom .between (textChars s ++ rest) =
      (tokensFrom .between rest).map (.text (some s) :: ·) := by
  have hquote : boundary? '"' = some ([], .quoted []) := rfl
  rw [textChars, List.cons_append, List.cons_append, List.append_assoc,
    tokensFrom_boundary hquote, List.singleton_append, tokensFrom_escapeChars, Token.ofUnits,
    List.reverse_nil, List.nil_append, charsOfUnits?_toNat, Option.map_some,
    String.ofList_toList, Option.map_map]
  rfl

/-! ### Punctuation -/

theorem tokensFrom_break (style : Style) (level : ℕ) (rest : List Char) :
    tokensFrom .between (style.break level ++ rest) = tokensFrom .between rest := by
  have hblank : boundary? ' ' = some ([], .between) := rfl
  have hline : boundary? '\n' = some ([], .between) := rfl
  cases style with
  | compact => rfl
  | pretty =>
    rw [Style.break, List.cons_append, tokensFrom_boundary hline]
    have hblanks : ∀ k, tokensFrom .between (List.replicate k ' ' ++ rest) =
        tokensFrom .between rest := by
      intro k
      induction k with
      | zero => rfl
      | succ k ih =>
        rw [List.replicate_succ, List.cons_append, tokensFrom_boundary hblank, ih]
        simp
    rw [hblanks]
    simp

theorem ends_break {style : Style} {level : ℕ} {rest : List Char} (h : Ends rest) :
    Ends (style.break level ++ rest) := by
  cases style with
  | compact => exact h
  | pretty => exact ends_cons (by decide) _

/-! ### Shapes and their tokens -/

mutual

/-- The tokens of a shape. -/
def Written.tokens : Written → List Token
  | .null => [.null]
  | .bool b => [.bool b]
  | .number n => [.number n]
  | .text s => [.text s]
  | .array [] => [.openArray, .closeArray]
  | .array (w :: ws) => .openArray :: w.tokens ++ Written.itemTokens ws ++ [.closeArray]
  | .object [] => [.openObject, .closeObject]
  | .object ((key, w) :: ms) =>
    .openObject :: .text key :: .colon :: w.tokens ++ Written.memberTokens ms ++ [.closeObject]

/-- The tokens of the items behind the first one. -/
def Written.itemTokens : List Written → List Token
  | [] => []
  | w :: ws => .comma :: w.tokens ++ Written.itemTokens ws

/-- The tokens of the members behind the first one. -/
def Written.memberTokens : List (Option String × Written) → List Token
  | [] => []
  | (key, w) :: ms => .comma :: .text key :: .colon :: w.tokens ++ Written.memberTokens ms

end

/-- The numeral that is written for an integer. -/
def numeralOfInt (n : ℤ) : Numeral := ⟨⟨decide (n < 0), n.natAbs, 0⟩, true⟩

/-- The numeral that is written for a float. -/
def numeralOfFloat (x : Binary64) : Numeral :=
  (Numeral.ofChars? (x.render numberLayout).toList).getD (numeralOfInt 0)

mutual

/-- The shape of the text that is written for a tree. -/
def writtenOf : Json → Written
  | .null => .null
  | .bool b => .bool b
  | .integer n => .number (numeralOfInt n)
  | .float x => .number (numeralOfFloat x)
  | .string s => .text (some s)
  | .array items => .array (itemsWritten items)
  | .object members => .object (membersWritten members)

/-- The shapes of the items. -/
def itemsWritten : List Json → List Written
  | [] => []
  | j :: js => writtenOf j :: itemsWritten js

/-- The shapes of the members. -/
def membersWritten : List (String × Json) → List (Option String × Written)
  | [] => []
  | (k, j) :: ms => (some k, writtenOf j) :: membersWritten ms

end

mutual

/-- The tree can be written and read back: its integers have 64 bits with a sign, its floats are
finite, and its members are in order. -/
def Sendable : Json → Prop
  | .integer n => Int64.minValue.toInt ≤ n ∧ n ≤ Int64.maxValue.toInt
  | .float x => x.isFinite = true
  | .array items => ItemsSendable items
  | .object members => Entries.Sorted members ∧ MembersSendable members
  | _ => True

/-- Every item can. -/
def ItemsSendable : List Json → Prop
  | [] => True
  | j :: js => Sendable j ∧ ItemsSendable js

/-- Every member's value can. -/
def MembersSendable : List (String × Json) → Prop
  | [] => True
  | (_, j) :: ms => Sendable j ∧ MembersSendable ms

end

/-! ### Cutting the text of a tree -/

theorem numeralOfFloat_spec {x : Binary64} (hx : x.isFinite = true) :
    Numeral.ofChars? (x.render numberLayout).toList = some (numeralOfFloat x) ∧
      Written.number? (numeralOfFloat x) = some (.float x) := by
  obtain ⟨n, hn, hread⟩ := exists_numeral_of_render numberLayout hx
  have hnumeral : numeralOfFloat x = n := by rw [numeralOfFloat, hn, Option.getD_some]
  rw [hnumeral]
  exact ⟨hn, hread⟩

theorem boundary?_of_isDigit {c : Char} (h : c.isDigit = true) : boundary? c = none := by
  have hne : ∀ d : Char, d.isDigit = false → c ≠ d := fun d hd he => by
    rw [he, hd] at h
    cases h
  simp [boundary?, hne ' ' rfl, hne '\t' rfl, hne '\n' rfl, hne '\r' rfl, hne '"' rfl, hne '[' rfl,
    hne ']' rfl, hne '\x7b' rfl, hne '\x7d' rfl, hne ':' rfl, hne ',' rfl]

theorem unbroken_append {cs ds : List Char} : Unbroken (cs ++ ds) ↔ Unbroken cs ∧ Unbroken ds :=
  List.forall_mem_append

theorem unbroken_cons {c : Char} {cs : List Char} :
    Unbroken (c :: cs) ↔ boundary? c = none ∧ Unbroken cs :=
  List.forall_mem_cons

theorem unbroken_nil : Unbroken [] := nofun

theorem unbroken_digits {ds : List Char} (h : ∀ c ∈ ds, c.isDigit = true) : Unbroken ds :=
  fun c hc => boundary?_of_isDigit (h c hc)

theorem unbroken_toDigits (n : ℕ) : Unbroken (Nat.toDigits 10 n) :=
  unbroken_digits fun _ => isDigit_of_mem_toDigits

theorem unbroken_zeros (k : ℕ) : Unbroken (List.replicate k '0') := fun c hc => by
  rw [List.eq_of_mem_replicate hc]
  rfl

theorem unbroken_integerChars (n : ℤ) : Unbroken (integerChars n) := by
  rw [integerChars]
  refine unbroken_append.2 ⟨?_, unbroken_toDigits _⟩
  split
  · exact unbroken_cons.2 ⟨rfl, unbroken_nil⟩
  · exact unbroken_nil

section Layout

variable {t : List Char} (ht : Unbroken t)
include ht

theorem unbroken_positional (lead : ℤ) : Unbroken (Binary64.positional t lead) := by
  cases lead with
  | ofNat k =>
    refine unbroken_append.2 ⟨unbroken_append.2 ⟨fun c hc => ht c (List.mem_of_mem_take hc),
      unbroken_zeros _⟩, unbroken_cons.2 ⟨rfl, ?_⟩⟩
    split
    · exact unbroken_zeros 1
    · exact fun c hc => ht c (List.mem_of_mem_drop hc)
  | negSucc k =>
    exact unbroken_cons.2 ⟨rfl, unbroken_cons.2 ⟨rfl, unbroken_append.2 ⟨unbroken_zeros k, ht⟩⟩⟩

theorem unbroken_scientific (plusSign : Bool) (lead : ℤ) :
    Unbroken (Binary64.scientific plusSign t lead) := by
  rw [Binary64.scientific]
  refine unbroken_append.2 ⟨unbroken_append.2 ⟨unbroken_append.2
    ⟨fun c hc => ht c (List.mem_of_mem_take hc), ?_⟩, unbroken_cons.2 ⟨rfl, ?_⟩⟩,
    unbroken_toDigits _⟩
  · split
    · exact unbroken_nil
    · exact unbroken_cons.2 ⟨rfl, fun c hc => ht c (List.mem_of_mem_drop hc)⟩
  · split
    · exact unbroken_cons.2 ⟨rfl, unbroken_nil⟩
    · split
      · exact unbroken_cons.2 ⟨rfl, unbroken_nil⟩
      · exact unbroken_nil

end Layout

theorem unbroken_render {layout : Binary64.Layout} {x : Binary64} (hx : x.isFinite = true) :
    Unbroken (x.render layout).toList := by
  cases x with
  | nan => cases hx
  | number negative m =>
    have hm : m.val < Binary64.infinite := by simpa [Binary64.isFinite] using hx
    rw [Binary64.render]
    simp only [String.toList_ofList, if_neg hm.ne]
    refine unbroken_append.2 ⟨?_, ?_⟩
    · split
      · exact unbroken_cons.2 ⟨rfl, unbroken_nil⟩
      · exact unbroken_nil
    · have htrim : Unbroken (Binary64.trimZeros
          (Nat.toDigits 10 (Binary64.shortest layout.ties m.val).coefficient)) := by
        obtain ⟨z, hz⟩ := trimZeros_spec
          (Nat.toDigits 10 (Binary64.shortest layout.ties m.val).coefficient)
        exact (unbroken_append.1 (hz ▸ unbroken_toDigits _)).1
      split
      · exact unbroken_cons.2 ⟨rfl, unbroken_cons.2 ⟨rfl, unbroken_zeros 1⟩⟩
      · split
        · exact unbroken_positional htrim _
        · exact unbroken_scientific htrim _ _

/-! ### The tokens of a tree -/

theorem tokensFrom_numeral {cs rest : List Char} {n : Numeral} (hn : Numeral.ofChars? cs = some n)
    (hcs : Unbroken cs) (hr : Ends rest) :
    tokensFrom .between (cs ++ rest) = (tokensFrom .between rest).map (.number n :: ·) := by
  refine tokensFrom_word (fun h => ?_) hcs hr (ofRun?_of_numeral hn)
  rw [h] at hn
  cases hn

theorem ends_itemChars {style : Style} {level : ℕ} {js : List Json} {rest : List Char}
    (h : Ends rest) : Ends (itemChars style level js ++ rest) := by
  cases js with
  | nil => exact h
  | cons j js => exact ends_cons (by decide) _

theorem ends_memberChars {style : Style} {level : ℕ} {ms : List (String × Json)} {rest : List Char}
    (h : Ends rest) : Ends (memberChars style level ms ++ rest) := by
  cases ms with
  | nil => exact h
  | cons m ms => exact ends_cons (by decide) _

theorem tokensFrom_colon (style : Style) (rest : List Char) :
    tokensFrom .between (style.colon ++ rest) = (tokensFrom .between rest).map (.colon :: ·) := by
  have hcolon : boundary? ':' = some ([.colon], .between) := rfl
  have hblank : boundary? ' ' = some ([], .between) := rfl
  cases style with
  | compact => exact tokensFrom_boundary hcolon rest
  | pretty =>
    rw [Style.colon, List.cons_append, tokensFrom_boundary hcolon, List.singleton_append,
      tokensFrom_boundary hblank]
    simp

theorem ends_close (style : Style) (level : ℕ) {c : Char} (hc : (boundary? c).isSome)
    (rest : List Char) : Ends (style.break level ++ c :: rest) :=
  ends_break (ends_cons hc rest)

mutual

/-- **The text of a tree is cut into the tokens of its shape**, whatever ends it. -/
theorem tokensFrom_chars (style : Style) (level : ℕ) (j : Json) (hj : Sendable j)
    {rest : List Char} (hr : Ends rest) :
    tokensFrom .between (j.chars style level ++ rest) =
      (tokensFrom .between rest).map ((writtenOf j).tokens ++ ·) := by
  match j with
  | .null =>
    exact tokensFrom_word (show ['n', 'u', 'l', 'l'] ≠ [] from nofun)
      (by simp [Unbroken, boundary?]) hr rfl
  | .bool true =>
    exact tokensFrom_word (show ['t', 'r', 'u', 'e'] ≠ [] from nofun)
      (by simp [Unbroken, boundary?]) hr rfl
  | .bool false =>
    exact tokensFrom_word (show ['f', 'a', 'l', 's', 'e'] ≠ [] from nofun)
      (by simp [Unbroken, boundary?]) hr rfl
  | .integer n =>
    exact tokensFrom_numeral (ofChars?_integerChars n) (unbroken_integerChars n) hr
  | .float x => exact tokensFrom_numeral (numeralOfFloat_spec hj).1 (unbroken_render hj) hr
  | .string s => exact tokensFrom_textChars s rest
  | .array [] =>
    rw [chars, List.cons_append, tokensFrom_boundary rfl, List.singleton_append,
      tokensFrom_boundary rfl, Option.map_map]
    rfl
  | .array (j :: js) =>
    obtain ⟨hj, hjs⟩ := hj
    have hclose := ends_close style level (c := ']') rfl rest
    simp only [chars, List.cons_append, List.append_assoc, List.nil_append]
    rw [tokensFrom_boundary rfl, tokensFrom_break,
      tokensFrom_chars style (level + 1) j hj (ends_itemChars hclose),
      tokensFrom_itemChars style (level + 1) js hjs hclose, tokensFrom_break,
      tokensFrom_boundary rfl]
    simp only [Option.map_map, writtenOf, itemsWritten, Written.tokens]
    congr 1
    funext ts
    simp
  | .object [] =>
    rw [chars, List.cons_append, tokensFrom_boundary rfl, List.singleton_append,
      tokensFrom_boundary rfl, Option.map_map]
    rfl
  | .object ((k, j) :: ms) =>
    obtain ⟨hj, hms⟩ := hj.2
    have hclose := ends_close style level (c := '\x7d') rfl rest
    simp only [chars, List.cons_append, List.append_assoc, List.nil_append]
    rw [tokensFrom_boundary rfl, tokensFrom_break, tokensFrom_textChars, tokensFrom_colon,
      tokensFrom_chars style (level + 1) j hj (ends_memberChars hclose),
      tokensFrom_memberChars style (level + 1) ms hms hclose, tokensFrom_break,
      tokensFrom_boundary rfl]
    simp only [Option.map_map, writtenOf, membersWritten, Written.tokens]
    congr 1
    funext ts
    simp

theorem tokensFrom_itemChars (style : Style) (level : ℕ) (js : List Json) (hj : ItemsSendable js)
    {rest : List Char} (hr : Ends rest) :
    tokensFrom .between (itemChars style level js ++ rest) =
      (tokensFrom .between rest).map (Written.itemTokens (itemsWritten js) ++ ·) := by
  match js with
  | [] => simp [itemChars, itemsWritten, Written.itemTokens]
  | j :: js =>
    simp only [itemChars, List.cons_append, List.append_assoc]
    rw [tokensFrom_boundary rfl, tokensFrom_break,
      tokensFrom_chars style level j hj.1 (ends_itemChars hr),
      tokensFrom_itemChars style level js hj.2 hr]
    simp only [Option.map_map, itemsWritten, Written.itemTokens]
    congr 1
    funext ts
    simp

theorem tokensFrom_memberChars (style : Style) (level : ℕ) (ms : List (String × Json))
    (hj : MembersSendable ms) {rest : List Char} (hr : Ends rest) :
    tokensFrom .between (memberChars style level ms ++ rest) =
      (tokensFrom .between rest).map (Written.memberTokens (membersWritten ms) ++ ·) := by
  match ms with
  | [] => simp [memberChars, membersWritten, Written.memberTokens]
  | (k, j) :: ms =>
    simp only [memberChars, List.cons_append, List.append_assoc]
    rw [tokensFrom_boundary rfl, tokensFrom_break, tokensFrom_textChars, tokensFrom_colon,
      tokensFrom_chars style level j hj.1 (ends_memberChars hr),
      tokensFrom_memberChars style level ms hj.2 hr]
    simp only [Option.map_map, membersWritten, Written.memberTokens]
    congr 1
    funext ts
    simp

end

end Json

end VersionedModel
