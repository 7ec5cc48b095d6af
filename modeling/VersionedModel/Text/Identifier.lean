import VersionedModel.Text.IdentifierTable

/-!
# Identifiers

Which texts are Unicode identifiers. An identifier starts with a character of `XID_Start`, or with
an underscore that a character of `XID_Continue` follows, and has only characters of
`XID_Continue` after its first. `identifierFault?` finds the first thing wrong with a text and
`isIdentifier` says that there is nothing.
-/

namespace VersionedModel

namespace Text

/-- Whether a character lies in one of the closed ranges of code points. -/
def inRanges (ranges : List (Nat × Nat)) (c : Char) : Bool :=
  ranges.any fun r => decide (r.1 ≤ c.toNat) && decide (c.toNat ≤ r.2)

/-- A character that may start an identifier. -/
def isIdentifierStart (c : Char) : Bool :=
  inRanges startRanges c

/-- A character that may stand in an identifier after its first. -/
def isIdentifierContinue (c : Char) : Bool :=
  isIdentifierStart c || inRanges continueRanges c

/-- What keeps a text from being an identifier. -/
inductive IdentifierFault where
  /-- There is no character at all. -/
  | empty
  /-- The first character cannot start an identifier. -/
  | badStart
  /-- A later character cannot stand in an identifier. -/
  | badCharacter (c : Char)
  deriving DecidableEq, Repr

/-- Whether an identifier may start with `c` when `rest` follows: an underscore needs company. -/
def startsIdentifier (c : Char) (rest : List Char) : Bool :=
  isIdentifierStart c || (c == '_' && rest.head?.any isIdentifierContinue)

/-- The first fault of a text as an identifier, if it has one. -/
def identifierFault? : List Char → Option IdentifierFault
  | [] => some .empty
  | c :: rest =>
    if startsIdentifier c rest then
      (rest.find? fun d => !isIdentifierContinue d).map .badCharacter
    else some .badStart

/-- Whether a text is an identifier. -/
def isIdentifier (s : String) : Bool :=
  (identifierFault? s.toList).isNone

theorem isIdentifierContinue_of_start {c : Char} (h : isIdentifierStart c = true) :
    isIdentifierContinue c = true := by
  simp [isIdentifierContinue, h]

theorem identifierFault?_cons_eq_none {c : Char} {rest : List Char} :
    identifierFault? (c :: rest) = none ↔
      startsIdentifier c rest = true ∧ ∀ d ∈ rest, isIdentifierContinue d = true := by
  by_cases h : startsIdentifier c rest = true <;> simp [identifierFault?, h]

end Text

end VersionedModel
