import VersionedModel.Binary64.Rounding

/-!
# Tokens of JSON texts

`Json.tokens?` cuts a text into tokens: brackets, separators, quoted texts, and runs of other
characters, which have to be a word or a numeral. Numerals are kept as decimals and texts as what
their escapes spell, so nothing is refused here but what the grammar of JSON refuses.
-/

namespace VersionedModel

namespace Json

open Binary64 (Decimal)

/-- A number as written. -/
structure Numeral where
  /-- Its decimal value. -/
  decimal : Decimal
  /-- Whether it has neither fraction nor exponent. -/
  integral : Bool
  deriving DecidableEq, Repr

/-- A token. A quoted text is `none` if its escapes leave half a surrogate pair alone. -/
inductive Token where
  /-- `[` -/
  | openArray
  /-- `]` -/
  | closeArray
  /-- An opening brace. -/
  | openObject
  /-- A closing brace. -/
  | closeObject
  /-- `:` -/
  | colon
  /-- `,` -/
  | comma
  /-- The word `null`. -/
  | null
  /-- The word `true` or `false`. -/
  | bool (b : Bool)
  /-- A number. -/
  | number (n : Numeral)
  /-- A quoted text. -/
  | text (s : Option String)
  deriving DecidableEq, Repr

/-! ### Numerals -/

/-- The natural number that decimal digits spell. -/
def natOfDigits (digits : List Char) : Nat :=
  digits.foldl (fun n c => 10 * n + (c.toNat - 48)) 0

/-- Digits of a whole part: at least one, and no zero before others. -/
def isWhole : List Char → Bool
  | [] => false
  | ['0'] => true
  | c :: _ => c != '0'

/-- The places behind a decimal point, if there is one, and what follows; a point wants a digit. -/
def fraction? : List Char → Option (List Char × List Char)
  | '.' :: rest =>
    let places := rest.takeWhile Char.isDigit
    if places.isEmpty then none else some (places, rest.dropWhile Char.isDigit)
  | rest => some ([], rest)

/-- The value of an exponent that fills the rest of a numeral, if there is one. -/
def exponent? : List Char → Option (Option Int)
  | [] => some none
  | e :: rest =>
    if e = 'e' ∨ e = 'E' then
      let (negative, digits) : Bool × List Char := match rest with
        | '-' :: digits => (true, digits)
        | '+' :: digits => (false, digits)
        | digits => (false, digits)
      if digits.isEmpty || !digits.all Char.isDigit then none
      else
        let n : Int := natOfDigits digits
        some (some (if negative then -n else n))
    else none

/-- The number that a run of characters writes. -/
def Numeral.ofChars? (cs : List Char) : Option Numeral := do
  let (negative, cs) : Bool × List Char := match cs with
    | '-' :: rest => (true, rest)
    | _ => (false, cs)
  let whole := cs.takeWhile Char.isDigit
  if !isWhole whole then none
  let (places, rest) ← fraction? (cs.dropWhile Char.isDigit)
  let exponent ← exponent? rest
  return {
    decimal := ⟨negative, natOfDigits (whole ++ places), exponent.getD 0 - places.length⟩
    integral := places.isEmpty && exponent.isNone }

/-- The token that a run of characters is. -/
def Token.ofRun? (cs : List Char) : Option Token :=
  if cs = ['n', 'u', 'l', 'l'] then some .null
  else if cs = ['t', 'r', 'u', 'e'] then some (.bool true)
  else if cs = ['f', 'a', 'l', 's', 'e'] then some (.bool false)
  else (Numeral.ofChars? cs).map .number

/-! ### Quoted texts -/

/-- The first half of a surrogate pair. -/
def isHigh (u : Nat) : Bool := decide (0xD800 ≤ u) && decide (u < 0xDC00)

/-- The second half of a surrogate pair. -/
def isLow (u : Nat) : Bool := decide (0xDC00 ≤ u) && decide (u < 0xE000)

/-- The characters that code points spell, a high surrogate pairing with the low one behind it. -/
def charsOfUnits? : List Nat → Option (List Char)
  | [] => some []
  | [u] => if isHigh u || isLow u then none else some [Char.ofNat u]
  | u :: v :: rest =>
    if isHigh u then
      if isLow v then
        (charsOfUnits? rest).map
          (Char.ofNat (0x10000 + (u - 0xD800) * 0x400 + (v - 0xDC00)) :: ·)
      else none
    else if isLow u then none
    else (charsOfUnits? (v :: rest)).map (Char.ofNat u :: ·)

/-- The token of a quoted text, from its code points. -/
def Token.ofUnits (units : List Nat) : Token :=
  .text ((charsOfUnits? units).map String.ofList)

/-- What a one-letter escape stands for. -/
def escaped? : Char → Option Nat
  | '"' => some 0x22
  | '\\' => some 0x5C
  | '/' => some 0x2F
  | 'b' => some 0x08
  | 'f' => some 0x0C
  | 'n' => some 0x0A
  | 'r' => some 0x0D
  | 't' => some 0x09
  | _ => none

/-- The value of a hexadecimal digit of either case. -/
def hexValue? (c : Char) : Option Nat :=
  if '0' ≤ c ∧ c ≤ '9' then some (c.toNat - 48)
  else if 'a' ≤ c ∧ c ≤ 'f' then some (c.toNat - 87)
  else if 'A' ≤ c ∧ c ≤ 'F' then some (c.toNat - 55)
  else none

/-! ### Cutting a text into tokens -/

/-- Where in the text the next character stands. Characters and code points seen since the token
began are in reverse order. -/
inductive Mode where
  /-- Between tokens. -/
  | between
  /-- In a word or numeral. -/
  | run (seen : List Char)
  /-- In a quoted text. -/
  | quoted (seen : List Nat)
  /-- Behind a backslash in a quoted text. -/
  | escape (seen : List Nat)
  /-- In a code point of four hexadecimal digits; `left` more follow after the next one. -/
  | code (seen : List Nat) (value left : Nat)

/-- The token that a character is by itself and the mode behind it, if the character ends a run:
blanks, punctuation and the quote do. -/
def boundary? (c : Char) : Option (List Token × Mode) :=
  if c = ' ' ∨ c = '\t' ∨ c = '\n' ∨ c = '\r' then some ([], .between)
  else if c = '"' then some ([], .quoted [])
  else if c = '[' then some ([.openArray], .between)
  else if c = ']' then some ([.closeArray], .between)
  else if c = '\x7b' then some ([.openObject], .between)
  else if c = '\x7d' then some ([.closeObject], .between)
  else if c = ':' then some ([.colon], .between)
  else if c = ',' then some ([.comma], .between)
  else none

/-- The tokens of a text, from a mode on. -/
def tokensFrom : Mode → List Char → Option (List Token)
  | .between, [] => some []
  | .run seen, [] => (Token.ofRun? seen.reverse).map ([·])
  | .quoted _, [] => none
  | .escape _, [] => none
  | .code .., [] => none
  | .between, c :: rest =>
    match boundary? c with
    | some (ts, mode) => (tokensFrom mode rest).map (ts ++ ·)
    | none => tokensFrom (.run [c]) rest
  | .run seen, c :: rest =>
    match boundary? c with
    | some (ts, mode) =>
      match Token.ofRun? seen.reverse with
      | some t => (tokensFrom mode rest).map (t :: ts ++ ·)
      | none => none
    | none => tokensFrom (.run (c :: seen)) rest
  | .quoted seen, c :: rest =>
    if c = '"' then (tokensFrom .between rest).map (Token.ofUnits seen.reverse :: ·)
    else if c = '\\' then tokensFrom (.escape seen) rest
    else if c.toNat < 0x20 then none
    else tokensFrom (.quoted (c.toNat :: seen)) rest
  | .escape seen, c :: rest =>
    if c = 'u' then tokensFrom (.code seen 0 3) rest
    else
      match escaped? c with
      | some u => tokensFrom (.quoted (u :: seen)) rest
      | none => none
  | .code seen value left, c :: rest =>
    match hexValue? c, left with
    | some h, 0 => tokensFrom (.quoted ((16 * value + h) :: seen)) rest
    | some h, left + 1 => tokensFrom (.code seen (16 * value + h) left) rest
    | none, _ => none

/-- The tokens of a text, if it has any cut into tokens. -/
def tokens? (cs : List Char) : Option (List Token) :=
  tokensFrom .between cs

end Json

end VersionedModel
