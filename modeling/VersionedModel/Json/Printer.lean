import VersionedModel.Binary64.Shortest
import VersionedModel.Json.Basic

/-!
# Writing JSON

`Json.render` writes a tree as text, either in one line without blanks or with one item per line,
indented by two spaces for each level. Only the quote, the backslash and the control characters
are escaped; numbers are written with `Json.numberLayout`.
-/

namespace VersionedModel

namespace Json

/-- Of two equally near decimals the even one is written. Numbers are written out from five places
behind the point to sixteen before it; an exponent always has its sign. -/
def numberLayout : Binary64.Layout := ⟨.even, -5, 15, true⟩

/-- How a tree is set out. -/
inductive Style where
  /-- In one line, without blanks. -/
  | compact
  /-- One item or member per line. -/
  | pretty
  deriving DecidableEq, Repr

/-- The line break before what stands at a level. -/
def Style.break : Style → Nat → List Char
  | .compact, _ => []
  | .pretty, level => '\n' :: List.replicate (2 * level) ' '

/-- What stands between a key and its value. -/
def Style.colon : Style → List Char
  | .compact => [':']
  | .pretty => [':', ' ']

/-- A hexadecimal digit of lower case. -/
def hexDigit (n : Nat) : Char :=
  if n < 10 then Char.ofNat (48 + n) else Char.ofNat (87 + n)

/-- The form of one character inside a text. -/
def escapeChar (c : Char) : List Char :=
  if c = '"' then ['\\', '"']
  else if c = '\\' then ['\\', '\\']
  else if c = '\x08' then ['\\', 'b']
  else if c = '\t' then ['\\', 't']
  else if c = '\n' then ['\\', 'n']
  else if c = '\x0c' then ['\\', 'f']
  else if c = '\r' then ['\\', 'r']
  else if c.toNat < 0x20 then
    ['\\', 'u', '0', '0', hexDigit (c.toNat / 16), hexDigit (c.toNat % 16)]
  else [c]

/-- A text in quotes. -/
def textChars (s : String) : List Char :=
  '"' :: s.toList.flatMap escapeChar ++ ['"']

/-- An integer in decimal digits. -/
def integerChars (n : Int) : List Char :=
  (if n < 0 then ['-'] else []) ++ Nat.toDigits 10 n.natAbs

mutual

/-- The characters of a tree that stands at a level. -/
def chars (style : Style) (level : Nat) : Json → List Char
  | null => ['n', 'u', 'l', 'l']
  | bool true => ['t', 'r', 'u', 'e']
  | bool false => ['f', 'a', 'l', 's', 'e']
  | integer n => integerChars n
  | float x => (x.render numberLayout).toList
  | string s => textChars s
  | array [] => ['[', ']']
  | array (j :: js) =>
    '[' :: style.break (level + 1) ++ j.chars style (level + 1) ++
      itemChars style (level + 1) js ++ style.break level ++ [']']
  | object [] => ['\x7b', '\x7d']
  | object ((k, j) :: ms) =>
    '\x7b' :: style.break (level + 1) ++ textChars k ++ style.colon ++
      j.chars style (level + 1) ++ memberChars style (level + 1) ms ++ style.break level ++
      ['\x7d']

/-- The characters of the items behind the first one. -/
def itemChars (style : Style) (level : Nat) : List Json → List Char
  | [] => []
  | j :: js => ',' :: style.break level ++ j.chars style level ++ itemChars style level js

/-- The characters of the members behind the first one. -/
def memberChars (style : Style) (level : Nat) : List (String × Json) → List Char
  | [] => []
  | (k, j) :: ms =>
    ',' :: style.break level ++ textChars k ++ style.colon ++ j.chars style level ++
      memberChars style level ms

end

/-- The text of a tree. -/
def render (style : Style) (j : Json) : String :=
  String.ofList (j.chars style 0)

/-- The text of a tree in one line. -/
def compact (j : Json) : String :=
  j.render .compact

/-- The UTF-8 form of a text. -/
def bytesOf (s : String) : List UInt8 :=
  s.toUTF8.toList

end Json

end VersionedModel
