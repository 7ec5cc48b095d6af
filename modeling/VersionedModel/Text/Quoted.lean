import VersionedModel.Text.Identifier
import VersionedModel.Text.QuotedTable

/-!
# Quoted text

How a text is shown inside double quotes, so that no character can be mistaken or overlooked.
NUL, tab, the line ends, the quote and the backslash have two-character forms, a character of
`spelledRanges` is spelled out by its code point in lower-case hexadecimal, and every other
character stands for itself.
-/

namespace VersionedModel

namespace Text

/-- A number in lower-case hexadecimal, without leading zeros. -/
def hexadecimal (n : Nat) : List Char :=
  Nat.toDigits 16 n

/-- The form of one character inside double quotes. -/
def quotedChar (c : Char) : List Char :=
  if c = '\x00' then ['\\', '0']
  else if c = '\t' then ['\\', 't']
  else if c = '\r' then ['\\', 'r']
  else if c = '\n' then ['\\', 'n']
  else if c = '"' then ['\\', '"']
  else if c = '\\' then ['\\', '\\']
  else if inRanges spelledRanges c then
    '\\' :: 'u' :: '\x7b' :: hexadecimal c.toNat ++ ['\x7d']
  else [c]

/-- A text in double quotes. -/
def quoted (s : String) : String :=
  String.ofList ('"' :: s.toList.flatMap quotedChar ++ ['"'])

end Text

end VersionedModel
