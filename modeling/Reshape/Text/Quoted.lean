import Reshape.Text.GraphemeExtend
import Reshape.Text.Ignorable
import Reshape.Text.Unprinted

/-!
# Quoted text

`quoted` writes a text between double quotes and `quotedChar` a character between
single quotes, on one line and with visible characters only. The five common escapes
are a backslash and a letter or digit ; the quote in use and the backslash get a
backslash ; a character that cannot be seen by itself (`isHidden`) is written by its code
point in hexadecimal (`escapedCode`).
-/

namespace Reshape.Text

/-- The two sound marks of the halfwidth kana. They extend a grapheme, but in a place of
their own, like letters. -/
def isHalfwidthSoundMark (c : Char) : Bool :=
  c == '\uff9e' || c == '\uff9f'

/-- The character has no printed form, is ignored by default, or would join the character
before it. -/
def isHidden (c : Char) : Bool :=
  isUnprinted c || isIgnorable c || (isGraphemeExtend c && !isHalfwidthSoundMark c)

/-- A backslash, `u`, and the code point in hexadecimal between braces. -/
def escapedCode (c : Char) : List Char :=
  ['\\', 'u', '\x7b'] ++ Nat.toDigits 16 c.toNat ++ ['\x7d']

/-- The character as it stands between two `quote` characters. -/
def escaped (quote c : Char) : List Char :=
  if c = '\x00' then ['\\', '0']
  else if c = '\t' then ['\\', 't']
  else if c = '\r' then ['\\', 'r']
  else if c = '\n' then ['\\', 'n']
  else if c = '\\' ∨ c = quote then ['\\', c]
  else if ' ' ≤ c ∧ c ≤ '~' then [c]
  else if isHidden c then escapedCode c
  else [c]

/-- The text between double quotes. -/
def quoted (s : String) : String :=
  String.ofList ('\x22' :: (s.toList.flatMap (escaped '\x22') ++ ['\x22']))

/-- The character between single quotes. -/
def quotedChar (c : Char) : String :=
  String.ofList ('\x27' :: (escaped '\x27' c ++ ['\x27']))

end Reshape.Text
