import Phrasebook.Text.Quoted
import Phrasebook.Text.Shapeless

/-!
# Texts displayed for a reader

A text between double quotes, in which a reader can tell every character: the quote, the
backslash and the common controls have short escapes, and any other character without a
shape of its own is given by its number.
-/

namespace Phrasebook.Text.Displayed

/-- What stands for one character between the quotes. -/
def escape (c : Char) : List Char :=
  if c = '"' then ['\\', '"']
  else if c = '\\' then ['\\', '\\']
  else if c = '\n' then ['\\', 'n']
  else if c = '\r' then ['\\', 'r']
  else if c = '\t' then ['\\', 't']
  else if c.toNat = 0 then ['\\', '0']
  else if isControl c || isShapeless c then
    '\\' :: 'u' :: '{' :: (Nat.toDigits 16 c.toNat ++ ['}'])
  else [c]

/-- The displayed form of a text, quotes included. -/
def encode (text : String) : String :=
  String.ofList ('"' :: (text.toList.flatMap escape ++ ['"']))

end Phrasebook.Text.Displayed
