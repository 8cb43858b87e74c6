/-!
# Hexadecimal digits

Numbers written with a fixed count of hexadecimal digits, as escapes in texts use them.
-/

namespace Phrasebook.Text

/-- The value of a hexadecimal digit in either case. -/
def hexValue? (c : Char) : Option Nat :=
  if c.isDigit then some (c.toNat - 48)
  else if 'a' ≤ c ∧ c ≤ 'f' then some (c.toNat - 87)
  else if 'A' ≤ c ∧ c ≤ 'F' then some (c.toNat - 55)
  else none

/-- The number that `count` hexadecimal digits go on to from `start`, and the rest. -/
def takeHex? : (count start : Nat) → List Char → Option (Nat × List Char)
  | 0, start, text => some (start, text)
  | _ + 1, _, [] => none
  | count + 1, start, c :: rest =>
      match hexValue? c with
      | some digit => takeHex? count (16 * start + digit) rest
      | none => none

/-- The character whose code is the next `count` hexadecimal digits, and the rest. -/
def takeCode? (count : Nat) (text : List Char) : Option (Char × List Char) :=
  match takeHex? count 0 text with
  | some (code, rest) => if code.isValidChar then some (Char.ofNat code, rest) else none
  | none => none

end Phrasebook.Text
