import Phrasebook.Decimal.Text

/-!
# Reading decimal numbers

A decimal number has digits before or behind a point, or both, and perhaps an exponent
behind the letter `e` in either case. It denotes the `Float` nearest to it.
-/

namespace Phrasebook.Decimal

def digitValue (c : Char) : Nat := c.toNat - '0'.toNat

/-- The number that a list of decimal digits goes on to, from a number read before. -/
def natOfDigits (start : Nat) (digits : List Char) : Nat :=
  digits.foldl (fun value digit => 10 * value + digitValue digit) start

def spanDigits (text : List Char) : List Char × List Char :=
  text.span Char.isDigit

/-- An exponent after its letter: an optional sign, and at least one digit to the end. -/
def readExponent? (text : List Char) : Option Int :=
  let (negative, digits) := match text with
    | '+' :: rest => (false, rest)
    | '-' :: rest => (true, rest)
    | rest => (false, rest)
  if digits.isEmpty || !digits.all Char.isDigit then none
  else
    let value : Int := natOfDigits 0 digits
    some (if negative then -value else value)

def readUnsigned? (text : List Char) : Option Scientific :=
  let (whole, afterWhole) := spanDigits text
  let (fraction, afterFraction) := match afterWhole with
    | '.' :: rest => spanDigits rest
    | rest => ([], rest)
  if whole.isEmpty && fraction.isEmpty then none
  else
    let digits := natOfDigits (natOfDigits 0 whole) fraction
    match afterFraction with
    | [] => some ⟨digits, -fraction.length⟩
    | letter :: rest =>
        if letter = 'e' || letter = 'E' then
          (readExponent? rest).map fun exponent => ⟨digits, exponent - fraction.length⟩
        else none

def readFloat? : List Char → Option Float
  | '-' :: rest => (readUnsigned? rest).map fun number => -number.nearest
  | '+' :: rest => (readUnsigned? rest).map Scientific.nearest
  | rest => (readUnsigned? rest).map Scientific.nearest

end Phrasebook.Decimal
