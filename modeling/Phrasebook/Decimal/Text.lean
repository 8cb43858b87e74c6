import Phrasebook.Decimal.Shortest

/-!
# Decimal text of a number

Numbers are written positionally, never with an exponent: the shortest digits, the zeros
that their place asks for, and a point only before a fraction.
-/

namespace Phrasebook.Decimal

/-- The positional text of `digits · 10 ^ exponent`. -/
def Scientific.positional (number : Scientific) : String :=
  let digits := Nat.toDigits 10 number.digits
  match number.exponent with
  | .ofNat zeros => String.ofList (digits ++ List.replicate zeros '0')
  | .negSucc below =>
      let places := below + 1
      if places < digits.length then
        String.ofList (digits.take (digits.length - places) ++
          '.' :: digits.drop (digits.length - places))
      else
        String.ofList ('0' :: '.' :: (List.replicate (places - digits.length) '0' ++ digits))

/-- The text of a `Float`. A zero keeps its sign, and the three exceptions have names. -/
def text (number : Float) : String :=
  match Parts.ofFloat number with
  | .notANumber => "NaN"
  | .infinite negative => if negative then "-inf" else "inf"
  | .finite negative mantissa exponent uneven =>
      let magnitude :=
        if mantissa = 0 then "0"
        else (Rounding.ofBinary mantissa exponent uneven).shortest.positional
      if negative then "-" ++ magnitude else magnitude

/-- The `Float` nearest to `digits · 10 ^ exponent`. Exponents far outside the range of the
format are answered without computing the power. -/
def Scientific.nearest (number : Scientific) : Float :=
  let magnitude := (Nat.toDigits 10 number.digits).length + number.exponent
  if number.digits = 0 || magnitude < -330 then 0
  else if magnitude > 310 then 1 / 0
  else Float.ofScientific number.digits (number.exponent < 0) number.exponent.natAbs

end Phrasebook.Decimal
