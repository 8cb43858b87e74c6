/-!
# Shortest decimal digits

The fewest digits that single out a finite binary number among its neighbours, nearest to
it among all texts of that length. A positive finite `Float` is `mantissa · 2 ^ exponent`;
the numbers that round to it form an interval, whose ends belong to it when the mantissa is
even. For one digit, two digits, and so on, the two points of that decimal grid that
enclose the number are tried in exact arithmetic, and the first grid with a point in the
interval decides.
-/

namespace Phrasebook.Decimal

/-- The number `digits · 10 ^ exponent`. -/
structure Scientific where
  digits : Nat
  exponent : Int
deriving DecidableEq, Repr

/-- A positive number with the interval that rounds to it, all over one denominator. -/
structure Rounding where
  value : Nat
  low : Nat
  high : Nat
  denominator : Nat
  closed : Bool

/-- The rounding interval of `mantissa · 2 ^ exponent`. The neighbour below is half as far
away when the mantissa is a power of two with a full exponent, said by `uneven`. -/
def Rounding.ofBinary (mantissa : Nat) (exponent : Int) (uneven : Bool) : Rounding :=
  let scale := Nat.pow 2 (exponent - 2).toNat
  { value := 4 * mantissa * scale
    low := (4 * mantissa - if uneven then 1 else 2) * scale
    high := (4 * mantissa + 2) * scale
    denominator := Nat.pow 2 (2 - exponent).toNat
    closed := mantissa % 2 = 0 }

/-- Whether `point · 10 ^ exponent` lies in the interval. -/
def Rounding.holds (interval : Rounding) (point : Nat) (exponent : Int) : Bool :=
  let here := point * Nat.pow 10 exponent.toNat * interval.denominator
  let low := interval.low * Nat.pow 10 (-exponent).toNat
  let high := interval.high * Nat.pow 10 (-exponent).toNat
  if interval.closed then low ≤ here && here ≤ high else low < here && here < high

/-- The point of the grid of multiples of `10 ^ exponent` that is in the interval and
nearest to the number. Of two points at one distance the greater is taken. -/
def Rounding.onGrid? (interval : Rounding) (exponent : Int) : Option Nat :=
  let unit := Nat.pow 10 exponent.toNat * interval.denominator
  let value := interval.value * Nat.pow 10 (-exponent).toNat
  let below := value / unit
  match interval.holds below exponent, interval.holds (below + 1) exponent with
  | true, true => if 2 * (value % unit) < unit then some below else some (below + 1)
  | true, false => some below
  | false, true => some (below + 1)
  | false, false => none

/-- The first grid, of the given number of finer and finer grids, that has a point in the
interval. -/
def Rounding.search (interval : Rounding) : Nat → Int → Option Scientific
  | 0, _ => none
  | grids + 1, exponent =>
      match interval.onGrid? exponent with
      | some point => some ⟨point, exponent⟩
      | none => interval.search grids (exponent - 1)

/-- How often a number below one must be multiplied by ten to reach one, counted up to a
bound. -/
def leadingZeros (denominator : Nat) : Nat → Nat → Nat
  | 0, _ => 0
  | bound + 1, value =>
      if denominator ≤ value then 0 else leadingZeros denominator bound (value * 10) + 1

/-- The exponent of the leading decimal digit. -/
def Rounding.magnitude (interval : Rounding) : Int :=
  if interval.denominator ≤ interval.value then
    ((Nat.toDigits 10 (interval.value / interval.denominator)).length : Int) - 1
  else -(leadingZeros interval.denominator 400 interval.value : Int)

/-- Moves a final zero of the digits into the exponent. -/
def Scientific.trim (number : Scientific) : Scientific :=
  if number.digits % 10 = 0 then ⟨number.digits / 10, number.exponent + 1⟩ else number

/-- The shortest digits for the number; seventeen always suffice for a `Float`. -/
def Rounding.shortest (interval : Rounding) : Scientific :=
  ((interval.search 17 interval.magnitude).getD ⟨0, 0⟩).trim

/-- What a `Float` is: an exception, or a signed product `mantissa · 2 ^ exponent`. -/
inductive Parts where
  | notANumber
  | infinite (negative : Bool)
  | finite (negative : Bool) (mantissa : Nat) (exponent : Int) (uneven : Bool)

/-- Takes the bits of a `Float` apart: one for the sign, eleven for the exponent and
fifty-two for the fraction. -/
def Parts.ofFloat (number : Float) : Parts :=
  let bits : Nat := number.toBits.toNat
  let negative : Bool := bits / Nat.pow 2 63 = 1
  let exponent : Nat := bits / Nat.pow 2 52 % Nat.pow 2 11
  let fraction : Nat := bits % Nat.pow 2 52
  if exponent = 2047 then
    if fraction = 0 then .infinite negative else .notANumber
  else if exponent = 0 then .finite negative fraction (-1074) false
  else .finite negative (Nat.pow 2 52 + fraction) ((exponent : Int) - 1075) (fraction = 0)

end Phrasebook.Decimal
