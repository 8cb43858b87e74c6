import Phrasebook.Text.Hex
import Phrasebook.Toml.DateTime
import Phrasebook.Value

/-!
# Bare scalars

Values that are written without quotes: truth values, numbers, dates and times. Digits may
be grouped by single underscores. Integers have to fit in 64 bits, and fractions must not
exceed the range of their format.
-/

namespace Phrasebook.Toml

open Text (hexValue?)

/-- Digits without the underscores that group them. -/
def ungroup? (isDigit : Char → Bool) : List Char → Option (List Char)
  | [] => none
  | [c] => if isDigit c then some [c] else none
  | c :: '_' :: rest => if isDigit c then (ungroup? isDigit rest).map (c :: ·) else none
  | c :: rest => if isDigit c then (ungroup? isDigit rest).map (c :: ·) else none

/-- An integer of 64 bits, without a sign only where it needs all of them. -/
def integer? (value : Int) : Option Number :=
  if Int64.minValue.toInt ≤ value ∧ value ≤ Int64.maxValue.toInt then some (.signed (Int64.ofInt value))
  else if 0 ≤ value ∧ value.toNat < UInt64.size then some (.unsigned (UInt64.ofNat value.toNat))
  else none

/-- An integer in another base than ten, after its mark. -/
def basedInteger? (base : Nat) (text : List Char) : Option Number := do
  let digits ← ungroup? (fun c => (hexValue? c).any (· < base)) text
  integer? (digits.foldl (fun value c => base * value + (hexValue? c).getD 0) 0 : Nat)

/-- Decimal digits that do not start with an idle zero. -/
def wholeDigits? (text : List Char) : Option (List Char) :=
  match ungroup? Char.isDigit text with
  | some ('0' :: _ :: _) => none
  | digits => digits

def exponent? (text : List Char) : Option Int :=
  match text with
  | '-' :: rest => (ungroup? Char.isDigit rest).map fun digits => -(Decimal.natOfDigits 0 digits : Int)
  | '+' :: rest => (ungroup? Char.isDigit rest).map fun digits => (Decimal.natOfDigits 0 digits : Int)
  | rest => (ungroup? Char.isDigit rest).map fun digits => (Decimal.natOfDigits 0 digits : Int)

/-- The exponent behind its letter, zero when there is none. -/
def exponentPart? : List Char → Option Int
  | [] => some 0
  | letter :: rest => if letter = 'e' || letter = 'E' then exponent? rest else none

def isGroupedDigit (c : Char) : Bool :=
  c.isDigit || c = '_'

/-- A number without a sign: an integer, or a fraction with a point, an exponent or both. -/
def magnitude? (negative : Bool) (text : List Char) : Option Number :=
  let (whole, rest) := text.span isGroupedDigit
  match wholeDigits? whole with
  | none => none
  | some digits =>
      let start := Decimal.natOfDigits 0 digits
      let real := fun (number : Decimal.Scientific) =>
        let value := number.nearest
        if value.isInf then none else some (Number.real (if negative then -value else value))
      match rest with
      | [] => integer? (if negative then -(start : Int) else start)
      | '.' :: after =>
          let (grouped, tail) := after.span isGroupedDigit
          match ungroup? Char.isDigit grouped, exponentPart? tail with
          | some places, some exponent =>
              real ⟨Decimal.natOfDigits start places, exponent - places.length⟩
          | _, _ => none
      | tail =>
          match exponentPart? tail with
          | some exponent => real ⟨start, exponent⟩
          | none => none

def signedNumber? (negative : Bool) (text : List Char) : Option Number :=
  if text = ['i', 'n', 'f'] then some (.real (if negative then -(1 / 0) else 1 / 0))
  else if text = ['n', 'a', 'n'] then some (.real (0 / 0))
  else magnitude? negative text

def number? : List Char → Option Number
  | '0' :: 'x' :: digits => basedInteger? 16 digits
  | '0' :: 'o' :: digits => basedInteger? 8 digits
  | '0' :: 'b' :: digits => basedInteger? 2 digits
  | '+' :: rest => signedNumber? false rest
  | '-' :: rest => signedNumber? true rest
  | rest => signedNumber? false rest

/-- The key under which a mapping holds the text of a date or time. -/
def dateTimeKey : String := "$__toml_private_datetime"

def scalar? (text : List Char) : Option Value :=
  if text = ['t', 'r', 'u', 'e'] then some (.boolean true)
  else if text = ['f', 'a', 'l', 's', 'e'] then some (.boolean false)
  else
    match number? text with
    | some number => some (.number number)
    | none =>
        (DateTime.ofChars? text).map fun dateTime =>
          .mapping [(dateTimeKey, .string dateTime.text)]

end Phrasebook.Toml
