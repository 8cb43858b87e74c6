import Phrasebook.Decimal.Reading

/-!
# Dates and times

A date, a time, or both, perhaps with an offset. Dates follow the calendar, and a minute
may have a leap second. Documents hold them as text in one canonical form.
-/

namespace Phrasebook.Toml

structure Date where
  year : Nat
  month : Nat
  day : Nat
deriving DecidableEq, Repr

/-- A time of day. Seconds may be left out, and a fraction is kept to nine digits. -/
structure Time where
  hour : Nat
  minute : Nat
  second : Option Nat
  fraction : Option (List Char)
deriving DecidableEq, Repr

/-- How far a time is from universal time. -/
inductive Offset where
  | universal
  | minutes (value : Int)
deriving DecidableEq, Repr

inductive DateTime where
  | date (date : Date)
  | time (time : Time)
  | both (date : Date) (time : Time) (offset : Option Offset)
deriving DecidableEq, Repr

def isLeapYear (year : Nat) : Bool :=
  year % 4 = 0 && (year % 100 ≠ 0 || year % 400 = 0)

def daysOfMonth (year month : Nat) : Nat :=
  if month = 2 then (if isLeapYear year then 29 else 28)
  else if [4, 6, 9, 11].contains month then 30
  else 31

def Date.isValid (date : Date) : Bool :=
  1 ≤ date.month && date.month ≤ 12 && 1 ≤ date.day && date.day ≤ daysOfMonth date.year date.month

def Time.isValid (time : Time) : Bool :=
  time.hour ≤ 23 && time.minute ≤ 59 && time.second.getD 0 ≤ 60

/-! ### Canonical text -/

/-- A number with zeros in front of it up to a width. -/
def padded (width number : Nat) : String :=
  let digits := Nat.toDigits 10 number
  String.ofList (List.replicate (width - digits.length) '0' ++ digits)

def Date.text (date : Date) : String :=
  padded 4 date.year ++ "-" ++ padded 2 date.month ++ "-" ++ padded 2 date.day

/-- A fraction without the zeros at its end, but with one digit at least. -/
def fractionText (digits : List Char) : String :=
  match ((digits.take 9).reverse.dropWhile (· = '0')).reverse with
  | [] => ".0"
  | kept => "." ++ String.ofList kept

def Time.text (time : Time) : String :=
  padded 2 time.hour ++ ":" ++ padded 2 time.minute ++
    (match time.second with
      | some second => ":" ++ padded 2 second
      | none => "") ++
    (match time.fraction with
      | some digits => fractionText digits
      | none => "")

def Offset.text : Offset → String
  | .universal => "Z"
  | .minutes value =>
      let size := value.natAbs
      (if value < 0 then "-" else "+") ++ padded 2 (size / 60) ++ ":" ++ padded 2 (size % 60)

def DateTime.text : DateTime → String
  | .date day => day.text
  | .time clock => clock.text
  | .both day clock offset => day.text ++ "T" ++ clock.text ++ (offset.map Offset.text).getD ""

/-! ### Reading -/

/-- A number of exactly `count` digits, and the rest. -/
def takeNumber? (count : Nat) (text : List Char) : Option (Nat × List Char) :=
  let digits := text.take count
  if digits.length = count && digits.all Char.isDigit then
    some (Decimal.natOfDigits 0 digits, text.drop count)
  else none

def takeDate? (text : List Char) : Option (Date × List Char) := do
  let (year, text) ← takeNumber? 4 text
  let '-' :: text := text | none
  let (month, text) ← takeNumber? 2 text
  let '-' :: text := text | none
  let (day, text) ← takeNumber? 2 text
  let date : Date := ⟨year, month, day⟩
  if date.isValid then some (date, text) else none

/-- The fraction of a second, if there is one. -/
def takeFraction? : List Char → Option (Option (List Char) × List Char)
  | '.' :: text =>
      let (digits, rest) := Decimal.spanDigits text
      if digits.isEmpty then none else some (some digits, rest)
  | text => some (none, text)

def takeTime? (text : List Char) : Option (Time × List Char) := do
  let (hour, text) ← takeNumber? 2 text
  let ':' :: text := text | none
  let (minute, text) ← takeNumber? 2 text
  let (time, text) : Time × List Char ← match text with
    | ':' :: text => do
        let (second, text) ← takeNumber? 2 text
        let (fraction, text) ← takeFraction? text
        some (⟨hour, minute, some second, fraction⟩, text)
    | text => some (⟨hour, minute, none, none⟩, text)
  if time.isValid then some (time, text) else none

/-- The offset behind a time, up to the end. -/
def offset? : List Char → Option (Option Offset)
  | [] => some none
  | ['Z'] => some (some .universal)
  | ['z'] => some (some .universal)
  | sign :: text => do
      if sign ≠ '+' ∧ sign ≠ '-' then none
      let (hours, text) ← takeNumber? 2 text
      let ':' :: text := text | none
      let (minutes, text) ← takeNumber? 2 text
      if text.isEmpty && hours ≤ 23 && minutes ≤ 59 then
        let size : Int := 60 * hours + minutes
        some (some (.minutes (if sign = '-' then -size else size)))
      else none

/-- Whether a character may stand between a date and its time. -/
def isDateEnd (c : Char) : Bool :=
  c = 'T' || c = 't' || c = ' '

def DateTime.ofChars? (text : List Char) : Option DateTime :=
  match takeDate? text with
  | some (day, []) => some (.date day)
  | some (day, c :: rest) =>
      if isDateEnd c then
        match takeTime? rest with
        | some (clock, after) => (offset? after).map fun offset => .both day clock offset
        | none => none
      else none
  | none =>
      match takeTime? text with
      | some (clock, []) => some (.time clock)
      | _ => none

end Phrasebook.Toml
