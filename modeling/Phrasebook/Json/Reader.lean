import Phrasebook.Decimal.Reading
import Phrasebook.Text.Hex
import Phrasebook.Text.Span
import Phrasebook.Value

/-!
# Reading JSON documents

Each reader takes a text from its front and returns what is left. A fault says how many
bytes were left when it was found, from which the position in the text follows. Values may
be nested 127 deep. Repeated keys are given as they are written.
-/

namespace Phrasebook.Json

open Text (byteSize)

/-- Where reading failed: the number of bytes that had not been read. -/
structure Fault where
  left : Nat
deriving DecidableEq, Repr

/-- A fault found after reading everything before `rest`. -/
def Fault.before (rest : List Char) : Fault := ⟨byteSize rest⟩

/-- A fault found by looking at the first byte of `rest`. -/
def Fault.at (rest : List Char) : Fault := ⟨byteSize rest - 1⟩

def skipBlanks (text : List Char) : List Char :=
  text.dropWhile fun c => c = ' ' || c = '\n' || c = '\t' || c = '\r'

/-! ### Numbers -/

/-- Adds digits to a number as long as it fits in 64 bits: the number, how many digits were
added, and the rest. -/
def takeDigits (significand : Nat) : List Char → Nat × Nat × List Char
  | [] => (significand, 0, [])
  | c :: rest =>
      let next := 10 * significand + Decimal.digitValue c
      if c.isDigit && next < UInt64.size then
        let (total, count, after) := takeDigits next rest
        (total, count + 1, after)
      else (significand, 0, c :: rest)

def powerOfTen (exponent : Nat) : Float := Float.ofScientific 1 false exponent

/-- Divides by a power of ten, by steps of 308 places. -/
def scaleDown : Nat → Float → Nat → Float
  | 0, value, places => value / powerOfTen places
  | steps + 1, value, places =>
      if places ≤ 308 then value / powerOfTen places
      else if value == 0 then value
      else scaleDown steps (value / powerOfTen 308) (places - 308)

/-- The fraction `significand · 10 ^ exponent`: the nearest `Float` to the significand,
scaled by one power of ten. Three steps take any significand to zero. -/
def scaled? (significand : Nat) (exponent : Int) : Option Float :=
  let value := (UInt64.ofNat significand).toFloat
  match exponent with
  | .ofNat places =>
      if places ≤ 308 then
        let product := value * powerOfTen places
        if product.isInf then none else some product
      else if significand = 0 then some 0 else none
  | .negSucc below => some (scaleDown 3 value (below + 1))

def signed (positive : Bool) (value : Float) : Number :=
  .real (if positive then value else -value)

/-- The fraction that ends here; one that is too large is a fault. -/
def endFraction (positive : Bool) (significand : Nat) (exponent : Int) (rest : List Char) :
    Except Fault (Number × List Char) :=
  match scaled? significand exponent with
  | some value => .ok (signed positive value, rest)
  | none => .error (.before rest)

/-- The digits of an exponent, read up to the first one that exceeds 31 bits. -/
def takeExponent (value : Nat) : List Char → Nat × Bool × List Char
  | [] => (value, true, [])
  | c :: rest =>
      if c.isDigit then
        let next := 10 * value + Decimal.digitValue c
        if next < Nat.pow 2 31 then takeExponent next rest else (value, false, rest)
      else (value, true, c :: rest)

def readExponent (positive : Bool) (significand : Nat) (start : Int) (text : List Char) :
    Except Fault (Number × List Char) :=
  let (upward, digits) := match text with
    | '+' :: rest => (true, rest)
    | '-' :: rest => (false, rest)
    | rest => (true, rest)
  match digits with
  | [] => .error (.before [])
  | first :: _ =>
      if !first.isDigit then .error (.at digits)
      else
        let (value, fits, rest) := takeExponent 0 digits
        if fits then
          endFraction positive significand (if upward then start + value else start - value) rest
        else if significand ≠ 0 ∧ upward then .error (.before rest)
        else .ok (signed positive 0, rest.dropWhile Char.isDigit)

/-- What may follow the digits of a number whose value is a fraction. -/
def afterDigits (positive : Bool) (significand : Nat) (exponent : Int) (text : List Char) :
    Except Fault (Number × List Char) :=
  match text with
  | 'e' :: rest => readExponent positive significand exponent rest
  | 'E' :: rest => readExponent positive significand exponent rest
  | rest => endFraction positive significand exponent rest

/-- Reads the digits behind a point. Digits that do not fit in 64 bits are ignored. -/
def readFraction (positive : Bool) (significand : Nat) (exponent : Int) (text : List Char) :
    Except Fault (Number × List Char) :=
  let (total, count, rest) := takeDigits significand text
  match rest with
  | c :: _ =>
      if c.isDigit then
        afterDigits positive total (exponent - count) (rest.dropWhile Char.isDigit)
      else if count = 0 then .error (.at rest)
      else afterDigits positive total (exponent - count) rest
  | [] => if count = 0 then .error (.at rest) else afterDigits positive total (exponent - count) rest

/-- An integer in 64 bits, signed when it is negative. Minus zero and integers below the
range are fractions. -/
def wholeNumber (positive : Bool) (significand : Nat) : Number :=
  if positive then .unsigned (UInt64.ofNat significand)
  else if significand = 0 ∨ Nat.pow 2 63 < significand then
    .real (-(UInt64.ofNat significand).toFloat)
  else .signed (Int64.ofInt (-(significand : Int)))

/-- What may follow the first digits of a number. -/
def afterWhole (positive : Bool) (significand : Nat) (text : List Char) :
    Except Fault (Number × List Char) :=
  let (dropped, rest) := Decimal.spanDigits text
  match rest with
  | '.' :: after => readFraction positive significand dropped.length after
  | 'e' :: after => readExponent positive significand dropped.length after
  | 'E' :: after => readExponent positive significand dropped.length after
  | _ =>
      if dropped.isEmpty then .ok (wholeNumber positive significand, rest)
      else endFraction positive significand dropped.length rest

/-- Reads a number after its sign. A leading zero stands alone. -/
def readNumber (positive : Bool) (text : List Char) : Except Fault (Number × List Char) :=
  match text with
  | [] => .error (.before [])
  | '0' :: rest =>
      match rest with
      | c :: _ => if c.isDigit then .error (.at rest) else afterWhole positive 0 rest
      | [] => afterWhole positive 0 rest
  | c :: _ =>
      if c.isDigit then
        let (significand, _, rest) := takeDigits 0 text
        afterWhole positive significand rest
      else .error (.at text)

/-! ### Texts -/

/-- The character that a short escape stands for. -/
def unescape? : Char → Option Char
  | '"' => some '"'
  | '\\' => some '\\'
  | '/' => some '/'
  | 'b' => some (Char.ofNat 8)
  | 'f' => some (Char.ofNat 12)
  | 'n' => some '\n'
  | 'r' => some '\r'
  | 't' => some '\t'
  | _ => none

/-- The character after the letter of a numeric escape. Two escapes that form a surrogate
pair give one character, and no surrogate may stand alone. -/
def readUnicode (text : List Char) : Except Fault (Char × List Char) :=
  match Text.takeHex? 4 0 text with
  | none => .error ⟨byteSize text - 4⟩
  | some (code, rest) =>
      if 0xDC00 ≤ code ∧ code ≤ 0xDFFF then .error (.before rest)
      else if code < 0xD800 ∨ 0xDBFF < code then .ok (Char.ofNat code, rest)
      else match rest with
        | '\\' :: 'u' :: low =>
            match Text.takeHex? 4 0 low with
            | none => .error ⟨byteSize low - 4⟩
            | some (second, after) =>
                if second < 0xDC00 ∨ 0xDFFF < second then .error (.before after)
                else
                  .ok (Char.ofNat (0x10000 + (code - 0xD800) * 1024 + (second - 0xDC00)), after)
        | '\\' :: after => .error (.at after)
        | _ => .error (.at rest)

/-- Reads a text after its opening quote, with at most `fuel` characters and escapes. -/
def readTextWithin : Nat → List Char → Except Fault (List Char × List Char)
  | 0, chars => .error (.before chars)
  | fuel + 1, chars =>
      match chars with
      | [] => .error (.before [])
      | '"' :: rest => .ok ([], rest)
      | '\\' :: rest => do
          let (c, after) ← match rest with
            | [] => .error (.before [])
            | 'u' :: digits => readUnicode digits
            | c :: after =>
                match unescape? c with
                | some meant => .ok (meant, after)
                | none => .error (.at rest)
          let (others, last) ← readTextWithin fuel after
          return (c :: others, last)
      | c :: rest =>
          if c.toNat < 0x20 then .error (.before rest)
          else do
            let (others, last) ← readTextWithin fuel rest
            return (c :: others, last)

def readText (text : List Char) : Except Fault (String × List Char) := do
  let (chars, rest) ← readTextWithin (text.length + 1) text
  return (String.ofList chars, rest)

/-! ### Values -/

def readWord : List Char → List Char → Except Fault (Unit × List Char)
  | [], chars => .ok ((), chars)
  | _ :: _, [] => .error (.before [])
  | expected :: others, c :: rest =>
      if c = expected then readWord others rest else .error (.at (c :: rest))

def readColon (text : List Char) : Except Fault (Unit × List Char) :=
  match skipBlanks text with
  | ':' :: rest => .ok ((), rest)
  | rest => .error (.at rest)

mutual

/-- Reads a value that may hold `depth - 1` levels of arrays and objects, with bounded
recursion. -/
def readValueWithin : Nat → Nat → List Char → Except Fault (Value × List Char)
  | 0, _, chars => .error (.before chars)
  | fuel + 1, depth, chars =>
      match skipBlanks chars with
      | 'n' :: rest => do
          let (_, after) ← readWord ['u', 'l', 'l'] rest
          return (.null, after)
      | 't' :: rest => do
          let (_, after) ← readWord ['r', 'u', 'e'] rest
          return (.boolean true, after)
      | 'f' :: rest => do
          let (_, after) ← readWord ['a', 'l', 's', 'e'] rest
          return (.boolean false, after)
      | '"' :: rest => do
          let (string, after) ← readText rest
          return (.string string, after)
      | '[' :: rest =>
          if depth ≤ 1 then .error (.at ('[' :: rest))
          else do
            let (items, after) ← readItemsWithin fuel (depth - 1) true rest
            return (.sequence items, after)
      | '{' :: rest =>
          if depth ≤ 1 then .error (.at ('{' :: rest))
          else do
            let (members, after) ← readMembersWithin fuel (depth - 1) true rest
            return (.mapping members, after)
      | '-' :: rest => do
          let (number, after) ← readNumber false rest
          return (.number number, after)
      | c :: rest =>
          if c.isDigit then do
            let (number, after) ← readNumber true (c :: rest)
            return (.number number, after)
          else .error (.at (c :: rest))
      | [] => .error (.before [])

/-- Reads the items of an array after its bracket or after an item. -/
def readItemsWithin : Nat → Nat → Bool → List Char → Except Fault (List Value × List Char)
  | 0, _, _, chars => .error (.before chars)
  | fuel + 1, depth, first, chars =>
      match skipBlanks chars with
      | ']' :: rest => .ok ([], rest)
      | ',' :: rest =>
          if first then do
            -- a comma is no value
            let (item, after) ← readValueWithin fuel depth (',' :: rest)
            let (others, last) ← readItemsWithin fuel depth false after
            return (item :: others, last)
          else match skipBlanks rest with
            | ']' :: after => .error (.at (']' :: after))
            | next => do
                let (item, after) ← readValueWithin fuel depth next
                let (others, last) ← readItemsWithin fuel depth false after
                return (item :: others, last)
      | rest =>
          if first && !rest.isEmpty then do
            let (item, after) ← readValueWithin fuel depth rest
            let (others, last) ← readItemsWithin fuel depth false after
            return (item :: others, last)
          else .error (.at rest)

/-- Reads the members of an object after its brace or after a member. -/
def readMembersWithin : Nat → Nat → Bool → List Char → Except Fault (List (String × Value) × List Char)
  | 0, _, _, chars => .error (.before chars)
  | fuel + 1, depth, first, chars =>
      let start := match skipBlanks chars with
        | ',' :: rest => if first then ',' :: rest else skipBlanks rest
        | rest => rest
      let separated : Bool := first || (skipBlanks chars).head? = some ','
      match start with
      | '}' :: rest =>
          if first || !separated then .ok ([], rest) else .error (.at ('}' :: rest))
      | '"' :: rest =>
          if !separated then .error (.at ('"' :: rest))
          else do
            let (key, afterKey) ← readText rest
            let (_, afterColon) ← readColon afterKey
            let (value, after) ← readValueWithin fuel depth afterColon
            let (others, last) ← readMembersWithin fuel depth false after
            return ((key, value) :: others, last)
      | rest => .error (.at rest)

end

inductive DocumentFault where
  | malformed (fault : Fault)
  /-- The text is well formed, but its root is neither a mapping nor null. -/
  | notAMapping (typeName : String)

/-- Reads a document. An empty one may be written as null; the root is judged before
anything that follows it. -/
def readDocument (text : List Char) : Except DocumentFault (Entries Value) :=
  match readValueWithin (2 * text.length + 2) 128 text with
  | .error fault => .error (.malformed fault)
  | .ok (root, rest) =>
      let atEnd := fun (entries : Entries Value) =>
        match skipBlanks rest with
        | [] => .ok entries
        | left => .error (.malformed (.at left))
      match root with
      | .mapping entries => atEnd entries
      | .null => atEnd []
      | other => .error (.notAMapping other.typeName)

end Phrasebook.Json
