import Phrasebook.Decimal.Reading
import Phrasebook.Text.Hex
import Phrasebook.Value

/-!
# Values of scalars

What a scalar denotes. A plain one may be null, a truth value or a number; a tag asks for
a kind, whatever the style. A digit sequence that starts with an idle zero is a text.
-/

namespace Phrasebook.Yaml

open Text (hexValue?)

def isNullWord (text : String) : Bool :=
  text = "null" || text = "Null" || text = "NULL" || text = "~"

def truth? (text : String) : Option Bool :=
  if text = "true" ∨ text = "True" ∨ text = "TRUE" then some true
  else if text = "false" ∨ text = "False" ∨ text = "FALSE" then some false
  else none

/-! ### Integers -/

/-- The number of a list of digits in a base. -/
def natOfBase? (base : Nat) (digits : List Char) : Option Nat :=
  if !digits.isEmpty && digits.all fun c => (hexValue? c).any (· < base) then
    some (digits.foldl (fun value c => base * value + (hexValue? c).getD 0) 0)
  else none

/-- Whether a text consists of digits and starts with an idle zero, a sign apart. -/
def hasIdleZero (text : List Char) : Bool :=
  let digits := match text with
    | '+' :: rest => rest
    | '-' :: rest => rest
    | rest => rest
  match digits with
  | '0' :: c :: rest => (c :: rest).all Char.isDigit
  | _ => false

/-- The number of digits behind the mark of their base, decimal ones without a mark. -/
def magnitude? : List Char → Option Nat
  | '0' :: 'x' :: digits => natOfBase? 16 digits
  | '0' :: 'o' :: digits => natOfBase? 8 digits
  | '0' :: 'b' :: digits => natOfBase? 2 digits
  | digits => natOfBase? 10 digits

/-- An integer; inside, there is nothing when it needs more than 64 bits. What needs more
than 128 bits is no integer. Negative integers are signed, the others unsigned. -/
def integer? (text : List Char) : Option (Option Number) :=
  if hasIdleZero text then none
  else match text with
    | '-' :: digits =>
        (magnitude? digits).bind fun size =>
          if size ≤ Nat.pow 2 63 then some (some (.signed (Int64.ofInt (-(size : Int)))))
          else if size ≤ Nat.pow 2 127 then some none
          else none
    | _ =>
        let digits := match text with
          | '+' :: rest => rest
          | rest => rest
        (magnitude? digits).bind fun size =>
          if size < Nat.pow 2 64 then some (some (.unsigned (UInt64.ofNat size)))
          else if size < Nat.pow 2 128 then some none
          else none

/-! ### Fractions -/

/-- A fraction: a finite decimal number, or one of the words for the exceptions. -/
def fraction? (text : String) : Option Float :=
  if [".inf", ".Inf", ".INF", "+.inf", "+.Inf", "+.INF"].contains text then some (1 / 0)
  else if ["-.inf", "-.Inf", "-.INF"].contains text then some (-(1 / 0))
  else if [".nan", ".NaN", ".NAN"].contains text then some (0 / 0)
  else (Decimal.readFloat? text.toList).filter Float.isFinite

/-! ### Scalars -/

/-- The value of a plain scalar without a tag. Integers of more than 64 bits have none. -/
def plainValue? (text : String) : Option Value :=
  if text.isEmpty || isNullWord text then some .null
  else match truth? text with
    | some truth => some (.boolean truth)
    | none =>
        match integer? text.toList with
        | some number => number.map .number
        | none =>
            if hasIdleZero text.toList then some (.string text)
            else match fraction? text with
              | some value => some (.number (.real value))
              | none => some (.string text)

/-- What the tags of the standard kinds start with. -/
def standardTag (kind : String) : String :=
  "tag:yaml.org,2002:" ++ kind

/-- The value of a scalar. A standard tag asks for its kind, other global tags for a text;
local tags have no meaning. -/
def scalarValue? (tag : Option String) (isPlain : Bool) (text : String) : Option Value :=
  match tag with
  | none => if isPlain then plainValue? text else some (.string text)
  | some tag =>
      if tag = standardTag "bool" then (truth? text).map .boolean
      else if tag = standardTag "int" then
        (integer? text.toList).bind fun number => number.map .number
      else if tag = standardTag "float" then (fraction? text).map fun value => .number (.real value)
      else if tag = standardTag "null" then (if isNullWord text then some .null else none)
      else if tag.toList.head? = some '!' then none
      else some (.string text)

end Phrasebook.Yaml
