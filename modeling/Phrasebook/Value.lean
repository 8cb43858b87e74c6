import Phrasebook.Entries
import Phrasebook.Decimal.Text
import Phrasebook.Text.Displayed

/-!
# Raw values

What a locale document holds, as its file gives it, before anything is known about messages.
Strings, numbers and mappings can become messages; the other kinds are kept, so that a report can
name them.
-/

namespace Phrasebook

/-- A number of a document. Formats differ in which of the two integer kinds they give. -/
inductive Number where
  | signed (value : Int64)
  | unsigned (value : UInt64)
  | real (value : Float)

def Number.text : Number → String
  | .signed value => toString value.toInt
  | .unsigned value => toString value.toNat
  | .real value => Decimal.text value

/-- A value of a document. The entries of a mapping keep their order. -/
inductive Value where
  | string (text : String)
  | number (number : Number)
  | mapping (entries : List (String × Value))
  | boolean (value : Bool)
  | sequence (items : List Value)
  | null
deriving Inhabited

/-- The name of the kind of a value, as reports give it. -/
def Value.typeName : Value → String
  | .string _ => "string"
  | .number _ => "number"
  | .mapping _ => "mapping"
  | .boolean _ => "boolean"
  | .sequence _ => "sequence"
  | .null => "null"

/-- A short text for a value: strings and simple values in full, the others by their size. -/
def Value.summary : Value → String
  | .string text => Text.Displayed.encode text
  | .number it => it.text
  | .mapping entries => "\x7b.." ++ toString entries.length ++ " keys\x7d"
  | .boolean value => if value then "true" else "false"
  | .sequence items => "[.." ++ toString items.length ++ " items]"
  | .null => "null"

/-- Something that belongs to a language. -/
structure Named (α : Type) where
  name : String
  value : α
deriving DecidableEq, Repr

def Named.map {α β : Type} (change : α → β) (named : Named α) : Named β :=
  ⟨named.name, change named.value⟩

/-- The first name of a list that was seen before, or that an earlier one equals. -/
def repeated? (seen : List String) : List String → Option String
  | [] => none
  | name :: rest => if seen.contains name then some name else repeated? (name :: seen) rest

end Phrasebook
