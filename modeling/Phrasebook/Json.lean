import Phrasebook.Entries
import Phrasebook.Text.Quoted

/-!
# JSON values and their text

Values as the program writes them: members stand in order, and a text escapes quotes,
backslashes and control characters and nothing else.
-/

namespace Phrasebook

/-- A JSON value of the kinds that are written. -/
inductive Json where
  | text (value : String)
  | array (items : List Json)
  | object (members : List (String × Json))

namespace Json

/-- What stands for one character between the quotes of a JSON text. -/
def escape (c : Char) : List Char :=
  if c = '"' then ['\\', '"']
  else if c = '\\' then ['\\', '\\']
  else if c = '\n' then ['\\', 'n']
  else if c = '\r' then ['\\', 'r']
  else if c = '\t' then ['\\', 't']
  else if c.toNat = 8 then ['\\', 'b']
  else if c.toNat = 12 then ['\\', 'f']
  else if c.toNat < 0x20 then '\\' :: 'u' :: Text.hexFour c.toNat
  else [c]

def quote (text : String) : String :=
  String.ofList ('"' :: (text.toList.flatMap escape ++ ['"']))

mutual

/-- The text without any blanks. -/
def compact : Json → String
  | .text value => quote value
  | .array items => "[" ++ ",".intercalate (compactItems items) ++ "]"
  | .object members => "\x7b" ++ ",".intercalate (compactMembers members) ++ "\x7d"

def compactItems : List Json → List String
  | [] => []
  | item :: rest => item.compact :: compactItems rest

def compactMembers : List (String × Json) → List String
  | [] => []
  | (key, value) :: rest => (quote key ++ ":" ++ value.compact) :: compactMembers rest

end

/-- Encloses the lines of a value's parts, one to a line and two columns in. -/
def enclose (opening closing : String) (depth : Nat) (parts : List String) : String :=
  if parts.isEmpty then opening ++ closing
  else
    let margin := fun columns => String.ofList ('\n' :: List.replicate (2 * columns) ' ')
    opening ++ margin (depth + 1) ++ ("," ++ margin (depth + 1)).intercalate parts ++
      margin depth ++ closing

mutual

/-- The text with every part on a line of its own, at a given depth of nesting. -/
def pretty (depth : Nat) : Json → String
  | .text value => quote value
  | .array items => enclose "[" "]" depth (prettyItems (depth + 1) items)
  | .object members => enclose "\x7b" "\x7d" depth (prettyMembers (depth + 1) members)

def prettyItems (depth : Nat) : List Json → List String
  | [] => []
  | item :: rest => item.pretty depth :: prettyItems depth rest

def prettyMembers (depth : Nat) : List (String × Json) → List String
  | [] => []
  | (key, value) :: rest => (quote key ++ ": " ++ value.pretty depth) :: prettyMembers depth rest

end

end Json

end Phrasebook
