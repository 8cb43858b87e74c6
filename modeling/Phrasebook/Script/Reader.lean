import Phrasebook.Entries
import Phrasebook.Message.Segment
import Phrasebook.Script.Token

/-!
# Reading emitted objects

What the text of an object literal denotes, in the part of the language that literals of
messages use: objects with bare, quoted and computed keys, string literals, and functions
of one parameter `options` that join an array of string literals and options.
-/

namespace Phrasebook.Script

/-- What an expression denotes. An object has its own properties in the order in which their
keys were first given, and a prototype if one was set. -/
inductive Reading where
  | text (value : String)
  | function (params : List String) (body : List Segment)
  | object (prototype : Option Reading) (own : List (String × Reading))
deriving Inhabited

structure Key where
  name : String
  isComputed : Bool
deriving DecidableEq, Repr

/-- Whether a property with this key sets the prototype, and defines nothing. -/
def Key.setsPrototype (key : Key) : Bool :=
  key.name = "__proto__" && !key.isComputed

/-- The object that a list of properties makes. A prototype is set at most once, and a text
is none. -/
def object? (properties : List (Key × Reading)) : Option Reading :=
  let own := Entries.ofPairs
    ((properties.filter fun property => !property.1.setsPrototype).map fun property =>
      (property.1.name, property.2))
  match properties.filter fun property => property.1.setsPrototype with
  | [] => some (.object none own)
  | [(_, .text _)] => some (.object none own)
  | [(_, prototype)] => some (.object (some prototype) own)
  | _ => none

/-- Takes something from the front of a list of tokens. -/
abbrev Reader (α : Type) := List Token → Option (α × List Token)

namespace Reader

variable {α : Type}

/-- A list of items up to a closing mark, with a separator behind each but maybe the last. -/
def listUpTo (item : Reader α) (separator close : Char) : Nat → Reader (List α)
  | 0, _ => none
  | fuel + 1, tokens =>
      if tokens.head? = some (.mark close) then some ([], tokens.tail)
      else match item tokens with
        | none => none
        | some (first, after) =>
            if after.head? = some (.mark close) then some ([first], after.tail)
            else if after.head? = some (.mark separator) then
              (listUpTo item separator close fuel after.tail).map fun (rest, behind) =>
                (first :: rest, behind)
            else none

/-- A list of items up to a closing mark. There are no more items than tokens. -/
def list (item : Reader α) (separator close : Char) : Reader (List α) := fun tokens =>
  listUpTo item separator close (tokens.length + 1) tokens

def key : Reader Key
  | .word name :: rest => some (⟨name, false⟩, rest)
  | .text name :: rest => some (⟨name, false⟩, rest)
  | .mark '[' :: .text name :: .mark ']' :: rest => some (⟨name, true⟩, rest)
  | _ => none

/-- A key, a colon, and what is read behind it. -/
def keyed (behind : Reader α) : Reader (Key × α) := fun tokens =>
  match key tokens with
  | some (name, .mark ':' :: rest) =>
      (behind rest).map fun (value, after) => ((name, value), after)
  | _ => none

def paramType : Reader Unit
  | .word "string" :: .mark '|' :: .word "number" :: rest => some ((), rest)
  | _ => none

def segment : Reader Segment
  | .text value :: rest => some (.literal value, rest)
  | .word "options" :: .mark '.' :: .word name :: rest => some (.param name, rest)
  | .word "options" :: .mark '[' :: .text name :: .mark ']' :: rest => some (.param name, rest)
  | _ => none

/-- The parameters of a function, from behind its opening bracket to its arrow. -/
def params : Reader (List String)
  | .word "options" :: .mark ':' :: .mark '\x7b' :: rest =>
      match list (keyed paramType) ';' '\x7d' rest with
      | some (members, .mark ')' :: .arrow :: after) =>
          some (members.map fun member => member.1.name, after)
      | _ => none
  | _ => none

/-- An array of segments, joined without anything between them. -/
def joined : Reader (List Segment)
  | .mark '[' :: rest =>
      match list segment ',' ']' rest with
      | some (body, .mark '.' :: .word "join" :: .mark '(' :: .text "" :: .mark ')' :: after) =>
          some (body, after)
      | _ => none
  | _ => none

/-- A function, from behind the opening bracket of its parameters. -/
def function : Reader Reading := fun tokens =>
  match params tokens with
  | some (names, after) => (joined after).map fun (body, behind) => (.function names body, behind)
  | none => none

/-- An expression whose objects are nested at most as deep as told. -/
def expression : (depth : Nat) → Reader Reading
  | _, .text value :: rest => some (.text value, rest)
  | _, .mark '(' :: rest => function rest
  | depth + 1, .mark '\x7b' :: rest =>
      match list (keyed (expression depth)) ',' '\x7d' rest with
      | some (properties, after) => (object? properties).map fun object => (object, after)
      | none => none
  | _, _ => none

end Reader

/-- What a text denotes that consists of one expression. -/
def Reading.ofCode? (code : String) : Option Reading :=
  match tokens? code.toList with
  | some tokens =>
      match Reader.expression tokens.length tokens with
      | some (reading, []) => some reading
      | _ => none
  | none => none

end Phrasebook.Script
