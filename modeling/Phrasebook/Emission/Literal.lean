import Phrasebook.Emission.Shape
import Phrasebook.Failure
import Phrasebook.Script.Expr

/-!
# Literals of message trees

The object that holds the messages of one language. Its keys and their order come from the
canonical tree, its texts and calls from the language. A call becomes a function that joins
its segments.
-/

namespace Phrasebook.Emission

open Script Text

/-- The name under which a function gets its parameters. -/
def optionsName : String := "options"

def segmentCode : Segment → String
  | .literal text => Quoted.encode text
  | .param name => memberAccess optionsName name

/-- The function for a message with parameters. -/
def callArrow (body : Body) : Arrow where
  params := optionsName ++ ": " ++ (optionsType body).inline
  body := "[" ++ ", ".intercalate (body.map segmentCode) ++ "].join(\"\")"

mutual

/-- The expression for what a language has where the canonical tree has `expected`. -/
def literalAt (path : KeyPath) : Node → Node → Except Failure Expr
  | .text _, found =>
      match found with
      | .text value => .ok (.text value)
      | other => .error (.messageKind path other.kind .text)
  | .call _, found =>
      match found with
      | .call body => .ok (.arrow (callArrow body))
      | other => .error (.messageKind path other.kind .call)
  | .record _ entries, found =>
      match found with
      | .record _ language => (propertiesAt path language entries).map .object
      | other => .error (.messageKind path other.kind .record)

/-- The properties for the canonical entries, from the entries of a language. -/
def propertiesAt (path : KeyPath) (language : Entries Node) :
    List (String × Node) → Except Failure (List (String × Expr))
  | [] => .ok []
  | (key, expected) :: rest =>
      match language.lookup key with
      | none => .error (.messageAbsent (path ++ [key]))
      | some found =>
          match literalAt (path ++ [key]) expected found with
          | .error failure => .error failure
          | .ok value => (propertiesAt path language rest).map fun others => (key, value) :: others

end

/-- The object with the messages of a language, shaped by the canonical tree. -/
def treeLiteral (canonical language : Tree) : Except Failure Expr :=
  (propertiesAt [] language.entries canonical.entries).map .object

end Phrasebook.Emission
