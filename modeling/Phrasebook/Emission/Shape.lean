import Phrasebook.Script.TypeExpr
import Phrasebook.Tree

/-!
# Types of message trees

The type of a tree in emitted code: texts are strings, calls are functions from their
parameters to a string, and records are literals with the same keys.
-/

namespace Phrasebook.Emission

open Script

def messageType : String := "string"

def paramType : String := "string | number"

/-- The type of the options that a call takes: its parameters, each once and sorted. -/
def optionsType (body : Body) : TypeExpr :=
  .literal (body.params.map fun name => (name, .raw paramType))

def callType (body : Body) : String :=
  "(options: " ++ (optionsType body).inline ++ ") => " ++ messageType

mutual

def nodeType : Node → TypeExpr
  | .text _ => .raw messageType
  | .call body => .raw (callType body)
  | .record _ entries => .literal (memberTypes entries)

def memberTypes : List (String × Node) → List (String × TypeExpr)
  | [] => []
  | (key, node) :: rest => (key, nodeType node) :: memberTypes rest

end

def treeType (tree : Tree) : TypeExpr :=
  .literal (memberTypes tree.entries)

end Phrasebook.Emission
