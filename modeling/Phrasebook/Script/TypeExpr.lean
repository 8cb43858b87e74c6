import Phrasebook.Code.Fragment
import Phrasebook.Script.Name

/-!
# Types of emitted code

A type is given as code or as a literal that lists its members. A literal is written on
one line or with one member to a line.
-/

namespace Phrasebook.Script

open Code

inductive TypeExpr where
  | raw (code : String)
  | literal (members : List (String × TypeExpr))
deriving Inhabited

namespace TypeExpr

mutual

def inline : TypeExpr → String
  | .raw code => code
  | .literal [] => "\x7b\x7d"
  | .literal (first :: rest) => "\x7b " ++ "; ".intercalate (inlineMembers (first :: rest)) ++ " \x7d"

def inlineMembers : List (String × TypeExpr) → List String
  | [] => []
  | (key, type) :: rest => (propertyKey key ++ ": " ++ type.inline) :: inlineMembers rest

end

mutual

/-- The type with one member to a line. -/
def fragment : TypeExpr → Fragment
  | .raw code => .line code
  | .literal [] => .line "\x7b\x7d"
  | .literal (first :: rest) => .block "\x7b" (memberFragments (first :: rest)) (some "\x7d")

def memberFragments : List (String × TypeExpr) → List Fragment
  | [] => []
  | (key, type) :: rest =>
      ((type.fragment.prepend (propertyKey key ++ ": ")).append ";") :: memberFragments rest

end

def isEmptyLiteral : TypeExpr → Bool
  | .literal [] => true
  | _ => false

end TypeExpr

end Phrasebook.Script
