import Phrasebook.Code.Fragment
import Phrasebook.Script.Name

/-!
# Expressions of emitted code

Object literals with one property to a line, arrow functions on one line, constructor
calls with one argument to a line, and type assertions behind an expression.
-/

namespace Phrasebook.Script

open Code Text

/-- An arrow function. Parameters and body are given as code. -/
structure Arrow where
  params : String
  body : String
  isAsync : Bool := false
deriving DecidableEq, Repr

def Arrow.code (arrow : Arrow) : String :=
  (if arrow.isAsync then "async " else "") ++ "(" ++ arrow.params ++ ") => " ++ arrow.body

inductive Expr where
  | raw (code : String)
  | text (value : String)
  | object (properties : List (String × Expr))
  | arrow (function : Arrow)
  | construct (className : String) (arguments : List Expr)
  | ascribed (expr : Expr) (type : String)
deriving Inhabited

namespace Expr

mutual

def fragment : Expr → Fragment
  | .raw code => .line code
  | .text value => .line (Quoted.encode value)
  | .object [] => .line "\x7b\x7d"
  | .object (first :: rest) => .block "\x7b" (propertyFragments (first :: rest)) (some "\x7d")
  | .arrow function => .line function.code
  | .construct className [] => .line ("new " ++ className ++ "()")
  | .construct className (first :: rest) =>
      .block ("new " ++ className ++ "(") (argumentFragments (first :: rest)) (some ")")
  | .ascribed expr type => expr.fragment.append (" as " ++ type)

def propertyFragments : List (String × Expr) → List Fragment
  | [] => []
  | (key, value) :: rest =>
      ((value.fragment.prepend (propertyKey key ++ ": ")).append ",") :: propertyFragments rest

def argumentFragments : List Expr → List Fragment
  | [] => []
  | first :: rest => first.fragment.append "," :: argumentFragments rest

end

end Expr

end Phrasebook.Script
