import Phrasebook.Script.Expr
import Phrasebook.Script.TypeExpr

/-!
# Declarations of emitted code

Constants, classes, type aliases, unions, imports and exports, each with its fragments.
-/

namespace Phrasebook.Script

open Code Text

/-- What stands before a declaration when it is exported. -/
def exportWord (exported : Bool) : String :=
  if exported then "export " else ""

/-- What stands before the names of an import or export of types only. -/
def typeWord (typeOnly : Bool) : String :=
  if typeOnly then "type " else ""

/-- A type behind a colon, if there is one. -/
def annotation : Option String → String
  | some type => ": " ++ type
  | none => ""

def braced (names : List String) : String :=
  "\x7b " ++ ", ".intercalate names ++ " \x7d"

/-- A constant, or the mere declaration of one when it has no value. -/
structure Const where
  name : String
  value : Option Expr := none
  type : Option String := none
  exported : Bool := false

def Const.fragment (const : Const) : Fragment :=
  match const.value with
  | some value =>
      (value.fragment.prepend
        (exportWord const.exported ++ "const " ++ const.name ++ annotation const.type ++ " = ")).append ";"
  | none =>
      .line (exportWord const.exported ++ "declare const " ++ const.name ++ annotation const.type ++ ";")

/-- A constructor parameter. A private one is stored as a property of the same name. -/
structure Parameter where
  name : String
  type : String
  isPrivate : Bool := false
deriving DecidableEq, Repr

/-- The parameter in a constructor; declared classes store nothing. -/
def Parameter.code (declared : Bool) (parameter : Parameter) : String :=
  (if parameter.isPrivate && !declared then "private " else "") ++ parameter.name ++ ": " ++ parameter.type

inductive MethodKind where
  | method
  | getter
  | setter
deriving DecidableEq, Repr

structure Method where
  kind : MethodKind := .method
  name : String
  params : String := ""
  returns : Option String := none
  isAsync : Bool := false
  body : List Fragment := []

namespace Method

/-- The word before the name of a method. Accessors cannot be asynchronous, and declared
methods do not say that they are. -/
def word (declared : Bool) (method : Method) : String :=
  match method.kind with
  | .getter => "get "
  | .setter => "set "
  | .method => if method.isAsync && !declared then "async " else ""

def signature (declared : Bool) (method : Method) : String :=
  method.word declared ++ method.name ++ "(" ++ method.params ++ ")" ++ annotation method.returns

def fragment (declared : Bool) (method : Method) : Fragment :=
  if declared then .line (method.signature true ++ ";")
  else .block (method.signature false ++ " \x7b") method.body (some "\x7d")

end Method

/-- A class, or the mere declaration of one. -/
structure Class where
  name : String
  exported : Bool := false
  declared : Bool := false
  params : List Parameter := []
  methods : List Method := []

namespace Class

def constructorFragment (it : Class) : Fragment :=
  let params := it.params.map (Parameter.code it.declared)
  if it.declared then .line ("constructor(" ++ ", ".intercalate params ++ ");")
  else if params.isEmpty then .line "constructor() \x7b\x7d"
  else .block "constructor(" (params.map fun param => .line (param ++ ",")) (some ") \x7b\x7d")

/-- The methods, with an empty line before each one that has a body. -/
def methodFragments (declared : Bool) (methods : List Method) : List Fragment :=
  methods.flatMap fun method =>
    if declared then [method.fragment true] else [.blank, method.fragment false]

def fragment (it : Class) : Fragment :=
  .block
    (exportWord it.exported ++ (if it.declared then "declare " else "") ++ "class " ++ it.name ++ " \x7b")
    (it.constructorFragment :: methodFragments it.declared it.methods) (some "\x7d")

end Class

structure Alias where
  name : String
  type : TypeExpr
  exported : Bool := true

def Alias.fragment (it : Alias) : Fragment :=
  (it.type.fragment.prepend (exportWord it.exported ++ "type " ++ it.name ++ " = ")).append ";"

/-- An exported union of types given as code. -/
structure Union where
  name : String
  variants : List String
deriving DecidableEq, Repr

/-- The declaration of a union. The empty one has no values. -/
def Union.fragment (it : Union) : Fragment :=
  let type := if it.variants.isEmpty then "never" else " | ".intercalate it.variants
  .line ("export type " ++ it.name ++ " = " ++ type ++ ";")

structure Import where
  module : String
  default : Option String := none
  named : List String := []
  typeOnly : Bool := false
deriving DecidableEq, Repr

def Import.fragment (it : Import) : Fragment :=
  let source := Quoted.encode it.module
  .line <| match it.default, it.named with
    | some name, [] => "import " ++ typeWord it.typeOnly ++ name ++ " from " ++ source ++ ";"
    | some name, first :: rest =>
        "import " ++ typeWord it.typeOnly ++ name ++ ", " ++ braced (first :: rest) ++ " from " ++
          source ++ ";"
    | none, first :: rest =>
        "import " ++ typeWord it.typeOnly ++ braced (first :: rest) ++ " from " ++ source ++ ";"
    | none, [] => "import " ++ source ++ ";"

/-- An export of names, of a default value, or of both. -/
structure Export where
  default : Option Expr := none
  named : List String := []
  typeOnly : Bool := false

def Export.fragments (it : Export) : List Fragment :=
  (match it.named with
    | [] => []
    | first :: rest => [.line ("export " ++ typeWord it.typeOnly ++ braced (first :: rest) ++ ";")]) ++
  (match it.default with
    | some value => [(value.fragment.prepend "export default ").append ";"]
    | none => [])

end Phrasebook.Script
