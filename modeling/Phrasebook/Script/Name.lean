import Phrasebook.Text.Quoted

/-!
# Names in emitted code

Which texts may name a declaration, and how a text is written as a property key or read
as a member. Property keys need not be names: a key that is not an identifier is quoted.
The key `__proto__` is written as a computed key, since its bare and quoted forms would
set the prototype of the object instead of defining a property.
-/

namespace Phrasebook.Script

open Text

/-- Words that no declaration may bear: the reserved words of the language and the names
of its built-in types. -/
def reservedWords : List String :=
  ["break", "case", "catch", "class", "const", "continue", "debugger", "default", "delete",
   "do", "else", "enum", "export", "extends", "false", "finally", "for", "function", "if",
   "import", "in", "instanceof", "let", "new", "null", "return", "super", "switch", "this",
   "throw", "true", "try", "typeof", "var", "void", "while", "with", "yield",
   "any", "boolean", "never", "number", "object", "string", "symbol", "undefined", "unknown"]

def isReserved (name : String) : Bool :=
  reservedWords.contains name

/-- The characters that may open an identifier. Letters beyond ASCII are legal in the
language and are left out here, so that such names are always quoted. -/
def isNameStart (c : Char) : Bool :=
  c.isAlpha || c = '_' || c = '$'

def isNameRest (c : Char) : Bool :=
  c.isAlphanum || c = '_' || c = '$'

/-- Whether a text is a plain identifier. -/
def isIdentifier (name : String) : Bool :=
  match name.toList with
  | [] => false
  | first :: rest => isNameStart first && rest.all isNameRest

/-- The key of an object or type member. -/
def propertyKey (key : String) : String :=
  if key = "__proto__" then "[" ++ Quoted.encode key ++ "]"
  else if isIdentifier key then key
  else Quoted.encode key

/-- The expression that reads a member of an object. -/
def memberAccess (object member : String) : String :=
  if isIdentifier member then object ++ "." ++ member
  else object ++ "[" ++ Quoted.encode member ++ "]"

end Phrasebook.Script
