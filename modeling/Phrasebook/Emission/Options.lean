import Phrasebook.Code.Fragment
import Phrasebook.Failure
import Phrasebook.Script.Name

/-!
# Options of code generation

What is generated, under which names, and how modules refer to each other.
-/

namespace Phrasebook

/-- What the main unit offers: the messages themselves, a provider that switches languages,
or the declaration of one. -/
inductive Target where
  | resource
  | provider
  | type
deriving DecidableEq, Repr

namespace Target

def name : Target → String
  | .resource => "resource"
  | .provider => "provider"
  | .type => "type"

def all : List Target := [.resource, .provider, .type]

/-- A letter in lower case, if it is an ASCII one. -/
def foldCase (text : String) : List Char :=
  text.toList.map Char.toLower

/-- The target of a name in any case. -/
def ofName? (text : String) : Option Target :=
  all.find? fun target => foldCase target.name = foldCase text

def unknownMessage (text : String) : String :=
  "unknown target '" ++ text ++ "', expected one of: resource, provider, type"

end Target

/-- The names of the declarations in generated code. -/
structure Naming where
  rootType : String := "RootType"
  languageType : String := "Language"
  providerClass : String := "I18nProvider"
  providerName : String := "provider"
deriving DecidableEq, Repr

namespace Naming

def roles (naming : Naming) : List (String × String) :=
  [("root type", naming.rootType), ("language type", naming.languageType),
   ("provider class", naming.providerClass), ("provider name", naming.providerName)]

/-- Why a name cannot be declared, if it cannot. -/
def objection? (role name : String) : Option Failure :=
  if !Script.isIdentifier name then some (.invalidName role name)
  else if Script.isReserved name then some (.reservedName role name)
  else none

/-- Whether all names can be declared; the first one that cannot is reported. -/
def validate (naming : Naming) : Except Failure Unit :=
  match naming.roles.findSome? fun (role, name) => objection? role name with
  | some failure => .error failure
  | none => .ok ()

end Naming

structure EmissionOptions where
  target : Target := .provider
  /-- Whether languages other than the default one are loaded on demand. -/
  isLazy : Bool := false
  defaultLanguage : Option String := none
  naming : Naming := {}
  /-- What stands before the name of a module in imports. -/
  importPrefix : String := "./"
  /-- The module of the main unit, for the imports of other units. -/
  mainModule : String := "index"
  indent : Code.Indent := .spaces 2
deriving DecidableEq, Repr

/-- Whether languages have units of their own. -/
def EmissionOptions.splitsUnits (options : EmissionOptions) : Bool :=
  options.isLazy && options.target != .type

end Phrasebook
