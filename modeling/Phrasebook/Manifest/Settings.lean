import Phrasebook.Emission.Options
import Phrasebook.Path
import Phrasebook.Value

/-!
# Settings of a project

What a manifest says: where the locale files are, what to generate from them, and how.
Every setting has a default, and a manifest may be missing altogether.
-/

namespace Phrasebook

structure Manifest where
  /-- The directory of the locale files. -/
  locales : Path := ⟨"locales"⟩
  /-- The path of the main unit. -/
  output : Path := ⟨"src/i18n.ts"⟩
  target : Target := .provider
  isLazy : Bool := false
  defaultLanguage : Option String := none
  /-- The languages in their order, when not all locale files count. -/
  languages : Option (List String) := none
  naming : Naming := {}
  importPrefix : String := "./"
  /-- The number of spaces for a level of indentation. -/
  indent : Nat := 2
  usesTabs : Bool := false
deriving DecidableEq, Repr

namespace Manifest

def roles (manifest : Manifest) : List (String × String) :=
  [("root type", manifest.naming.rootType), ("language type", manifest.naming.languageType),
   ("provider class", manifest.naming.providerClass), ("provider", manifest.naming.providerName)]

/-- Whether all settings have their defaults. Paths count by their components. -/
def isDefault (manifest : Manifest) : Bool :=
  let default : Manifest := {}
  manifest.locales.same default.locales && manifest.output.same default.output &&
    { manifest with locales := default.locales, output := default.output } = default

/-! ### Settings from a document -/

def text? : Value → Option String
  | .string text => some text
  | _ => none

def truth? : Value → Option Bool
  | .boolean truth => some truth
  | _ => none

def texts? : List Value → Option (List String)
  | [] => some []
  | first :: rest =>
      match text? first, texts? rest with
      | some text, some others => some (text :: others)
      | _, _ => none

def textList? : Value → Option (List String)
  | .sequence items => texts? items
  | _ => none

/-- A number from 0 to 255. -/
def byte? : Value → Option Nat
  | .number (.signed value) =>
      if 0 ≤ value.toInt ∧ value.toInt < 256 then some value.toInt.toNat else none
  | _ => none

def targetOfName? (name : String) : Option Target :=
  Target.all.find? fun target => target.name = name

/-- A target: its name, or a mapping from its name to an empty collection. -/
def target? : Value → Option Target
  | .string name => targetOfName? name
  | .mapping [(name, .mapping [])] => targetOfName? name
  | .mapping [(name, .sequence [])] => targetOfName? name
  | _ => none

/-- The settings of the section about messages, in order. -/
def messageKeys : List String :=
  ["locales", "output", "target", "lazy", "default_language", "languages"]

def setMessageKey (manifest : Manifest) (key : String) (value : Value) : Option Manifest :=
  match key with
  | "locales" => (text? value).map fun text => { manifest with locales := ⟨text⟩ }
  | "output" => (text? value).map fun text => { manifest with output := ⟨text⟩ }
  | "target" => (target? value).map fun target => { manifest with target := target }
  | "lazy" => (truth? value).map fun truth => { manifest with isLazy := truth }
  | "default_language" => (text? value).map fun text => { manifest with defaultLanguage := some text }
  | "languages" => (textList? value).map fun texts => { manifest with languages := some texts }
  | _ => none

/-- The settings of the section about code, in order. -/
def codeKeys : List String :=
  ["root_type", "language_type", "provider_class", "provider_name", "import_prefix", "indent",
   "use_tabs"]

def setCodeKey (manifest : Manifest) (key : String) (value : Value) : Option Manifest :=
  let name := fun (change : String → Naming) =>
    (text? value).map fun text => { manifest with naming := change text }
  match key with
  | "root_type" => name fun text => { manifest.naming with rootType := text }
  | "language_type" => name fun text => { manifest.naming with languageType := text }
  | "provider_class" => name fun text => { manifest.naming with providerClass := text }
  | "provider_name" => name fun text => { manifest.naming with providerName := text }
  | "import_prefix" => (text? value).map fun text => { manifest with importPrefix := text }
  | "indent" => (byte? value).map fun width => { manifest with indent := width }
  | "use_tabs" => (truth? value).map fun truth => { manifest with usesTabs := truth }
  | _ => none

def setAll (set : Manifest → String → Value → Option Manifest) (manifest : Manifest) :
    List (String × Value) → Option Manifest
  | [] => some manifest
  | (key, value) :: rest => (set manifest key value).bind fun changed => setAll set changed rest

/-- Takes over a section: a mapping by its keys, or a list with the settings in order. -/
def setSection (set : Manifest → String → Value → Option Manifest) (keys : List String)
    (manifest : Manifest) : Value → Option Manifest
  | .mapping entries => setAll set manifest entries
  | .sequence items => setAll set manifest (keys.zip items)
  | _ => none

def setSectionOf (manifest : Manifest) (name : String) (value : Value) : Option Manifest :=
  match name with
  | "i18n" => setSection setMessageKey messageKeys manifest value
  | "codegen" => setSection setCodeKey codeKeys manifest value
  | _ => none

/-- The settings that a document gives, the defaults for the others. Unknown settings are
refused, and so are values of the wrong type. -/
def ofDocument? (document : Entries Value) : Option Manifest :=
  setAll setSectionOf {} document

end Manifest

end Phrasebook
