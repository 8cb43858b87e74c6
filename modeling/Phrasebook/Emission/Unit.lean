import Phrasebook.Emission.Artifact
import Phrasebook.Emission.Literal
import Phrasebook.Emission.ProviderClass
import Phrasebook.Schema
import Phrasebook.Script.SourceFile

/-!
# Generated units

The main unit declares the languages and the type of the messages, and exports the
messages or a provider of them. When languages are loaded on demand, every language but
the default one has a unit of its own, which the main unit imports when it is asked for.
-/

namespace Phrasebook.Emission

open Code Script Text

def languageUnion (schema : Schema) (naming : Naming) : Union where
  name := naming.languageType
  variants := schema.languageNames.map Quoted.encode

def rootAlias (schema : Schema) (naming : Naming) : Alias where
  name := naming.rootType
  type := treeType schema.canonical

/-- The function that imports the unit of a language. -/
def loader (options : EmissionOptions) (language : String) : Arrow where
  params := ""
  body := "import(" ++ Quoted.encode (options.importPrefix ++ language) ++ ").then((m) => m.default)"

/-- What the map of languages holds for one of them: its messages, or the import of its
unit. -/
def languageExpr (schema : Schema) (options : EmissionOptions) (default : String)
    (language : Named Tree) : Except Failure Expr :=
  if options.splitsUnits && language.name != default then
    .ok (.arrow (loader options language.name))
  else treeLiteral schema.canonical language.value

def languageProperties (schema : Schema) (options : EmissionOptions) (default : String) :
    List (Named Tree) → Except Failure (List (String × Expr))
  | [] => .ok []
  | first :: rest =>
      match languageExpr schema options default first with
      | .error failure => .error failure
      | .ok value =>
          (languageProperties schema options default rest).map fun others =>
            (first.name, value) :: others

def languageMap (schema : Schema) (options : EmissionOptions) (default : String) :
    Except Failure Expr :=
  (languageProperties schema options default schema.languages).map .object

/-- The map of languages under the type that a provider expects. -/
def ascribedMap (options : EmissionOptions) (map : Expr) : Expr :=
  .ascribed map (mapsType options.naming options.splitsUnits)

/-- The main unit before it is laid out. -/
def mainFile (schema : Schema) (options : EmissionOptions) (default : String) :
    Except Failure SourceFile :=
  let naming := options.naming
  let types := [[(languageUnion schema naming).fragment], [(rootAlias schema naming).fragment]]
  let exportProvider : Export := { default := some (.raw naming.providerName) }
  match options.target with
  | .resource =>
      (languageMap schema options default).map fun map =>
        { body := types, exports := [{ default := some (ascribedMap options map) }] }
  | .provider =>
      (languageMap schema options default).map fun map =>
        -- a lazy map matches the constructor's parameter as it is
        let argument := if options.splitsUnits then map else ascribedMap options map
        let instance_ : Const :=
          { name := naming.providerName
            value := some (.construct naming.providerClass [argument, .text default]) }
        { body := types ++
            [[(providerClass naming options.splitsUnits false).fragment], [instance_.fragment]]
          exports := [exportProvider] }
  | .type =>
      let declaration : Const :=
        { name := naming.providerName, type := some naming.providerClass }
      .ok
        { body := types ++
            [[(providerClass naming options.isLazy true).fragment], [declaration.fragment]]
          exports := [exportProvider] }

/-- The unit of a language before it is laid out. -/
def languageFile (schema : Schema) (options : EmissionOptions) (language : Named Tree) :
    Except Failure SourceFile :=
  let root := options.naming.rootType
  (treeLiteral schema.canonical language.value).map fun literal =>
    { imports :=
        [{ module := options.importPrefix ++ options.mainModule, named := [root], typeOnly := true }]
      exports := [{ default := some (.ascribed literal root) }] }

def languageUnits (schema : Schema) (options : EmissionOptions) :
    List (Named Tree) → Except Failure (List (Named String))
  | [] => .ok []
  | first :: rest =>
      match languageFile schema options first with
      | .error failure => .error failure
      | .ok file =>
          (languageUnits schema options rest).map fun others =>
            ⟨first.name, file.render options.indent⟩ :: others

/-- The languages that get a unit of their own. -/
def separateLanguages (schema : Schema) (default : String) : List (Named Tree) :=
  schema.languages.filter fun language => language.name != default

def generate (schema : Schema) (options : EmissionOptions) : Except Failure Artifact :=
  match options.naming.validate with
  | .error failure => .error failure
  | .ok () =>
      match schema.defaultLanguage options.defaultLanguage with
      | .error failure => .error failure
      | .ok default =>
          match mainFile schema options default with
          | .error failure => .error failure
          | .ok file =>
              let main := file.render options.indent
              if options.splitsUnits then
                (languageUnits schema options (separateLanguages schema default)).map (.split main)
              else .ok (.single main)

/-- The name of the language in which code is generated. -/
def languageName : String := "typescript"

def fileExtension : String := "ts"

/-- Generates the code for a schema and lays it out in files. -/
def preview (schema : Schema) (options : EmissionOptions) (mainPath : Path) :
    Except Failure (List OutputFile) :=
  match generate schema options with
  | .error failure => .error failure
  | .ok artifact => artifact.files mainPath fileExtension

end Phrasebook.Emission
