import Phrasebook.Locale.Discovery
import Phrasebook.Manifest.Reading

/-!
# Projects

A project is its settings together with the paths that they mean. Paths in a manifest start
from the directory of the manifest.
-/

namespace Phrasebook

structure Project where
  manifest : Manifest
  /-- The directory of the locale files. -/
  locales : Path
  /-- The path of the main unit. -/
  output : Path
deriving DecidableEq, Repr

namespace Project

def ofManifest (config : Path) (manifest : Manifest) : Project :=
  let directory := config.parent?.getD ⟨""⟩
  { manifest := manifest
    locales := directory.join manifest.locales.text
    output := directory.join manifest.output.text }

def indent (project : Project) : Code.Indent :=
  if project.manifest.usesTabs then .tab else .spaces project.manifest.indent

/-- The options for generating the code of a project. Other units refer to the main one by
the name of its file. -/
def options (project : Project) : EmissionOptions :=
  let base : EmissionOptions := {}
  { target := project.manifest.target
    isLazy := project.manifest.isLazy
    defaultLanguage := project.manifest.defaultLanguage
    naming := project.manifest.naming
    importPrefix := project.manifest.importPrefix
    mainModule := project.output.stem?.getD base.mainModule
    indent := project.indent }

section

variable {m : Type → Type} [Monad m] [FileSystem m]

/-- The project whose manifest is at a path, or would be. -/
def ofConfig (config : Path) : m (Except SourceError Project) := do
  return (← Manifest.ofFile config).map (ofManifest config)

def documents (project : Project) : m (Except SourceError (List (Named Document))) :=
  loadLocales project.locales project.manifest.languages

end

end Project

end Phrasebook
