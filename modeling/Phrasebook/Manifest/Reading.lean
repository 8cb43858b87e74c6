import Phrasebook.FileSystem
import Phrasebook.Manifest.Settings
import Phrasebook.Manifest.Span
import Phrasebook.SourceError
import Phrasebook.Toml.Reader

/-!
# Reading a manifest

A manifest is read in two steps: its text gives settings of the right types, and the
settings are judged. The first setting that cannot be is reported with its place in the
text: names first, then the indentation, then the languages.
-/

namespace Phrasebook.Manifest

def nameFault? (name : String) : Option NameFault :=
  if name.isEmpty then some .empty
  else if Script.isReserved name then some .reserved
  else if !Script.isIdentifier name then some .notAnIdentifier
  else none

/-- The objection to the first name that cannot be declared. -/
def nameError? (text : String) (manifest : Manifest) : Option SourceError :=
  manifest.roles.findSome? fun (role, name) =>
    (nameFault? name).map fun fault => .invalidName role name fault (valueSpan? text name)

def indentError? (text : String) (manifest : Manifest) : Option SourceError :=
  if [2, 4, 8].contains manifest.indent then none
  else some (.refusedSetting (.indent manifest.indent) (keySpan? text "indent"))

def languagesError? (text : String) (manifest : Manifest) : Option SourceError :=
  match manifest.languages with
  | none => none
  | some [] => some (.refusedSetting .noLanguages (keySpan? text "languages"))
  | some languages =>
      match repeated? [] languages, manifest.defaultLanguage with
      | some name, _ => some (.refusedSetting (.repeatedLanguage name) (valueSpan? text name))
      | none, some default =>
          if languages.contains default then none
          else some (.refusedSetting (.defaultNotListed default) (keySpan? text "default_language"))
      | none, none => none

def error? (text : String) (manifest : Manifest) : Option SourceError :=
  ((nameError? text manifest).or (indentError? text manifest)).or (languagesError? text manifest)

def ofText (text : String) : Except SourceError Manifest :=
  match (Toml.readDocument? text.toList).bind ofDocument? with
  | none => .error .malformedManifest
  | some manifest =>
      match error? text manifest with
      | some error => .error error
      | none => .ok manifest

/-- The settings in a file, the defaults when it does not exist. -/
def ofFile {m : Type → Type} [Monad m] [FileSystem m] (path : Path) :
    m (Except SourceError Manifest) := do
  if ← FileSystem.isThere path then
    match ← FileSystem.readText? path with
    | some text => return ofText text
    | none => return .error (.unreadable path)
  else return .ok {}

end Phrasebook.Manifest
