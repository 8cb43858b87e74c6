import Phrasebook.FileSystem
import Phrasebook.Locale.Document

/-!
# Finding and loading locale files

A directory holds one locale file for each language, named after it. Which files those are
does not depend on the order in which the directory lists them: they are sorted by
language, and a language with two files is an error that names the first two.
-/

namespace Phrasebook

structure LocaleFile where
  language : String
  path : Path
  format : LocaleFormat
deriving DecidableEq, Repr

namespace LocaleFile

/-- The locale file of a listed name: a regular file with a known extension. -/
def ofListed? (directory : Path) (entry : DirectoryEntry) : Option LocaleFile :=
  match entry.name with
  | .undecodable _ => none
  | .text name =>
      let path := directory.join name
      match path.stem?, LocaleFormat.ofPath? path with
      | some language, some format => if entry.isFile then some ⟨language, path, format⟩ else none
      | _, _ => none

/-- Whether a file comes before another one or is the same: by language, then by path. -/
def precedes (first second : LocaleFile) : Bool :=
  first.language < second.language ||
    (first.language = second.language && first.path.text ≤ second.path.text)

/-- The first two files that are next to each other and have the same language. -/
def clash? : List LocaleFile → Option (LocaleFile × LocaleFile)
  | first :: second :: rest =>
      if first.language = second.language then some (first, second) else clash? (second :: rest)
  | _ => none

/-- The locale files that a listing holds. -/
def ofListing (directory : Path) (listing : List DirectoryEntry) : Except SourceError (List LocaleFile) :=
  let sorted := (listing.filterMap (ofListed? directory)).mergeSort precedes
  match clash? sorted with
  | some (first, second) => .error (.duplicateLocale first.language first.path second.path)
  | none => .ok sorted

/-- The files of languages, in the order of those. -/
def pick (directory : Path) (files : List LocaleFile) :
    List String → Except SourceError (List LocaleFile)
  | [] => .ok []
  | name :: rest =>
      match files.find? fun file => file.language = name with
      | some file => (pick directory files rest).map (file :: ·)
      | none => .error (.missingLocale name directory)

/-- The files of the languages that are asked for, or all of them. There must be one at
least. -/
def select (directory : Path) (languages : Option (List String)) (files : List LocaleFile) :
    Except SourceError (List LocaleFile) :=
  let chosen : Except SourceError (List LocaleFile) := match languages with
    | none => .ok files
    | some names => pick directory files names
  match chosen with
  | .ok [] => .error (.noLocales directory)
  | result => result

end LocaleFile

section

variable {m : Type → Type} [Monad m] [FileSystem m]

def discoverLocales (directory : Path) : m (Except SourceError (List LocaleFile)) := do
  match ← FileSystem.list? directory with
  | some listing => return LocaleFile.ofListing directory listing
  | none => return .error (.unreadable directory)

def LocaleFile.load (file : LocaleFile) : m (Except SourceError (Named Document)) := do
  match ← FileSystem.readText? file.path with
  | some text => return (file.format.documentOf file.path text).map fun document => ⟨file.language, document⟩
  | none => return .error (.unreadable file.path)

/-- The documents of locale files, up to the first that cannot be read. -/
def LocaleFile.loadAll : List LocaleFile → m (Except SourceError (List (Named Document)))
  | [] => return .ok []
  | first :: rest => do
      match ← first.load with
      | .error error => return .error error
      | .ok document =>
          match ← loadAll rest with
          | .error error => return .error error
          | .ok others => return .ok (document :: others)

/-- The documents of the languages that are asked for, or of all that a directory has. -/
def loadLocales (directory : Path) (languages : Option (List String)) :
    m (Except SourceError (List (Named Document))) := do
  match ← discoverLocales directory with
  | .error error => return .error error
  | .ok files =>
      match LocaleFile.select directory languages files with
      | .error error => return .error error
      | .ok chosen => LocaleFile.loadAll chosen

end

end Phrasebook
