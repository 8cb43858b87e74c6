import Phrasebook.Proofs.Locale.Discovery
import Phrasebook.Proofs.Writing

/-!
# Loading locale files

Which files are loaded, and in which order, is settled before the first of them is read. A language
without a file is told then, and what is read afterwards are the chosen files, one after the other,
up to the first that cannot be loaded. All that loading does to a disk is to read from it.
-/

namespace Phrasebook

/-! ## Files that are read -/

/-- Files that can be read, but not written: what directories list, and the texts of files. -/
structure Shelf where
  listing : Path → Option (List DirectoryEntry)
  text : Path → Option String

/-- Operations on a shelf, which keep the paths of the files that were read. -/
abbrev Reading : Type → Type :=
  ReaderT Shelf (StateM (List Path))

instance : FileSystem Reading where
  isThere path := fun shelf read => ((shelf.listing path).isSome || (shelf.text path).isSome, read)
  readText? path := fun shelf read => (shelf.text path, read ++ [path])
  list? path := fun shelf read => (shelf.listing path, read)
  makeDirectory _ := fun _ read => (false, read)
  writeText _ _ := fun _ read => (false, read)

/-- The outcome of loading, and the paths of the files that were read for it. -/
abbrev Loading : Type :=
  Except SourceError (List (Named Document)) × List Path

namespace Shelf

variable {shelf : Shelf}

/-- What an operation gives, and which files it reads. -/
def run {α : Type} (shelf : Shelf) (operation : Reading α) : α × List Path :=
  operation shelf []

/-- The document of a file. -/
def load (shelf : Shelf) (file : LocaleFile) : Except SourceError (Named Document) :=
  match shelf.text file.path with
  | some text =>
      (file.format.documentOf file.path text).map fun document => ⟨file.language, document⟩
  | none => .error (.unreadable file.path)

/-- How loading files ends: all of them are read and loaded in their order, or those up to the first
that cannot be loaded are read. -/
inductive Loads (shelf : Shelf) : List LocaleFile → Loading → Prop
  | all {files : List LocaleFile} {documents : List (Named Document)}
      (each : List.Forall₂ (fun file document => shelf.load file = .ok document) files documents) :
      Loads shelf files (.ok documents, files.map LocaleFile.path)
  | stopped {front back : List LocaleFile} {file : LocaleFile} {error : SourceError}
      (before : ∀ earlier ∈ front, ∃ document, shelf.load earlier = .ok document)
      (failed : shelf.load file = .error error) :
      Loads shelf (front ++ file :: back) (.error error, (front ++ [file]).map LocaleFile.path)

theorem run_andThen {α β : Type} (first : Reading α) (next : α → Reading β) (read : List Path) :
    (first >>= next) shelf read = next (first shelf read).1 shelf (first shelf read).2 :=
  rfl

theorem run_readText? (path : Path) (read : List Path) :
    (FileSystem.readText? path : Reading (Option String)) shelf read =
      (shelf.text path, read ++ [path]) :=
  rfl

theorem run_load (file : LocaleFile) (read : List Path) :
    (file.load : Reading (Except SourceError (Named Document))) shelf read =
      (shelf.load file, read ++ [file.path]) := by
  rw [LocaleFile.load, load, run_andThen, run_readText?]
  cases shelf.text file.path <;> rfl

/-- What loading files gives when others were read before. -/
def loadAll (shelf : Shelf) (files : List LocaleFile) (read : List Path) : Loading :=
  (LocaleFile.loadAll files : Reading (Except SourceError (List (Named Document)))) shelf read

theorem loadAll_cons (first : LocaleFile) (rest : List LocaleFile) (read : List Path) :
    shelf.loadAll (first :: rest) read =
      match shelf.load first with
      | .error error => (.error error, read ++ [first.path])
      | .ok document =>
          match shelf.loadAll rest (read ++ [first.path]) with
          | (.error error, after) => (.error error, after)
          | (.ok others, after) => (.ok (document :: others), after) := by
  rw [loadAll, LocaleFile.loadAll, run_andThen, run_load]
  cases shelf.load first with
  | error error => rfl
  | ok document =>
      have others : (LocaleFile.loadAll rest : Reading (Except SourceError (List (Named Document))))
          shelf (read ++ [first.path]) = shelf.loadAll rest (read ++ [first.path]) :=
        rfl
      dsimp only
      rw [run_andThen, others]
      rcases shelf.loadAll rest (read ++ [first.path]) with ⟨_ | _, after⟩
      · rfl
      · rfl

/-- Loading reads what its outcome is about, and nothing else. -/
theorem loads_loadAll (shelf : Shelf) (files : List LocaleFile) (read : List Path) :
    ∃ outcome paths, shelf.loadAll files read = (outcome, read ++ paths) ∧
      Loads shelf files (outcome, paths) := by
  induction files generalizing read with
  | nil => exact ⟨.ok [], [], by rw [List.append_nil]; rfl, .all .nil⟩
  | cons first rest ih =>
      rw [loadAll_cons]
      cases loaded : shelf.load first with
      | error error =>
          have stopped : Loads shelf ([] ++ first :: rest)
              (.error error, ([] ++ [first]).map LocaleFile.path) :=
            .stopped nofun loaded
          exact ⟨_, _, rfl, stopped⟩
      | ok document =>
          obtain ⟨outcome, paths, behind, loads⟩ := ih (read ++ [first.path])
          dsimp only
          rw [behind, List.append_assoc]
          cases loads with
          | all each => exact ⟨_, _, rfl, .all (.cons loaded each)⟩
          | @stopped front back file error before failed =>
              have stopped : Loads shelf ((first :: front) ++ file :: back)
                  (.error error, ((first :: front) ++ [file]).map LocaleFile.path) :=
                .stopped (List.forall_mem_cons.mpr ⟨⟨document, loaded⟩, before⟩) failed
              exact ⟨_, _, rfl, stopped⟩

/-- Loading depends on the texts of files only. -/
theorem loadAll_congr {other : Shelf} (texts : other.text = shelf.text) (files : List LocaleFile)
    (read : List Path) : other.loadAll files read = shelf.loadAll files read := by
  induction files generalizing read with
  | nil => rfl
  | cons first rest ih =>
      have same : other.load first = shelf.load first := by rw [load, load, texts]
      rw [loadAll_cons, loadAll_cons, same]
      cases shelf.load first with
      | error error => rfl
      | ok document =>
          dsimp only
          rw [ih]

/-! ## Disks as shelves -/

/-- What can be read on a disk. -/
def ofDisk (disk : Disk) : Shelf where
  listing path := disk.list? path
  text path := disk.readText? path

/-- Whether an operation on a disk gives what can be read from it by another operation, whatever was
read before, and leaves the disk as it is. -/
def ReadsAlike {α : Type} (onDisk : StateM Disk α) (onShelf : Reading α) : Prop :=
  ∀ disk read, onDisk.run disk = ((onShelf (ofDisk disk) read).1, disk)

section

variable {α β : Type}

theorem readsAlike_pure (value : α) : ReadsAlike (pure value) (pure value) :=
  fun _ _ => rfl

theorem ReadsAlike.andThen {onDisk : StateM Disk α} {onShelf : Reading α}
    (first : ReadsAlike onDisk onShelf)
    {nextOnDisk : α → StateM Disk β} {nextOnShelf : α → Reading β}
    (next : ∀ value, ReadsAlike (nextOnDisk value) (nextOnShelf value)) :
    ReadsAlike (onDisk >>= nextOnDisk) (onShelf >>= nextOnShelf) := by
  intro disk read
  rw [Phrasebook.run_andThen, first disk read, run_andThen]
  exact next _ disk _

end

theorem readsAlike_load (file : LocaleFile) : ReadsAlike file.load file.load := by
  refine ReadsAlike.andThen (fun _ _ => rfl) fun text => ?_
  cases text with
  | none => exact readsAlike_pure _
  | some text => exact readsAlike_pure _

theorem readsAlike_loadAll (files : List LocaleFile) :
    ReadsAlike (LocaleFile.loadAll files) (LocaleFile.loadAll files) := by
  induction files with
  | nil => exact readsAlike_pure _
  | cons first rest ih =>
      refine (readsAlike_load first).andThen fun outcome => ?_
      cases outcome with
      | error error => exact readsAlike_pure _
      | ok document =>
          refine ih.andThen fun others => ?_
          cases others with
          | error error => exact readsAlike_pure _
          | ok others => exact readsAlike_pure _

theorem readsAlike_discoverLocales (directory : Path) :
    ReadsAlike (discoverLocales directory) (discoverLocales directory) := by
  refine ReadsAlike.andThen (fun _ _ => rfl) fun listing => ?_
  cases listing with
  | none => exact readsAlike_pure _
  | some listing => exact readsAlike_pure _

/-- On a disk, loading gives what it gives on the shelf of all that can be read, and changes nothing. -/
theorem readsAlike_loadLocales (directory : Path) (languages : Option (List String)) :
    ReadsAlike (loadLocales directory languages) (loadLocales directory languages) := by
  refine (readsAlike_discoverLocales directory).andThen fun outcome => ?_
  cases outcome with
  | error error => exact readsAlike_pure _
  | ok files =>
      dsimp only
      cases LocaleFile.select directory languages files with
      | error error => exact readsAlike_pure _
      | ok chosen => exact readsAlike_loadAll chosen

end Shelf

/-! ## Choosing files -/

namespace LocaleFile

/-- Whether a file is the one of a language among others. -/
def IsFileFor (files : List LocaleFile) (language : String) (file : LocaleFile) : Prop :=
  file ∈ files ∧ file.language = language

/-- Picking gives the files of all languages in the order of those, or tells the first that has none. -/
theorem pick_cases (directory : Path) (files : List LocaleFile) (names : List String) :
    (∃ chosen, pick directory files names = .ok chosen ∧
      List.Forall₂ (IsFileFor files) names chosen) ∨
    ∃ front name back, names = front ++ name :: back ∧
      (∀ earlier ∈ front, ∃ file, IsFileFor files earlier file) ∧
      (∀ file, ¬ IsFileFor files name file) ∧
      pick directory files names = .error (.missingLocale name directory) := by
  induction names with
  | nil => exact Or.inl ⟨[], rfl, .nil⟩
  | cons name rest ih =>
      rw [pick]
      cases found : files.find? fun file => file.language = name with
      | none =>
          rw [List.find?_eq_none] at found
          refine Or.inr ⟨[], name, rest, rfl, nofun, fun file isFile => ?_, rfl⟩
          exact found file isFile.1 (decide_eq_true isFile.2)
      | some file =>
          have isFile : IsFileFor files name file :=
            ⟨List.mem_of_find?_eq_some found, by simpa using List.find?_some found⟩
          rcases ih with ⟨chosen, picked, each⟩ | ⟨front, missing, back, rfl, before, absent, failed⟩
          · exact Or.inl ⟨file :: chosen, by rw [picked]; rfl, .cons isFile each⟩
          · refine Or.inr ⟨name :: front, missing, back, rfl, ?_, absent, by rw [failed]; rfl⟩
            exact List.forall_mem_cons.mpr ⟨⟨file, isFile⟩, before⟩

end LocaleFile

/-! ## Loading a directory -/

namespace Shelf

variable {shelf : Shelf} {directory : Path}

/-- How loading ends for chosen files: there must be one at least. -/
inductive LoadsChosen (shelf : Shelf) (directory : Path) : List LocaleFile → Loading → Prop
  | nothing : LoadsChosen shelf directory [] (.error (.noLocales directory), [])
  | something {chosen : List LocaleFile} {loading : Loading} (present : chosen ≠ [])
      (loads : shelf.Loads chosen loading) : LoadsChosen shelf directory chosen loading

/-- How loading ends when the files of a directory were found. Without a list of languages all files
are chosen in their order, and with one the files of its languages in the order of the list. If a
language of the list has no file, the first one that has none is told, and no file is read. -/
inductive Ends (shelf : Shelf) (directory : Path) (files : List LocaleFile) :
    Option (List String) → Loading → Prop
  | all {loading : Loading} (loads : shelf.LoadsChosen directory files loading) :
      Ends shelf directory files none loading
  | listed {names : List String} {chosen : List LocaleFile} {loading : Loading}
      (each : List.Forall₂ (LocaleFile.IsFileFor files) names chosen)
      (loads : shelf.LoadsChosen directory chosen loading) :
      Ends shelf directory files (some names) loading
  | missing {front back : List String} {name : String}
      (before : ∀ earlier ∈ front, ∃ file, LocaleFile.IsFileFor files earlier file)
      (absent : ∀ file, ¬ LocaleFile.IsFileFor files name file) :
      Ends shelf directory files (some (front ++ name :: back))
        (.error (.missingLocale name directory), [])

/-- What loading gives for the files that were found. -/
def loadSelected (shelf : Shelf) (directory : Path) (languages : Option (List String))
    (files : List LocaleFile) : Loading :=
  match LocaleFile.select directory languages files with
  | .error error => (.error error, [])
  | .ok chosen => shelf.loadAll chosen []

/-- Chosen files are loaded, unless there are none. -/
theorem loadsChosen_of_select {languages : Option (List String)} {files chosen : List LocaleFile}
    (selected : LocaleFile.select directory languages files =
      match chosen with
      | [] => .error (.noLocales directory)
      | chosen => .ok chosen) :
    shelf.LoadsChosen directory chosen (shelf.loadSelected directory languages files) := by
  rw [loadSelected, selected]
  cases chosen with
  | nil => exact .nothing
  | cons first rest =>
      obtain ⟨outcome, paths, loaded, loads⟩ := loads_loadAll shelf (first :: rest) []
      refine .something (List.cons_ne_nil _ _) ?_
      dsimp only
      rw [loaded]
      exact loads

theorem ends_loadSelected (languages : Option (List String)) (files : List LocaleFile) :
    shelf.Ends directory files languages (shelf.loadSelected directory languages files) := by
  cases languages with
  | none =>
      refine .all (loadsChosen_of_select ?_)
      cases files <;> rfl
  | some names =>
      rcases LocaleFile.pick_cases directory files names with
        ⟨chosen, picked, each⟩ | ⟨front, name, back, rfl, before, absent, failed⟩
      · refine .listed each (loadsChosen_of_select ?_)
        rw [LocaleFile.select, picked]
        cases chosen <;> rfl
      · have ends : shelf.loadSelected directory (some (front ++ name :: back)) files =
            (.error (.missingLocale name directory), []) := by
          rw [loadSelected, LocaleFile.select, failed]
        rw [ends]
        exact .missing before absent

section

variable {listing : List DirectoryEntry} (listed : shelf.listing directory = some listing)

include listed

theorem run_discoverLocales :
    shelf.run (discoverLocales directory) = (LocaleFile.ofListing directory listing, []) := by
  have found : (FileSystem.list? directory : Reading (Option (List DirectoryEntry))) shelf [] =
      (some listing, []) :=
    congrArg (·, []) listed
  rw [run, discoverLocales, run_andThen, found]
  rfl

theorem run_loadLocales (languages : Option (List String)) :
    shelf.run (loadLocales directory languages) =
      match LocaleFile.ofListing directory listing with
      | .error error => (.error error, [])
      | .ok files => shelf.loadSelected directory languages files := by
  have found : (discoverLocales directory : Reading (Except SourceError (List LocaleFile))) shelf [] =
      (LocaleFile.ofListing directory listing, []) :=
    run_discoverLocales listed
  rw [run, loadLocales, run_andThen, found]
  cases LocaleFile.ofListing directory listing with
  | error error => rfl
  | ok files =>
      dsimp only
      rw [loadSelected]
      cases LocaleFile.select directory languages files <;> rfl

/-- Loading a directory does not depend on the order in which it is listed. It finds all locale files,
with the languages in their order, unless a language has several. Then the smallest such language is
told, with the first two of its paths. From the files that were found those of the languages that are
asked for are chosen before the first of them is read. -/
theorem loadLocales_orderly (isDirectory : IsDirectory listing) :
    (∀ (other : Shelf) (relisted : List DirectoryEntry), other.listing directory = some relisted →
      listing.Perm relisted →
      other.run (discoverLocales directory) = shelf.run (discoverLocales directory) ∧
        (other.text = shelf.text → ∀ languages,
          other.run (loadLocales directory languages) = shelf.run (loadLocales directory languages))) ∧
    ∃ outcome, shelf.run (discoverLocales directory) = (outcome, []) ∧
      LocaleFile.Discovers directory listing outcome ∧
      ((∃ files, outcome = .ok files) ↔
        ∀ language, ¬ LocaleFile.Duplicated directory listing language) ∧
      ∀ files, outcome = .ok files → ∀ languages,
        shelf.Ends directory files languages (shelf.run (loadLocales directory languages)) := by
  refine ⟨fun other relisted otherListed same => ?_, _, run_discoverLocales listed,
    LocaleFile.discovers_ofListing isDirectory, LocaleFile.ofListing_eq_ok_iff isDirectory,
    fun files found languages => ?_⟩
  · have found : LocaleFile.ofListing directory listing = LocaleFile.ofListing directory relisted :=
      LocaleFile.ofListing_perm isDirectory same
    refine ⟨?_, fun texts languages => ?_⟩
    · rw [run_discoverLocales listed, run_discoverLocales otherListed, found]
    · rw [run_loadLocales listed, run_loadLocales otherListed, found]
      cases LocaleFile.ofListing directory relisted with
      | error error => rfl
      | ok files =>
          dsimp only
          rw [loadSelected, loadSelected]
          cases LocaleFile.select directory languages files with
          | error error => rfl
          | ok chosen => exact loadAll_congr texts chosen []
  · rw [run_loadLocales listed, found]
    exact ends_loadSelected languages files

end

/-- A shelf on which every directory lists the same names, and no file can be read. -/
def ofNames (names : List (String × Bool)) : Shelf where
  listing _ := some (listingOf names)
  text _ := none

/-- Names in a directory, with three files of one language, and a directory with a name like a file. -/
def crowdedNames : List (String × Bool) :=
  [("en.YAML", true), ("en.json", true), ("en.toml", true), ("fr.yaml", false), ("notes.md", true),
    ("zh.yml", true)]

/-- Listed backwards, the three files of one language are told by their first two paths. With one of
them left, the first of two languages without a file is told. -/
theorem loadLocales_backwards :
    (ofNames crowdedNames.reverse).run (discoverLocales ⟨"locales"⟩) =
        (.error (.duplicateLocale "en" ⟨"locales/en.YAML"⟩ ⟨"locales/en.json"⟩), []) ∧
      LocaleFile.Discovers ⟨"locales"⟩ (listingOf crowdedNames)
        (.error (.duplicateLocale "en" ⟨"locales/en.YAML"⟩ ⟨"locales/en.json"⟩)) ∧
      (ofNames (crowdedNames.drop 2).reverse).run
          (loadLocales ⟨"locales"⟩ (some ["zh", "fr", "de"])) =
        (.error (.missingLocale "fr" ⟨"locales"⟩), []) := by
  have listed (names : List (String × Bool)) :
      (ofNames names).listing ⟨"locales"⟩ = some (listingOf names) :=
    rfl
  have backwards (names : List (String × Bool)) :
      (listingOf names).Perm (listingOf names.reverse) :=
    (List.reverse_perm names).symm.map _
  obtain ⟨reordered, outcome, found, discovers, _⟩ := loadLocales_orderly (listed crowdedNames)
    (isDirectory_listingOf (by decide) (by decide))
  have clash : (ofNames crowdedNames).run (discoverLocales ⟨"locales"⟩) =
      (.error (.duplicateLocale "en" ⟨"locales/en.YAML"⟩ ⟨"locales/en.json"⟩), []) := by
    rw [run_discoverLocales (listed _), LocaleFile.ofListing_eq,
      LocaleFile.sortedFiles_of_sorted (by unfold LocaleFile.Sorted; decide)]
    rfl
  refine ⟨?_, ?_, ?_⟩
  · rw [(reordered _ _ (listed _) (backwards _)).1, clash]
  · cases found.symm.trans clash
    exact discovers
  · have same := ((loadLocales_orderly (listed (crowdedNames.drop 2))
      (isDirectory_listingOf (by decide) (by decide))).1 _ _ (listed _) (backwards _)).2
    rw [same rfl, run_loadLocales (listed _), LocaleFile.ofListing_eq,
      LocaleFile.sortedFiles_of_sorted (by unfold LocaleFile.Sorted; decide)]
    rfl

end Shelf

end Phrasebook
