import Mathlib.Data.List.Nodup
import Phrasebook.Locale.Discovery
import Phrasebook.Proofs.Emission.Layout
import Phrasebook.Proofs.Path.Order

/-!
# Which locale files are found

The names in a directory are different, so a locale file is known by its path, and in one directory
the order of paths is that of the names. Sorting by language and then by path is thus a total order
on the files that a directory holds: what it gives does not depend on the order of the listing. Files
of one language end up side by side, and of the smallest such language the first two files are told.
-/

namespace Phrasebook

open Phrasebook.Path

/-! ## Formats -/

namespace LocaleFormat

/-- The extensions of a format, in lower case. -/
def extensions : LocaleFormat → List String
  | yaml => ["yaml", "yml"]
  | json => ["json"]
  | toml => ["toml"]

/-- Whether an extension is one of a format but for the case of its letters. -/
def Accepts (format : LocaleFormat) (extension : String) : Prop :=
  ∃ known ∈ format.extensions, extension.toList.map Char.toLower = known.toList

theorem ofExtension?_eq_some_iff {extension : String} {format : LocaleFormat} :
    ofExtension? extension = some format ↔ format.Accepts extension := by
  have folded_iff (known : String) : String.ofList (extension.toList.map Char.toLower) = known ↔
      extension.toList.map Char.toLower = known.toList := by
    rw [← String.toList_inj, String.toList_ofList]
  rw [ofExtension?, Accepts]
  simp only [folded_iff]
  generalize extension.toList.map Char.toLower = folded
  constructor
  · intro known
    split at known
    · rename_i yamls
      cases known
      rcases yamls with same | same
      · exact ⟨"yaml", List.mem_cons_self, same⟩
      · exact ⟨"yml", List.mem_cons_of_mem _ List.mem_cons_self, same⟩
    · split at known
      · cases known
        exact ⟨"json", List.mem_cons_self, ‹_›⟩
      · split at known
        · cases known
          exact ⟨"toml", List.mem_cons_self, ‹_›⟩
        · cases known
  · rintro ⟨known, member, rfl⟩
    revert known
    cases format <;> decide

/-- No extension of a format has a dot. -/
theorem Accepts.noDot {format : LocaleFormat} {extension : String} (accepts : format.Accepts extension) :
    '.' ∉ extension.toList := by
  obtain ⟨known, member, same⟩ := accepts
  have plain : ∀ known ∈ format.extensions, '.' ∉ known.toList := by cases format <;> decide
  intro dot
  apply plain known member
  rw [← same]
  exact List.mem_map_of_mem dot

end LocaleFormat

/-! ## Listed files -/

/-- The names in a listing are different, and each is one component of a path. -/
structure IsDirectory (listing : List DirectoryEntry) : Prop where
  distinct : (listing.map DirectoryEntry.name).Nodup
  isName : ∀ entry ∈ listing, ∀ name, entry.name = .text name → IsFileName name

/-- The listing of names that are texts, with whether they are those of regular files. -/
def listingOf (names : List (String × Bool)) : List DirectoryEntry :=
  names.map fun (name, isFile) => ⟨.text name, isFile⟩

theorem isDirectory_listingOf {names : List (String × Bool)} (distinct : (names.map Prod.fst).Nodup)
    (isName : ∀ name ∈ names, IsFileName name.1) : IsDirectory (listingOf names) where
  distinct := by
    have texts : (listingOf names).map DirectoryEntry.name = (names.map Prod.fst).map FileName.text := by
      rw [listingOf, List.map_map, List.map_map]
      rfl
    rw [texts]
    exact distinct.map fun _ _ same => FileName.text.inj same
  isName := by
    rw [listingOf, List.forall_mem_map]
    rintro ⟨name, isFile⟩ member _ ⟨⟩
    exact isName _ member

namespace LocaleFile

/-- Whether a locale file is that of an entry in a directory: a regular file that is named after the
language, with an extension of the format in any case. -/
structure IsListed (directory : Path) (entry : DirectoryEntry) (file : LocaleFile) : Prop where
  regular : entry.isFile = true
  present : file.language ≠ ""
  named : ∃ extension, file.format.Accepts extension ∧
    entry.name = .text (unitName file.language extension) ∧
    file.path = directory.join (unitName file.language extension)

/-- Whether a locale file is one of those in a directory with a listing. -/
def Holds (directory : Path) (listing : List DirectoryEntry) (file : LocaleFile) : Prop :=
  ∃ entry ∈ listing, file.IsListed directory entry

/-- Whether a language has two locale files in a directory with a listing. -/
def Duplicated (directory : Path) (listing : List DirectoryEntry) (language : String) : Prop :=
  ∃ one other, Holds directory listing one ∧ Holds directory listing other ∧ one ≠ other ∧
    one.language = language ∧ other.language = language

/-- The file of an entry has the language and the format that its path shows. -/
theorem ofListed?_text {directory : Path} {name : String} {isFile : Bool} {file : LocaleFile} :
    ofListed? directory ⟨.text name, isFile⟩ = some file ↔
      isFile = true ∧ file.path = directory.join name ∧ file.path.stem? = some file.language ∧
        LocaleFormat.ofPath? file.path = some file.format := by
  rw [ofListed?]
  constructor
  · intro found
    dsimp only at found
    split at found
    · rename_i language format stem formatOf
      split at found
      · rename_i regular
        cases found
        exact ⟨regular, rfl, stem, formatOf⟩
      · cases found
    · cases found
  · rintro ⟨rfl, path, stem, formatOf⟩
    rw [path] at stem formatOf
    dsimp only
    rw [stem, formatOf]
    dsimp only
    rw [if_pos rfl, ← path]

theorem ofListed?_eq_some_iff {directory : Path} {entry : DirectoryEntry} {file : LocaleFile}
    (isName : ∀ name, entry.name = .text name → IsFileName name) :
    ofListed? directory entry = some file ↔ file.IsListed directory entry := by
  obtain ⟨name, isFile⟩ := entry
  cases name with
  | undecodable bytes =>
      refine iff_of_false nofun fun ⟨_, _, _, _, named, _⟩ => ?_
      cases named
  | text name =>
      have named {path : Path} (joined : path = directory.join name) :
          path.fileName? = some name.toList :=
        joined ▸ fileName?_join directory (isName name rfl)
      rw [ofListed?_text]
      constructor
      · rintro ⟨regular, path, stem, formatOf⟩
        obtain ⟨extension, extensionOf, known⟩ := Option.bind_eq_some_iff.mp formatOf
        obtain ⟨present, _, nameOf⟩ := stem?_extension?_iff.mp ⟨stem, extensionOf⟩
        have written : name = unitName file.language extension := by
          rw [← String.toList_inj, toList_unitName]
          exact Option.some.inj ((named path).symm.trans nameOf)
        refine ⟨regular, fun empty => present (by rw [empty]; rfl), extension,
          LocaleFormat.ofExtension?_eq_some_iff.mp known, ?_, ?_⟩
        · rw [written]
        · rw [path, written]
      · rintro ⟨regular, present, extension, accepts, written, path⟩
        cases written
        obtain ⟨stem, extensionOf⟩ := stem?_extension?_iff.mpr
          ⟨fun empty => present (String.toList_eq_nil_iff.mp empty), accepts.noDot,
            (named path).trans (congrArg some (toList_unitName ..))⟩
        refine ⟨regular, path, stem, ?_⟩
        rw [LocaleFormat.ofPath?, extensionOf]
        exact LocaleFormat.ofExtension?_eq_some_iff.mpr accepts

/-- What a file is shows in its path. -/
theorem shown_of_ofListed? {directory : Path} {entry : DirectoryEntry} {file : LocaleFile}
    (found : ofListed? directory entry = some file) :
    file.path.stem? = some file.language ∧ LocaleFormat.ofPath? file.path = some file.format := by
  obtain ⟨name, isFile⟩ := entry
  cases name with
  | undecodable bytes => cases found
  | text name => exact (ofListed?_text.mp found).2.2

/-! ## Order of files -/

theorem precedes_iff {one other : LocaleFile} :
    precedes one other = true ↔ one.language < other.language ∨
      one.language = other.language ∧ one.path.text ≤ other.path.text := by
  rw [precedes, Bool.or_eq_true, Bool.and_eq_true, decide_eq_true_eq, decide_eq_true_eq,
    decide_eq_true_eq]

theorem precedes_trans (one other third : LocaleFile) (before : precedes one other = true)
    (behind : precedes other third = true) : precedes one third = true := by
  rw [precedes_iff] at before behind ⊢
  rcases before with less | ⟨same, atMost⟩
  · rcases behind with otherLess | ⟨otherSame, _⟩
    · exact Or.inl (lt_trans less otherLess)
    · exact Or.inl (otherSame ▸ less)
  · rcases behind with otherLess | ⟨otherSame, otherAtMost⟩
    · exact Or.inl (same ▸ otherLess)
    · exact Or.inr ⟨same.trans otherSame, le_trans atMost otherAtMost⟩

theorem precedes_total (one other : LocaleFile) :
    (precedes one other || precedes other one) = true := by
  rw [Bool.or_eq_true, precedes_iff, precedes_iff]
  rcases lt_trichotomy one.language other.language with less | same | less
  · exact Or.inl (Or.inl less)
  · rcases le_total one.path.text other.path.text with atMost | atMost
    · exact Or.inl (Or.inr ⟨same, atMost⟩)
    · exact Or.inr (Or.inr ⟨same.symm, atMost⟩)
  · exact Or.inr (Or.inl less)

theorem language_le {one other : LocaleFile} (before : precedes one other = true) :
    one.language ≤ other.language := by
  rcases precedes_iff.mp before with less | ⟨same, _⟩
  · exact le_of_lt less
  · exact le_of_eq same

/-- Files that come before each other have the same path. -/
theorem path_eq_of_precedes {one other : LocaleFile} (before : precedes one other = true)
    (behind : precedes other one = true) : one.path = other.path := by
  have same : one.language = other.language := le_antisymm (language_le before) (language_le behind)
  rw [precedes_iff, same, or_iff_right (lt_irrefl _)] at before behind
  exact congrArg Path.mk (le_antisymm before.2 behind.2)

section

variable {directory : Path} {listing : List DirectoryEntry} (isDirectory : IsDirectory listing)

include isDirectory

theorem mem_listed_iff {file : LocaleFile} :
    file ∈ listing.filterMap (ofListed? directory) ↔ Holds directory listing file := by
  rw [List.mem_filterMap, Holds]
  refine exists_congr fun entry => and_congr_right fun member => ?_
  exact ofListed?_eq_some_iff (isDirectory.isName entry member)

/-- A held file lies in the directory under a name of the listing. -/
theorem exists_name {file : LocaleFile} (held : Holds directory listing file) :
    ∃ name, IsFileName name ∧ file.path = directory.join name := by
  obtain ⟨entry, member, _, _, extension, _, named, path⟩ := held
  exact ⟨_, isDirectory.isName entry member _ named, path⟩

/-- A held file is known by its path. -/
theorem eq_of_path_eq {one other : LocaleFile} (held : Holds directory listing one)
    (otherHeld : Holds directory listing other) (same : one.path = other.path) : one = other := by
  obtain ⟨_, _, found⟩ := List.mem_filterMap.mp ((mem_listed_iff isDirectory).mpr held)
  obtain ⟨_, _, otherFound⟩ := List.mem_filterMap.mp ((mem_listed_iff isDirectory).mpr otherHeld)
  obtain ⟨stem, format⟩ := shown_of_ofListed? found
  obtain ⟨otherStem, otherFormat⟩ := shown_of_ofListed? otherFound
  rw [same] at stem format
  have languages := Option.some.inj (stem.symm.trans otherStem)
  have formats := Option.some.inj (format.symm.trans otherFormat)
  cases one
  cases other
  congr

/-- Of two held files of one language, that which precedes has the first path. -/
theorem before_of_precedes {one other : LocaleFile} (held : Holds directory listing one)
    (otherHeld : Holds directory listing other) (differ : one ≠ other)
    (language : one.language = other.language) (before : precedes one other = true) :
    one.path.Before other.path := by
  obtain ⟨name, isName, path⟩ := exists_name isDirectory held
  obtain ⟨otherName, isOtherName, otherPath⟩ := exists_name isDirectory otherHeld
  rw [precedes_iff, language, or_iff_right (lt_irrefl _), path, otherPath] at before
  rw [path, otherPath]
  refine before_of_text_le isName isOtherName (fun same => differ ?_) before.2
  exact eq_of_path_eq isDirectory held otherHeld (by rw [path, otherPath, same])

/-- No file is listed twice. -/
theorem nodup_listed : (listing.filterMap (ofListed? directory)).Nodup := by
  have distinct := isDirectory.distinct
  rw [List.Nodup, List.pairwise_map] at distinct
  rw [List.Nodup, List.pairwise_filterMap]
  refine distinct.imp_of_mem fun {entry other} member otherMember differ one found two otherFound => ?_
  have isName := isDirectory.isName entry member
  have isOtherName := isDirectory.isName other otherMember
  obtain ⟨_, _, _, _, named, path⟩ := (ofListed?_eq_some_iff isName).mp found
  obtain ⟨_, _, _, _, otherNamed, otherPath⟩ := (ofListed?_eq_some_iff isOtherName).mp otherFound
  rintro rfl
  apply differ
  rw [named, otherNamed]
  exact congrArg FileName.text
    (join_injective (isName _ named) (isOtherName _ otherNamed) (path.symm.trans otherPath))

end

/-! ## Files side by side -/

/-- Whether files are in the order of sorting. -/
def Sorted (files : List LocaleFile) : Prop :=
  files.Pairwise fun one other => precedes one other = true

/-- Whether every language is greater than those before it. -/
def Increasing (files : List LocaleFile) : Prop :=
  files.Pairwise fun one other => one.language < other.language

/-- Where languages increase, no language comes twice. -/
theorem Increasing.eq_of_language {files : List LocaleFile} (increasing : Increasing files)
    {one other : LocaleFile} (member : one ∈ files) (otherMember : other ∈ files)
    (same : one.language = other.language) : one = other := by
  have nodup : (files.map LocaleFile.language).Nodup := by
    rw [List.Nodup, List.pairwise_map]
    exact increasing.imp fun less => less.ne
  exact List.inj_on_of_nodup_map nodup member otherMember same

/-- In sorted files, a language that differs from the next one is smaller than all that follow. -/
theorem language_lt_of_ne {first second : LocaleFile} {rest : List LocaleFile}
    (sorted : Sorted (first :: second :: rest)) (differ : first.language ≠ second.language) :
    ∀ file ∈ second :: rest, first.language < file.language := by
  obtain ⟨behindFirst, others⟩ := List.pairwise_cons.mp sorted
  have less : first.language < second.language :=
    lt_of_le_of_ne (language_le (behindFirst second List.mem_cons_self)) differ
  rw [List.forall_mem_cons]
  refine ⟨less, fun file member => ?_⟩
  exact lt_of_lt_of_le less (language_le ((List.pairwise_cons.mp others).1 file member))

/-- In sorted files, a file of a smaller language than one of them stands before it. -/
theorem Sorted.mem_front {front back : List LocaleFile} {one file : LocaleFile}
    (sorted : Sorted (front ++ one :: back)) (member : file ∈ front ++ one :: back)
    (less : file.language < one.language) : file ∈ front := by
  obtain ⟨_, behind, _⟩ := List.pairwise_append.mp sorted
  rcases List.mem_append.mp member with before | later
  · exact before
  · rcases List.mem_cons.mp later with rfl | last
    · exact absurd less (lt_irrefl _)
    · exact absurd less (not_lt.mpr (language_le ((List.pairwise_cons.mp behind).1 file last)))

/-- Where languages increase up to one, a file of the same language does not stand before it. -/
theorem Increasing.mem_behind {front back : List LocaleFile} {one file : LocaleFile}
    (increasing : Increasing (front ++ [one])) (member : file ∈ front ++ one :: back)
    (same : file.language = one.language) : file ∈ one :: back := by
  obtain ⟨_, _, below⟩ := List.pairwise_append.mp increasing
  rcases List.mem_append.mp member with before | later
  · exact absurd same (below file before one List.mem_cons_self).ne
  · exact later

theorem increasing_of_clash?_eq_none {files : List LocaleFile} (sorted : Sorted files)
    (none : clash? files = none) : Increasing files := by
  induction files with
  | nil => exact List.Pairwise.nil
  | cons first rest ih =>
      cases rest with
      | nil => exact List.pairwise_singleton _ _
      | cons second rest =>
          rw [clash?] at none
          split at none
          · cases none
          · rename_i differ
            exact List.pairwise_cons.mpr ⟨language_lt_of_ne sorted differ, ih sorted.of_cons none⟩

/-- The files of a clash are next to each other, and before them every language is greater than those
before it. -/
theorem split_of_clash?_eq_some {files : List LocaleFile} {one other : LocaleFile}
    (sorted : Sorted files) (found : clash? files = some (one, other)) :
    ∃ front back, files = front ++ one :: other :: back ∧ one.language = other.language ∧
      Increasing (front ++ [one]) := by
  induction files with
  | nil => cases found
  | cons first rest ih =>
      cases rest with
      | nil => cases found
      | cons second rest =>
          rw [clash?] at found
          split at found
          · rename_i same
            cases found
            exact ⟨[], rest, rfl, same, List.pairwise_singleton _ _⟩
          · rename_i differ
            obtain ⟨front, back, split, same, increasing⟩ := ih sorted.of_cons found
            refine ⟨first :: front, back, by rw [split]; rfl, same, ?_⟩
            refine List.pairwise_cons.mpr ⟨fun file member => ?_, increasing⟩
            apply language_lt_of_ne sorted differ
            rw [split, List.append_cons]
            exact List.mem_append_left _ member

/-! ## Discovery -/

/-- The two files that tell of duplicates: of the smallest language that has two files, the first two
in the order of paths. -/
structure IsFirstClash (directory : Path) (listing : List DirectoryEntry) (one other : LocaleFile) :
    Prop where
  held : Holds directory listing one
  otherHeld : Holds directory listing other
  differ : one ≠ other
  same : one.language = other.language
  smallest : ∀ language, Duplicated directory listing language → one.language ≤ language
  ordered : one.path.Before other.path
  next : ∀ file, Holds directory listing file → file.language = one.language →
    file = one ∨ file = other ∨ other.path.Before file.path

/-- How the search in a directory ends: with all files in the order of their languages when every
language has one, and otherwise with the first clash. -/
inductive Discovers (directory : Path) (listing : List DirectoryEntry) :
    Except SourceError (List LocaleFile) → Prop
  | files {files : List LocaleFile} (apart : ∀ language, ¬ Duplicated directory listing language)
      (increasing : Increasing files) (exactly : ∀ file, file ∈ files ↔ Holds directory listing file) :
      Discovers directory listing (.ok files)
  | clash {one other : LocaleFile} (first : IsFirstClash directory listing one other) :
      Discovers directory listing (.error (.duplicateLocale one.language one.path other.path))

section

variable {directory : Path} {listing : List DirectoryEntry}

/-- The files that a directory holds, in the order of sorting. -/
def sortedFiles (directory : Path) (listing : List DirectoryEntry) : List LocaleFile :=
  (listing.filterMap (ofListed? directory)).mergeSort precedes

theorem ofListing_eq :
    ofListing directory listing =
      match clash? (sortedFiles directory listing) with
      | some (first, second) =>
          .error (.duplicateLocale first.language first.path second.path)
      | none => .ok (sortedFiles directory listing) :=
  rfl

/-- Files that are listed in the order of sorting stay in it. -/
theorem sortedFiles_of_sorted (sorted : Sorted (listing.filterMap (ofListed? directory))) :
    sortedFiles directory listing = listing.filterMap (ofListed? directory) :=
  List.mergeSort_of_pairwise sorted

theorem sorted_sortedFiles : Sorted (sortedFiles directory listing) :=
  List.pairwise_mergeSort precedes_trans precedes_total _

variable (isDirectory : IsDirectory listing)

include isDirectory

theorem mem_sortedFiles_iff {file : LocaleFile} :
    file ∈ sortedFiles directory listing ↔ Holds directory listing file := by
  rw [sortedFiles, List.mem_mergeSort, mem_listed_iff isDirectory]

theorem nodup_sortedFiles : (sortedFiles directory listing).Nodup :=
  (List.mergeSort_perm _ _).nodup_iff.mpr (nodup_listed isDirectory)

/-- Another order of the listing gives the same sorted files. -/
theorem sortedFiles_perm {relisted : List DirectoryEntry} (same : listing.Perm relisted) :
    sortedFiles directory listing = sortedFiles directory relisted := by
  have perm : (sortedFiles directory listing).Perm (sortedFiles directory relisted) :=
    (List.mergeSort_perm _ _).trans
      ((same.filterMap _).trans (List.mergeSort_perm _ _).symm)
  refine perm.eq_of_pairwise (fun one other member otherMember before behind => ?_)
    sorted_sortedFiles sorted_sortedFiles
  have held := (mem_sortedFiles_iff isDirectory).mp member
  have otherHeld := (mem_sortedFiles_iff isDirectory).mp (perm.mem_iff.mpr otherMember)
  exact eq_of_path_eq isDirectory held otherHeld (path_eq_of_precedes before behind)

theorem ofListing_perm {relisted : List DirectoryEntry} (same : listing.Perm relisted) :
    ofListing directory listing = ofListing directory relisted := by
  rw [ofListing_eq, ofListing_eq, sortedFiles_perm isDirectory same]

/-- The first two files of one language that are side by side are the first clash. -/
theorem isFirstClash_of_split {front back : List LocaleFile} {one other : LocaleFile}
    (split : sortedFiles directory listing = front ++ one :: other :: back)
    (same : one.language = other.language) (increasing : Increasing (front ++ [one])) :
    IsFirstClash directory listing one other := by
  have mem_iff (file : LocaleFile) :
      file ∈ sortedFiles directory listing ↔ Holds directory listing file :=
    mem_sortedFiles_iff isDirectory
  have sorted : Sorted (sortedFiles directory listing) := sorted_sortedFiles
  have nodup : (sortedFiles directory listing).Nodup := nodup_sortedFiles isDirectory
  rw [split] at mem_iff sorted nodup
  have held := (mem_iff one).mp (List.mem_append_right _ List.mem_cons_self)
  have otherHeld := (mem_iff other).mp
    (List.mem_append_right _ (List.mem_cons_of_mem _ List.mem_cons_self))
  obtain ⟨behindOne, sortedOther⟩ := List.pairwise_cons.mp (List.pairwise_append.mp sorted).2.1
  obtain ⟨absent, nodupOther⟩ := List.nodup_cons.mp (List.nodup_append.mp nodup).2.1
  have differ : one ≠ other := fun equal => absent (equal ▸ List.mem_cons_self)
  refine ⟨held, otherHeld, differ, same, ?_, ?_, ?_⟩
  · rintro language ⟨first, second, firstHeld, secondHeld, apart, rfl, alike⟩
    rw [← not_lt]
    intro less
    -- both files stand before the clash, where no language comes twice
    have firstInFront := sorted.mem_front ((mem_iff first).mpr firstHeld) less
    have secondInFront := sorted.mem_front ((mem_iff second).mpr secondHeld) (alike ▸ less)
    have inFront : Increasing front := (List.pairwise_append.mp increasing).1
    exact apart (inFront.eq_of_language firstInFront secondInFront alike.symm)
  · exact before_of_precedes isDirectory held otherHeld differ same
      (behindOne other List.mem_cons_self)
  · intro file fileHeld language
    rcases List.mem_cons.mp (increasing.mem_behind ((mem_iff file).mpr fileHeld) language) with
      isOne | later
    · exact Or.inl isOne
    · rcases List.mem_cons.mp later with isOther | last
      · exact Or.inr (Or.inl isOther)
      · refine Or.inr (Or.inr ?_)
        refine before_of_precedes isDirectory otherHeld fileHeld ?_ (same.symm.trans language.symm)
          ((List.pairwise_cons.mp sortedOther).1 file last)
        rintro rfl
        exact (List.nodup_cons.mp nodupOther).1 last

/-- The search in a directory finds all its files, or the first clash. -/
theorem discovers_ofListing : Discovers directory listing (ofListing directory listing) := by
  have mem_iff (file : LocaleFile) :
      file ∈ sortedFiles directory listing ↔ Holds directory listing file :=
    mem_sortedFiles_iff isDirectory
  rw [ofListing_eq]
  split
  · rename_i one other found
    obtain ⟨front, back, split, same, increasing⟩ := split_of_clash?_eq_some sorted_sortedFiles found
    exact Discovers.clash (isFirstClash_of_split isDirectory split same increasing)
  · rename_i none
    have increasing := increasing_of_clash?_eq_none sorted_sortedFiles none
    refine Discovers.files ?_ increasing mem_iff
    rintro language ⟨one, other, held, otherHeld, differ, rfl, same⟩
    exact differ (increasing.eq_of_language ((mem_iff one).mpr held) ((mem_iff other).mpr otherHeld)
      same.symm)

/-- Files are found just if every language has one at most. -/
theorem ofListing_eq_ok_iff :
    (∃ files, ofListing directory listing = .ok files) ↔
      ∀ language, ¬ Duplicated directory listing language := by
  have discovers : Discovers directory listing (ofListing directory listing) :=
    discovers_ofListing isDirectory
  generalize ofListing directory listing = outcome at discovers
  cases discovers with
  | files apart => exact iff_of_true ⟨_, rfl⟩ apart
  | @clash one other first =>
      refine iff_of_false nofun fun apart => apart one.language ?_
      exact ⟨one, other, first.held, first.otherHeld, first.differ, rfl, first.same.symm⟩

end

end LocaleFile

end Phrasebook
