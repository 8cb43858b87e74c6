import Mathlib.Data.List.Forall2
import Phrasebook.Emission.Unit
import Phrasebook.Proofs.Disk
import Phrasebook.Proofs.Failure

/-!
# Where units lie

The units of an artifact lie beside the main one under the names of their languages. Languages have
different names, and a unit that would lie at the path of the main one is refused, so no two files
of an artifact ever lie at the same place of a disk.
-/

namespace Phrasebook

open Phrasebook.Path

/-! ## Names of units -/

/-- A unit is named after its language, with an extension. -/
def unitName (language extension : String) : String :=
  language ++ "." ++ extension

theorem toList_unitName (language extension : String) :
    (unitName language extension).toList = language.toList ++ '.' :: extension.toList := by
  rw [unitName, String.toList_append, String.toList_append, List.append_assoc]
  rfl

/-- The name of a unit is that of a file: behind the dot stands more than dots. -/
theorem unitName_isFileName {language extension : String} (noSeparator : '/' ∉ language.toList)
    (plain : '/' ∉ extension.toList) (visible : ∃ c ∈ extension.toList, c ≠ '.') :
    IsFileName (unitName language extension) := by
  obtain ⟨c, member, noDot⟩ := visible
  have different (piece : List Char) (dots : ∀ other ∈ piece, other = '.') :
      (unitName language extension).toList ≠ piece := by
    intro same
    refine noDot (dots c ?_)
    rw [← same, toList_unitName]
    exact List.mem_append_right _ (List.mem_cons_of_mem _ member)
  have notEmpty := different [] nofun
  have notDot := different ['.'] (by simp)
  refine ⟨?_, by simp [isIdle, notEmpty, notDot], different ['.', '.'] (by simp)⟩
  rw [toList_unitName, List.mem_append, List.mem_cons, not_or, not_or]
  exact ⟨noSeparator, by decide, plain⟩

theorem unitName_injective {one other extension : String}
    (same : unitName one extension = unitName other extension) : one = other := by
  have chars := congrArg String.toList same
  rw [toList_unitName, toList_unitName] at chars
  exact String.toList_injective (List.append_cancel_right chars)

/-! ## Files of an artifact -/

namespace Artifact

/-- The files of other units have their paths and contents, and none has the path of the main one. -/
theorem unitFiles_eq_ok {main directory : Path} {extension : String} {units : List (Named String)}
    {files : List OutputFile} (laid : unitFiles main directory extension units = .ok files) :
    files = units.map (fun unit => ⟨unitPath directory extension unit, unit.value⟩) ∧
      ∀ unit ∈ units, (unitPath directory extension unit).same main = false := by
  induction units generalizing files with
  | nil =>
      cases laid
      exact ⟨rfl, nofun⟩
  | cons first rest ih =>
      rw [unitFiles] at laid
      split at laid
      · cases laid
      · rename_i different
        obtain ⟨found, others, rfl⟩ := ok_of_map_eq_ok laid
        obtain ⟨rfl, apart⟩ := ih others
        rw [List.forall_mem_cons]
        exact ⟨rfl, Bool.not_eq_true _ ▸ different, apart⟩

/-- Laying out fails by the first unit that would lie at the path of the main one. -/
theorem unitFiles_eq_error {main directory : Path} {extension : String} {units : List (Named String)}
    {failure : Failure} (failed : unitFiles main directory extension units = .error failure) :
    ∃ front unit back, units = front ++ unit :: back ∧
      (∀ earlier ∈ front, (unitPath directory extension earlier).same main = false) ∧
      (unitPath directory extension unit).same main = true ∧
      failure = .unitCollision unit.name (unitPath directory extension unit).text := by
  induction units with
  | nil => cases failed
  | cons first rest ih =>
      rw [unitFiles] at failed
      split at failed
      · rename_i same
        cases failed
        exact ⟨[], first, rest, rfl, nofun, same, rfl⟩
      · rename_i different
        obtain ⟨front, unit, back, rfl, before, same, cause⟩ := ih (map_eq_error_iff.mp failed)
        refine ⟨first :: front, unit, back, rfl, ?_, same, cause⟩
        rw [List.forall_mem_cons]
        exact ⟨Bool.not_eq_true _ ▸ different, before⟩

/-- No two files of an artifact ever lie at the same place. -/
theorem files_apart {artifact : Artifact} {main : Path} {extension : String} {files : List OutputFile}
    (laid : artifact.files main extension = .ok files)
    (names : (artifact.others.map Named.name).Nodup)
    (noSeparator : ∀ unit ∈ artifact.others, '/' ∉ unit.name.toList)
    (plain : '/' ∉ extension.toList) (visible : ∃ c ∈ extension.toList, c ≠ '.') :
    (files.map OutputFile.path).Pairwise Disk.Apart := by
  cases artifact with
  | single content =>
      cases laid
      exact List.pairwise_singleton _ _
  | split content units =>
      rw [Artifact.files] at laid
      obtain ⟨found, others, rfl⟩ := ok_of_map_eq_ok laid
      obtain ⟨rfl, different⟩ := unitFiles_eq_ok others
      have isName {unit : Named String} (member : unit ∈ units) :
          IsFileName (unitName unit.name extension) :=
        unitName_isFileName (noSeparator unit member) plain visible
      rw [List.map_cons, List.pairwise_cons, List.map_map, List.forall_mem_map, List.pairwise_map]
      constructor
      · exact fun unit member => Disk.apart_beside (isName member) (different unit member)
      · rw [Artifact.others, List.Nodup, List.pairwise_map] at names
        refine names.imp_of_mem fun {unit other} member otherMember differ => ?_
        exact Disk.beside_apart (isName member) (isName otherMember)
          fun same => differ (unitName_injective same)

/-- The file of a unit: the content of the unit, under its name, in the directory of the main file. -/
structure IsFileOf (main : Path) (extension : String) (unit : Named String) (file : OutputFile) :
    Prop where
  content : file.content = unit.value
  name : file.path.fileName? = some (unitName unit.name extension).toList
  directory : ∃ parent, file.path.parent? = some parent ∧ parent.same (main.parent?.getD ⟨""⟩) = true

/-- Whether the file of a unit has the name of the main file. -/
def Collides (main : Path) (extension : String) (unit : Named String) : Prop :=
  main.fileName? = some (unitName unit.name extension).toList

/-- A failure that tells of the first unit whose file has the name of the main file, with its path,
which is that of the main file. -/
def TellsCollision (main : Path) (extension : String) (units : List (Named String))
    (failure : Failure) : Prop :=
  ∃ front unit back, units = front ++ unit :: back ∧
    (∀ earlier ∈ front, ¬ Collides main extension earlier) ∧ Collides main extension unit ∧
    failure = .unitCollision unit.name (main.beside (unitName unit.name extension)).text ∧
    (main.beside (unitName unit.name extension)).same main = true

theorem fileNames_of_filesOf {main : Path} {extension : String} {units : List (Named String)}
    {others : List OutputFile} (each : List.Forall₂ (IsFileOf main extension) units others) :
    others.map (fun file => file.path.fileName?) =
      units.map fun unit => some (unitName unit.name extension).toList := by
  induction each with
  | nil => rfl
  | cons first _ ih => rw [List.map_cons, List.map_cons, first.name, ih]

/-- Files of different units have different paths, and none has the path of the main file unless its
unit collides. -/
theorem paths_of_filesOf {main : Path} {extension : String} {units : List (Named String)}
    {others : List OutputFile} (names : (units.map Named.name).Nodup)
    (apart : ∀ unit ∈ units, ¬ Collides main extension unit)
    (each : List.Forall₂ (IsFileOf main extension) units others) (code : String) :
    ((⟨main, code⟩ :: others : List OutputFile).map OutputFile.path).Pairwise fun one other =>
      one.same other = false := by
  have fileNames := fileNames_of_filesOf each
  have distinct : (others.map fun file => file.path.fileName?).Nodup := by
    rw [fileNames, List.Nodup, List.pairwise_map]
    rw [List.Nodup, List.pairwise_map] at names
    refine names.imp fun {unit other} differ same => differ ?_
    exact unitName_injective (String.toList_injective (Option.some.inj same))
  rw [List.map_cons, List.pairwise_cons, List.forall_mem_map, List.pairwise_map]
  constructor
  · intro file member
    rw [Bool.eq_false_iff]
    intro same
    have listed : file.path.fileName? ∈ others.map fun file => file.path.fileName? :=
      List.mem_map_of_mem member
    rw [fileNames, List.mem_map] at listed
    obtain ⟨unit, unitMember, named⟩ := listed
    exact apart unit unitMember ((fileName?_congr same).trans named.symm)
  · rw [List.Nodup, List.pairwise_map] at distinct
    refine distinct.imp fun {file other} differ => ?_
    rw [Bool.eq_false_iff]
    exact fun same => differ (fileName?_congr same)

section

variable {main : Path} {extension code : String} {units : List (Named String)}
  (noSeparator : ∀ unit ∈ units, '/' ∉ unit.name.toList) (plain : '/' ∉ extension.toList)
  (visible : ∃ c ∈ extension.toList, c ≠ '.')

include noSeparator plain visible

/-- A unit lies at the path of the main one just if its file has the same name. -/
theorem same_main_iff {unit : Named String} (member : unit ∈ units) :
    (unitPath (main.parent?.getD ⟨""⟩) extension unit).same main = true ↔
      Collides main extension unit :=
  same_beside_iff (unitName_isFileName (noSeparator unit member) plain visible)

theorem tellsCollision_of_files {failure : Failure}
    (failed : (Artifact.split code units).files main extension = .error failure) :
    TellsCollision main extension units failure := by
  obtain ⟨front, unit, back, split, before, same, cause⟩ :=
    unitFiles_eq_error (map_eq_error_iff.mp failed)
  have collides_iff {unit : Named String} (member : unit ∈ units) :
      (unitPath (main.parent?.getD ⟨""⟩) extension unit).same main = true ↔
        Collides main extension unit :=
    same_main_iff noSeparator plain visible member
  have member : unit ∈ units := by
    rw [split]
    exact List.mem_append_right _ List.mem_cons_self
  refine ⟨front, unit, back, split, fun earlier listed collides => ?_, (collides_iff member).mp same,
    cause, same⟩
  have earlierMember : earlier ∈ units := by
    rw [split]
    exact List.mem_append_left _ listed
  rw [← collides_iff earlierMember, before earlier listed] at collides
  cases collides

/-- Files that were laid out are those of the units, and no unit collides with the main file. -/
theorem filesOf_of_files {files : List OutputFile}
    (laid : (Artifact.split code units).files main extension = .ok files) :
    (∀ unit ∈ units, ¬ Collides main extension unit) ∧
      ∃ others, files = ⟨main, code⟩ :: others ∧
        List.Forall₂ (IsFileOf main extension) units others := by
  obtain ⟨others, behind, rfl⟩ := ok_of_map_eq_ok laid
  obtain ⟨rfl, different⟩ := unitFiles_eq_ok behind
  refine ⟨fun unit member collides => ?_, _, rfl, ?_⟩
  · rw [← same_main_iff noSeparator plain visible member, different unit member] at collides
    cases collides
  · rw [List.forall₂_map_right_iff, List.forall₂_same]
    intro unit member
    have isName := unitName_isFileName (noSeparator unit member) plain visible
    exact ⟨rfl, fileName?_join _ isName, parent?_join _ isName⟩

/-- Artifacts of several units are laid out unless the file of a unit has the name of the main file.
Then the first such unit is told with its path, which is that of the main file. Otherwise the main
file comes first, then the files of the units follow in their order, and all have different paths. -/
theorem split_files (names : (units.map Named.name).Nodup) :
    ((∃ failure, (Artifact.split code units).files main extension = .error failure) ↔
      ∃ unit ∈ units, Collides main extension unit) ∧
    (∀ failure, (Artifact.split code units).files main extension = .error failure →
      TellsCollision main extension units failure) ∧
    ∀ files, (Artifact.split code units).files main extension = .ok files →
      ∃ others, files = ⟨main, code⟩ :: others ∧ List.Forall₂ (IsFileOf main extension) units others ∧
        (files.map OutputFile.path).Pairwise fun one other => one.same other = false := by
  refine ⟨⟨?_, ?_⟩, fun failure => tellsCollision_of_files noSeparator plain visible,
    fun files laid => ?_⟩
  · rintro ⟨failure, failed⟩
    obtain ⟨front, unit, back, rfl, _, collides, _⟩ :=
      tellsCollision_of_files noSeparator plain visible failed
    exact ⟨unit, List.mem_append_right _ List.mem_cons_self, collides⟩
  · rintro ⟨unit, member, collides⟩
    cases outcome : (Artifact.split code units).files main extension with
    | error failure => exact ⟨failure, rfl⟩
    | ok files =>
        exact absurd collides ((filesOf_of_files noSeparator plain visible outcome).1 unit member)
  · obtain ⟨apart, others, rfl, each⟩ := filesOf_of_files noSeparator plain visible laid
    exact ⟨others, rfl, each, paths_of_filesOf names apart each code⟩

end

/-- A main file whose path was written with idle pieces. -/
def windingMain : Path := ⟨"src/.//i18n.ts/"⟩

/-- Units of a language of two dots, of one that is named like the main file, and of one more. -/
def crowdedUnits : List (Named String) :=
  [⟨"..", "up"⟩, ⟨"i18n", "own"⟩, ⟨"zh", "late"⟩]

/-- Beside the winding main file the language of its name is refused, and without this language the
three files lie apart. -/
theorem split_files_winding :
    TellsCollision windingMain "ts" crowdedUnits (.unitCollision "i18n" "src/i18n.ts") ∧
      ([windingMain, ⟨"src/...ts"⟩, ⟨"src/zh.ts"⟩] : List Path).Pairwise fun one other =>
        one.same other = false := by
  have visible : ∃ c ∈ "ts".toList, c ≠ '.' := ⟨'t', by decide, by decide⟩
  constructor
  · have refused : (Artifact.split "" crowdedUnits).files windingMain "ts" =
        .error (.unitCollision "i18n" "src/i18n.ts") := by decide
    exact (split_files (by decide) (by decide) visible (by decide)).2.1 _ refused
  · have laid : (Artifact.split "" (crowdedUnits.eraseIdx 1)).files windingMain "ts" =
        .ok [⟨windingMain, ""⟩, ⟨⟨"src/...ts"⟩, "up"⟩, ⟨⟨"src/zh.ts"⟩, "late"⟩] := by decide
    obtain ⟨_, _, _, apart⟩ :=
      (split_files (by decide) (by decide) visible (by decide)).2.2 _ laid
    exact apart

end Artifact

/-! ## Units of languages -/

namespace Emission

variable {schema : Schema} {options : EmissionOptions}

/-- Units have the names of their languages. -/
theorem names_of_languageUnits {languages : List (Named Tree)} {units : List (Named String)}
    (written : languageUnits schema options languages = .ok units) :
    units.map Named.name = languages.map Named.name := by
  induction languages generalizing units with
  | nil =>
      cases written
      rfl
  | cons first rest ih =>
      rw [languageUnits] at written
      split at written
      · cases written
      · obtain ⟨others, behind, rfl⟩ := ok_of_map_eq_ok written
        rw [List.map_cons, List.map_cons, ih behind]

/-- The units that are generated beside the main one belong to languages of the schema. -/
theorem others_of_generate {artifact : Artifact} (outcome : generate schema options = .ok artifact) :
    (artifact.others.map Named.name).Sublist schema.languageNames := by
  rw [generate] at outcome
  split at outcome
  · cases outcome
  · split at outcome
    · cases outcome
    · rename_i default _
      split at outcome
      · cases outcome
      · dsimp only at outcome
        split at outcome
        · obtain ⟨units, written, rfl⟩ := ok_of_map_eq_ok outcome
          rw [Artifact.others, names_of_languageUnits written, separateLanguages]
          exact List.filter_sublist.map Named.name
        · cases outcome
          exact List.nil_sublist _

/-- No two files of generated code ever lie at the same place, if the names of the languages have no
separator and no name comes twice. -/
theorem preview_apart {main : Path} {files : List OutputFile}
    (shown : preview schema options main = .ok files) (nodup : schema.languageNames.Nodup)
    (noSeparator : ∀ name ∈ schema.languageNames, '/' ∉ name.toList) :
    (files.map OutputFile.path).Pairwise Disk.Apart := by
  rw [preview] at shown
  split at shown
  · cases shown
  · rename_i artifact outcome
    have names := others_of_generate outcome
    refine Artifact.files_apart shown (names.nodup nodup) ?_ (by decide) ⟨'t', by decide, by decide⟩
    exact fun unit member => noSeparator unit.name (names.subset (List.mem_map_of_mem member))

end Emission

end Phrasebook
