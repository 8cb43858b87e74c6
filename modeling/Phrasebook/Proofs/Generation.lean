import Phrasebook.Proofs.Emission.Layout
import Phrasebook.Proofs.Pipeline
import Phrasebook.Proofs.Writing

/-!
# Generation on a disk

All that can fail but the disk itself fails before the first file is written. A plan says which files
there are and what they hold; a dry run shows just these, and a run that succeeds leaves them on the
disk and changes no other file. A second run then finds all of them as they should be.
-/

namespace Phrasebook

namespace Project

/-- What the generation for documents gives on a disk, and what becomes of the disk. -/
def generateOn (project : Project) (documents : List (Named Document)) (isDryRun : Bool)
    (disk : Disk) : Except Failure Generation × Disk :=
  (project.generate documents isDryRun : StateM Disk (Except Failure Generation)).run disk

variable {project : Project} {documents : List (Named Document)} {plan : GenerationPlan}

theorem generateOn_eq (project : Project) (documents : List (Named Document)) (isDryRun : Bool)
    (disk : Disk) :
    project.generateOn documents isDryRun disk =
      match project.plan documents with
      | .error failure => (.error failure, disk)
      | .ok plan =>
          if isDryRun then (.ok ⟨plan, .preview plan.files⟩, disk)
          else match OutputFile.writeAllOn plan.files disk with
            | (.error failure, after) => (.error failure, after)
            | (.ok files, after) => (.ok ⟨plan, .written files⟩, after) := by
  rw [generateOn, generate]
  cases project.plan documents with
  | error failure => rfl
  | ok plan =>
      cases isDryRun with
      | true => rfl
      | false =>
          have written : (OutputFile.writeAll plan.files :
              StateM Disk (Except Failure (List (Path × WriteResult)))).run disk =
              OutputFile.writeAllOn plan.files disk :=
            rfl
          dsimp only
          rw [if_neg Bool.false_ne_true, if_neg Bool.false_ne_true, run_andThen, written]
          rcases OutputFile.writeAllOn plan.files disk with ⟨_ | files, after⟩
          · rfl
          · rfl

/-- No two files of a plan ever lie at the same place. -/
theorem plan_apart (planned : project.plan documents = .ok plan)
    (noSeparator : ∀ document ∈ documents, '/' ∉ document.name.toList) :
    (plan.files.map OutputFile.path).Pairwise Disk.Apart := by
  rw [Project.plan, analyzeTimed_eq] at planned
  split at planned
  · cases planned
  · rename_i schema accepted
    dsimp only at planned
    split at planned
    · cases planned
    · split at planned
      · cases planned
      · rename_i files shown
        cases planned
        obtain ⟨names, nodup⟩ := languageNames_of_analyze accepted
        refine Emission.preview_apart shown nodup ?_
        rw [names, List.forall_mem_map]
        exact noSeparator

/-- A dry run leaves the disk as it is. -/
theorem disk_of_dry_run (project : Project) (documents : List (Named Document)) (disk : Disk) :
    (project.generateOn documents true disk).2 = disk := by
  rw [generateOn_eq]
  cases project.plan documents with
  | error failure => rfl
  | ok plan => rfl

/-- Unless it is the disk that fails, a failed generation leaves it as it is. -/
theorem disk_of_failure {isDryRun : Bool} {disk after : Disk} {failure : Failure}
    (outcome : project.generateOn documents isDryRun disk = (.error failure, after))
    (otherwise : ¬failure.IsOfDisk) : after = disk := by
  rw [generateOn_eq] at outcome
  cases planned : project.plan documents with
  | error early =>
      rw [planned] at outcome
      cases outcome
      rfl
  | ok plan =>
      rw [planned] at outcome
      dsimp only at outcome
      split at outcome
      · cases outcome
      · split at outcome
        · rename_i wrote
          cases outcome
          exact absurd (OutputFile.writeAllOn_eq_error wrote) otherwise
        · cases outcome

/-- A run that succeeds has planned what it wrote. -/
theorem written_of_generateOn {disk after : Disk} {generation : Generation}
    (outcome : project.generateOn documents false disk = (.ok generation, after)) :
    ∃ plan results, project.plan documents = .ok plan ∧ generation = ⟨plan, .written results⟩ ∧
      OutputFile.writeAllOn plan.files disk = (.ok results, after) := by
  rw [generateOn_eq] at outcome
  cases planned : project.plan documents with
  | error early =>
      rw [planned] at outcome
      cases outcome
  | ok plan =>
      rw [planned] at outcome
      dsimp only at outcome
      rw [if_neg Bool.false_ne_true] at outcome
      split at outcome
      · cases outcome
      · rename_i wrote
        cases outcome
        exact ⟨plan, _, rfl, rfl, wrote⟩

/-- Generation is all or nothing, up to the disk. A failure that is not one of the disk leaves it as
it is, and so does a dry run. When a dry run and a run both succeed, the run reports the files that
the dry run shows, in order; afterwards each of their paths leads to a file with just what was
shown, and no file at another place has changed. -/
theorem generate_all_or_nothing (project : Project) (documents : List (Named Document)) (disk : Disk) :
    (∀ isDryRun failure after,
      project.generateOn documents isDryRun disk = (.error failure, after) →
      ¬failure.IsOfDisk → after = disk) ∧
    (project.generateOn documents true disk).2 = disk ∧
    ((∀ document ∈ documents, '/' ∉ document.name.toList) → ∀ shown shownDisk generation after,
      project.generateOn documents true disk = (.ok shown, shownDisk) →
      project.generateOn documents false disk = (.ok generation, after) →
      ∃ files results, shown.result = .preview files ∧ generation.result = .written results ∧
        results.map Prod.fst = files.map OutputFile.path ∧
        (∀ file ∈ files, after.readText? file.path = some file.content) ∧
        ∀ location, (∀ file ∈ files, after.locate? file.path ≠ some location) →
          after.contentAt location = disk.contentAt location) := by
  refine ⟨fun _ _ _ outcome otherwise => disk_of_failure outcome otherwise,
    disk_of_dry_run project documents disk, ?_⟩
  intro noSeparator shown shownDisk generation after showed generated
  obtain ⟨plan, results, planned, rfl, wrote⟩ := written_of_generateOn generated
  rw [generateOn_eq, planned] at showed
  cases showed
  obtain ⟨paths, present, keeps⟩ := OutputFile.writeAllOn_eq_ok (plan_apart planned noSeparator) wrote
  refine ⟨plan.files, results, rfl, rfl, paths, present, fun location elsewhere => ?_⟩
  refine keeps.content location ?_
  rintro ⟨file, member, leads⟩
  exact elsewhere file member leads

/-! ### A project on an empty disk -/

/-- A project with units of their own, whose main unit is written with idle pieces. -/
def lazyProject : Project where
  manifest := { isLazy := true }
  locales := ⟨"locales"⟩
  output := ⟨"./src//i18n.ts"⟩

/-- A project that starts with a language that nobody has. -/
def foreignProject : Project :=
  { lazyProject with manifest := { isLazy := true, defaultLanguage := some "fr" } }

def medalFiles (main unit : String) : List OutputFile :=
  [⟨⟨"./src//i18n.ts"⟩, main⟩, ⟨⟨"./src/zh.ts"⟩, unit⟩]

def emptyDisk : Disk :=
  Disk.ofWorkdir "work"

def sourceDisk : Disk where
  entries := [([.text "src", .text "work"], .directory), ([.text "work"], .directory)]
  workdir := [.text "work"]

def mainDisk (main : String) : Disk where
  entries :=
    [([.text "i18n.ts", .text "src", .text "work"], .file (.text main)),
     ([.text "src", .text "work"], .directory), ([.text "work"], .directory)]
  workdir := [.text "work"]

def medalDisk (main unit : String) : Disk where
  entries :=
    [([.text "zh.ts", .text "src", .text "work"], .file (.text unit)),
     ([.text "i18n.ts", .text "src", .text "work"], .file (.text main)),
     ([.text "src", .text "work"], .directory), ([.text "work"], .directory)]
  workdir := [.text "work"]

theorem plan_medals :
    ∃ plan main unit, lazyProject.plan medals = .ok plan ∧ plan.defaultLanguage = "en" ∧
      plan.files = medalFiles main unit := by
  obtain ⟨main, unit, shown⟩ : ∃ main unit,
      Emission.preview medalSchema lazyProject.options lazyProject.output =
        .ok (medalFiles main unit) :=
    ⟨_, _, rfl⟩
  rw [Project.plan, analyzeTimed_eq, analyze_medals]
  dsimp only
  rw [shown]
  exact ⟨_, main, unit, rfl, rfl, rfl⟩

/-- The first file makes the directory, in which the second one is put. -/
theorem write_medalFiles (main unit : String) :
    OutputFile.writeAllOn (medalFiles main unit) emptyDisk =
      (.ok [(⟨"./src//i18n.ts"⟩, .written), (⟨"./src/zh.ts"⟩, .written)], medalDisk main unit) := by
  have made : emptyDisk.makeDirectory ⟨"./src"⟩ = (true, sourceDisk) := rfl
  have there : (mainDisk main).makeDirectory ⟨"./src"⟩ = (true, mainDisk main) := rfl
  have mainWritten : OutputFile.writeOn ⟨⟨"./src//i18n.ts"⟩, main⟩ emptyDisk =
      (.ok .written, mainDisk main) :=
    OutputFile.writeOn_of_missing rfl rfl made rfl
  have unitWritten : OutputFile.writeOn ⟨⟨"./src/zh.ts"⟩, unit⟩ (mainDisk main) =
      (.ok .written, medalDisk main unit) :=
    OutputFile.writeOn_of_missing rfl rfl there rfl
  rw [medalFiles, OutputFile.writeAllOn_cons, mainWritten]
  dsimp only
  rw [OutputFile.writeAllOn_cons, unitWritten]
  rfl

/-- The two units are planned, and written into a directory that is made for them. -/
theorem run_medals :
    ∃ plan main unit, plan.files = medalFiles main unit ∧
      lazyProject.generateOn medals true emptyDisk = (.ok ⟨plan, .preview plan.files⟩, emptyDisk) ∧
      lazyProject.generateOn medals false emptyDisk =
        (.ok ⟨plan, .written [(⟨"./src//i18n.ts"⟩, .written), (⟨"./src/zh.ts"⟩, .written)]⟩,
          medalDisk main unit) := by
  obtain ⟨plan, main, unit, planned, _, files⟩ := plan_medals
  refine ⟨plan, main, unit, files, ?_, ?_⟩
  · rw [generateOn_eq, planned]
    rfl
  · rw [generateOn_eq, planned]
    dsimp only
    rw [if_neg Bool.false_ne_true, files, write_medalFiles]

theorem separator_not_mem_medals : ∀ document ∈ medals, '/' ∉ document.name.toList := by
  decide

/-- Without the language to start with the disk stays empty. With it, the two units that are shown
are there. -/
theorem generate_medals_or_nothing :
    (∃ failure after, foreignProject.generateOn medals false emptyDisk = (.error failure, after) ∧
      ¬failure.IsOfDisk ∧ after = emptyDisk) ∧
    (∀ document ∈ medals, '/' ∉ document.name.toList) ∧
    ∃ shown generation after,
      lazyProject.generateOn medals true emptyDisk = (.ok shown, emptyDisk) ∧
      lazyProject.generateOn medals false emptyDisk = (.ok generation, after) ∧
      ∃ files results, shown.result = .preview files ∧ generation.result = .written results ∧
        results.map Prod.fst = files.map OutputFile.path ∧
        (∀ file ∈ files, after.readText? file.path = some file.content) ∧
        ∀ location, (∀ file ∈ files, after.locate? file.path ≠ some location) →
          after.contentAt location = emptyDisk.contentAt location := by
  have foreign : foreignProject.generateOn medals false emptyDisk =
      (.error (.unknownDefaultLanguage "fr"), emptyDisk) := by
    rw [generateOn_eq, Project.plan, analyzeTimed_eq, analyze_medals]
    rfl
  obtain ⟨failed, _⟩ := generate_all_or_nothing foreignProject medals emptyDisk
  obtain ⟨plan, main, unit, _, showed, ran⟩ := run_medals
  obtain ⟨_, _, both⟩ := generate_all_or_nothing lazyProject medals emptyDisk
  exact ⟨⟨_, _, foreign, id, failed _ _ _ foreign id⟩, separator_not_mem_medals, _, _, _, showed, ran,
    both separator_not_mem_medals _ _ _ _ showed ran⟩

/-- A run after a run finds every file as it should be: it succeeds with the same plan, reports every
file as unchanged, and leaves the disk exactly as it was. -/
theorem generate_again {disk after : Disk} {generation : Generation}
    (noSeparator : ∀ document ∈ documents, '/' ∉ document.name.toList)
    (outcome : project.generateOn documents false disk = (.ok generation, after)) :
    ∃ results, generation.result = .written results ∧
      project.generateOn documents false after =
        (.ok ⟨generation.plan, .written (results.map fun (path, _) => (path, .unchanged))⟩, after) := by
  obtain ⟨plan, results, planned, rfl, wrote⟩ := written_of_generateOn outcome
  obtain ⟨paths, present, _⟩ := OutputFile.writeAllOn_eq_ok (plan_apart planned noSeparator) wrote
  have unchanged : (results.map fun (path, _) => (path, WriteResult.unchanged)) =
      plan.files.map fun file => (file.path, WriteResult.unchanged) := by
    have paired := congrArg (List.map fun path => (path, WriteResult.unchanged)) paths
    rwa [List.map_map, List.map_map] at paired
  refine ⟨results, rfl, ?_⟩
  rw [generateOn_eq, planned]
  dsimp only
  rw [if_neg Bool.false_ne_true, OutputFile.writeAllOn_of_same present, unchanged]

/-- The second run leaves both units alone. -/
theorem generate_medals_again :
    (∀ document ∈ medals, '/' ∉ document.name.toList) ∧
      ∃ generation after, lazyProject.generateOn medals false emptyDisk = (.ok generation, after) ∧
        ∃ results, generation.result = .written results ∧
          lazyProject.generateOn medals false after =
            (.ok ⟨generation.plan, .written (results.map fun (path, _) => (path, .unchanged))⟩,
              after) := by
  obtain ⟨plan, main, unit, _, _, ran⟩ := run_medals
  exact ⟨separator_not_mem_medals, _, _, ran, generate_again separator_not_mem_medals ran⟩

end Project

end Phrasebook
