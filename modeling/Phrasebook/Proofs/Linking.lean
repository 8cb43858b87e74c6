import Phrasebook.Proofs.Emission.Imports
import Phrasebook.Proofs.Generation

/-!
# Imports lead from unit to unit

The files of a plan refer to each other by the names of modules beside them. These names are
made without looking at the paths of the files, from a prefix, the names of the languages and
the stem of the main file. Still every one of them leads to just one file of the plan: a loader
to the unit of its language, and the import of a language unit to the main unit.
-/

namespace Phrasebook

open Phrasebook.Path Script

/-! ## Files of modules -/

/-- The name of the file of a module. -/
def moduleFile (module : String) : String :=
  module ++ ".ts"

/-- The file of a language's unit, in the directory of the main unit. -/
def unitFile (main : Path) (unit : Named String) : OutputFile :=
  ⟨main.beside (moduleFile unit.name), unit.value⟩

/-- A specifier leads from a file to another one: it names a module in the directory of the first, and
among all files just the second lies at the path of this module. -/
def Resolves (files : List OutputFile) (origin : Path) (specifier : String) (target : OutputFile) :
    Prop :=
  ∃ module, specifier = "./" ++ module ∧
    files.filter (fun file => (origin.beside (moduleFile module)).same file.path) = [target]

/-- Every module that a file refers to is just one of the files. -/
def Linked (files : List OutputFile) : Prop :=
  ∀ file ∈ files, ∃ found, specifiers? file.content = some found ∧
    ∀ specifier ∈ found, ∃ target, Resolves files file.path specifier target

theorem moduleFile_eq (module : String) : moduleFile module = unitName module Emission.fileExtension := by
  rw [moduleFile, unitName, String.append_assoc]
  rfl

theorem moduleFile_isFileName {module : String} (noSeparator : '/' ∉ module.toList) :
    IsFileName (moduleFile module) := by
  rw [moduleFile_eq]
  exact unitName_isFileName noSeparator (by decide) ⟨'t', by decide, by decide⟩

theorem moduleFile_injective {one other : String} (same : moduleFile one = moduleFile other) :
    one = other := by
  rw [moduleFile_eq, moduleFile_eq] at same
  exact unitName_injective same

/-- Of things with different names, just one has the name of a given one. -/
theorem filter_name {α : Type} {items : List (Named α)} (names : (items.map Named.name).Nodup)
    {item : Named α} (member : item ∈ items) :
    items.filter (fun other => item.name = other.name) = [item] := by
  induction items with
  | nil => cases member
  | cons first rest ih =>
      obtain ⟨absent, others⟩ := List.nodup_cons.mp names
      rcases List.mem_cons.mp member with rfl | later
      · have none : rest.filter (fun other => item.name = other.name) = [] := by
          refine List.filter_eq_nil_iff.mpr fun other listed same => ?_
          rw [decide_eq_true_eq] at same
          exact absent (same ▸ List.mem_map_of_mem listed)
        rw [List.filter_cons, if_pos (decide_eq_true rfl), none]
      · have differs : ¬decide (item.name = first.name) = true := by
          rw [decide_eq_true_eq]
          rintro same
          exact absent (same ▸ List.mem_map_of_mem later)
        rw [List.filter_cons, if_neg differs]
        exact ih others later

section

variable {main : OutputFile} {units : List (Named String)}
  (noSeparator : ∀ unit ∈ units, '/' ∉ unit.name.toList)
  (apart : ∀ unit ∈ units, (unitFile main.path unit).path.same main.path = false)

include noSeparator apart

/-- From the main unit a language leads to its unit. -/
theorem resolves_unit (names : (units.map Named.name).Nodup) {unit : Named String}
    (member : unit ∈ units) :
    Resolves (main :: units.map (unitFile main.path)) main.path ("./" ++ unit.name)
      (unitFile main.path unit) := by
  have isName (other : Named String) (listed : other ∈ units) : IsFileName (moduleFile other.name) :=
    moduleFile_isFileName (noSeparator other listed)
  refine ⟨unit.name, rfl, ?_⟩
  have others : (units.map (unitFile main.path)).filter (fun file =>
      (main.path.beside (moduleFile unit.name)).same file.path) = [unitFile main.path unit] := by
    rw [List.filter_map]
    have sameName : ∀ other ∈ units,
        ((fun file : OutputFile => (main.path.beside (moduleFile unit.name)).same file.path) ∘
          unitFile main.path) other = decide (unit.name = other.name) := by
      intro other listed
      rw [Function.comp_apply, Bool.eq_iff_iff, decide_eq_true_eq]
      refine (beside_same_iff (isName unit member) (isName other listed)).trans ?_
      exact ⟨moduleFile_injective, fun same => by rw [same]⟩
    rw [List.filter_congr sameName, filter_name names member]
    rfl
  have notMain : ¬(main.path.beside (moduleFile unit.name)).same main.path = true :=
    Bool.eq_false_iff.mp (apart unit member)
  rw [List.filter_cons, if_neg notMain, others]

/-- From the unit of a language the stem of the main file leads to the main unit. -/
theorem resolves_main {stem : String} (stemSeparator : '/' ∉ stem.toList)
    (lastName : main.path.names = main.path.names.dropLast ++ [(moduleFile stem).toList])
    {unit : Named String} (member : unit ∈ units) :
    Resolves (main :: units.map (unitFile main.path)) (unitFile main.path unit).path ("./" ++ stem)
      main := by
  have back : ((unitFile main.path unit).path.beside (moduleFile stem)).same main.path = true :=
    same_beside_beside (moduleFile_isFileName stemSeparator)
      (moduleFile_isFileName (noSeparator unit member)) lastName
  refine ⟨stem, rfl, ?_⟩
  have none : (units.map (unitFile main.path)).filter (fun file =>
      ((unitFile main.path unit).path.beside (moduleFile stem)).same file.path) = [] := by
    rw [List.filter_eq_nil_iff, List.forall_mem_map]
    intro other listed
    rw [same_congr back, same_comm, apart other listed]
    exact Bool.false_ne_true
  rw [List.filter_cons, if_pos back, none]

end

namespace Project

variable {project : Project} {documents : List (Named Document)} {plan : GenerationPlan}

/-- A plan comes of a schema, whose code is laid out from the output path. -/
theorem artifact_of_plan (planned : project.plan documents = .ok plan) :
    ∃ schema artifact, analyze documents = .ok schema ∧
      schema.defaultLanguage project.options.defaultLanguage = .ok plan.defaultLanguage ∧
      Emission.generate schema project.options = .ok artifact ∧
      artifact.files project.output Emission.fileExtension = .ok plan.files := by
  rw [Project.plan, analyzeTimed_eq] at planned
  split at planned
  · cases planned
  · rename_i schema accepted
    dsimp only at planned
    split at planned
    · cases planned
    · rename_i default starts
      split at planned
      · cases planned
      · rename_i files shown
        cases planned
        rw [Emission.preview] at shown
        split at shown
        · cases shown
        · rename_i artifact outcome
          exact ⟨schema, artifact, accepted, starts, outcome, shown⟩

/-- The files of units lie beside the main unit, and none lies at its path. -/
theorem unitFiles_of_files {main : String} {units : List (Named String)} {output : Path}
    {files : List OutputFile}
    (laid : (Artifact.split main units).files output Emission.fileExtension = .ok files) :
    files = ⟨output, main⟩ :: units.map (unitFile output) ∧
      ∀ unit ∈ units, (unitFile output unit).path.same output = false := by
  rw [Artifact.files] at laid
  obtain ⟨others, found, rfl⟩ := ok_of_map_eq_ok laid
  obtain ⟨rfl, apart⟩ := Artifact.unitFiles_eq_ok found
  have path (unit : Named String) :
      Artifact.unitPath (output.parent?.getD ⟨""⟩) Emission.fileExtension unit =
        (unitFile output unit).path := by
    rw [unitFile, moduleFile_eq]
    rfl
  simp only [path] at apart ⊢
  exact ⟨rfl, apart⟩

/-- Other units refer to the main one by the stem of its file. -/
theorem mainModule_of_fileName? {stem : String} (present : stem ≠ "")
    (named : project.output.fileName? = some (stem ++ ".ts").toList) :
    project.options.mainModule = stem := by
  have chars : (stem ++ ".ts").toList = stem.toList ++ '.' :: ['t', 's'] := by simp
  rw [chars] at named
  have stemOf := stem?_of_fileName? (by simpa using present) (by decide) named
  rw [Project.options, stemOf, String.ofList_toList]
  rfl

/-- Imports between generated units lead to where they should, whatever the names of languages and the
texts of messages are. The main unit refers to the units of all languages but the default one, each
through the loader of its language, and these refer to the main unit. No other module is imported
anywhere, and each of these leads to just one generated file. -/
theorem specifiers_resolve {stem : String}
    (besides : project.manifest.importPrefix = "./") (isLazy : project.manifest.isLazy = true)
    (isValue : project.manifest.target ≠ .type) (present : stem ≠ "")
    (named : project.output.fileName? = some (stem ++ ".ts").toList)
    (noSeparator : ∀ document ∈ documents, '/' ∉ document.name.toList)
    (planned : project.plan documents = .ok plan) :
    ∃ (main : String) (units : List (Named String)) (entries : List (String × Expr)),
      plan.files = ⟨project.output, main⟩ :: units.map (unitFile project.output) ∧
      units.map Named.name =
        (documents.map Named.name).filter (fun name => name != plan.defaultLanguage) ∧
      Emission.HoldsMap project.options plan.defaultLanguage main (.object entries) ∧
      specifiers? main = some (units.map fun unit => "./" ++ unit.name) ∧
      Linked plan.files ∧
      ∀ unit ∈ units,
        (∃ loader, List.lookup unit.name entries = some (.arrow loader) ∧
          specifiers? loader.code = some ["./" ++ unit.name] ∧
          Resolves plan.files project.output ("./" ++ unit.name) (unitFile project.output unit)) ∧
        specifiers? unit.value = some ["./" ++ stem] ∧
        Resolves plan.files (unitFile project.output unit).path ("./" ++ stem)
          ⟨project.output, main⟩ := by
  obtain ⟨schema, artifact, accepted, starts, outcome, laid⟩ := artifact_of_plan planned
  have splits : project.options.splitsUnits = true :=
    Emission.splitsUnits_iff.mpr ⟨isLazy, isValue⟩
  obtain ⟨main, units, entries, rfl, unitNames, imported, holds, each⟩ :=
    Emission.imports_of_generate splits outcome starts
  have importPrefix : project.options.importPrefix = "./" := besides
  rw [importPrefix] at imported
  rw [importPrefix, mainModule_of_fileName? present named] at each
  obtain ⟨files, apart⟩ := unitFiles_of_files laid
  obtain ⟨names, nodup⟩ := languageNames_of_analyze accepted
  rw [names] at unitNames nodup
  have unitsNodup : (units.map Named.name).Nodup := unitNames ▸ nodup.filter _
  have unitSeparator : ∀ unit ∈ units, '/' ∉ unit.name.toList := by
    intro unit member
    have listed := List.mem_of_mem_filter (unitNames ▸ List.mem_map_of_mem member)
    obtain ⟨document, inDocuments, same⟩ := List.mem_map.mp listed
    exact same ▸ noSeparator document inDocuments
  obtain ⟨lastName, fileSeparator⟩ := names_of_fileName? named
  have stemSeparator : '/' ∉ stem.toList := by
    rw [String.toList_append, List.mem_append, not_or] at fileSeparator
    exact fileSeparator.1
  let file : OutputFile := ⟨project.output, main⟩
  have leads (unit : Named String) (member : unit ∈ units) :
      Resolves plan.files project.output ("./" ++ unit.name) (unitFile project.output unit) := by
    rw [files]
    exact @resolves_unit file units unitSeparator apart unitsNodup unit member
  have returns (unit : Named String) (member : unit ∈ units) :
      Resolves plan.files (unitFile project.output unit).path ("./" ++ stem) file := by
    rw [files]
    exact @resolves_main file units unitSeparator apart stem stemSeparator lastName unit member
  have linked : Linked plan.files := by
    rw [Linked, files, List.forall_mem_cons, List.forall_mem_map, ← files]
    refine ⟨⟨_, imported, ?_⟩, fun unit member => ⟨_, (each unit member).2, ?_⟩⟩
    · rw [List.forall_mem_map]
      exact fun unit member => ⟨_, leads unit member⟩
    · rw [List.forall_mem_singleton]
      exact ⟨_, returns unit member⟩
  refine ⟨main, units, entries, files, unitNames, holds, imported, linked, fun unit member => ?_⟩
  have loaded := Emission.specifiers?_loader project.options unit.name
  rw [importPrefix] at loaded
  obtain ⟨held, refers⟩ := each unit member
  exact ⟨⟨_, held, loaded, leads unit member⟩, refers, returns unit member⟩

/-- The files of both languages refer to each other, from `i18n` to `zh` and back. -/
theorem specifiers_resolve_medals :
    lazyProject.manifest.importPrefix = "./" ∧ lazyProject.manifest.isLazy = true ∧
      lazyProject.manifest.target ≠ .type ∧
      lazyProject.output.fileName? = some ("i18n" ++ ".ts").toList ∧
      (∀ document ∈ medals, '/' ∉ document.name.toList) ∧
      ∃ plan main unit, lazyProject.plan medals = .ok plan ∧ plan.files = medalFiles main unit ∧
        specifiers? main = some ["./zh"] ∧ specifiers? unit = some ["./i18n"] ∧
        Linked (medalFiles main unit) := by
  obtain ⟨plan, main, unit, planned, default, files⟩ := plan_medals
  have isValue : lazyProject.manifest.target ≠ .type := by decide
  have named : lazyProject.output.fileName? = some ("i18n" ++ ".ts").toList := by decide
  obtain ⟨code, units, _, laid, names, _, imports, linked, each⟩ :=
    specifiers_resolve rfl rfl isValue (show "i18n" ≠ "" by decide) named separator_not_mem_medals
      planned
  rw [default] at names
  obtain ⟨other, rfl⟩ : ∃ other, units = [other] := by
    rw [← List.length_eq_one_iff, ← List.length_map Named.name, names]
    rfl
  have isChinese : other.name = "zh" := by simpa [medals] using names
  rw [files] at laid linked
  rw [medalFiles, List.map_singleton, List.cons.injEq, List.cons.injEq] at laid
  obtain ⟨same, others, _⟩ := laid
  cases same
  obtain rfl : unit = other.value := congrArg OutputFile.content others
  rw [List.map_singleton, isChinese] at imports
  exact ⟨rfl, rfl, isValue, named, separator_not_mem_medals, plan, main, other.value, planned, files,
    imports, (each other List.mem_cons_self).2.1, linked⟩

end Project

end Phrasebook
