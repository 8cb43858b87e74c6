import Phrasebook.Emission.Unit
import Phrasebook.FileSystem
import Phrasebook.Notice
import Phrasebook.Pipeline.Timing
import Phrasebook.Project

/-!
# Generating the code of a project

First a plan is made, which needs no file system: all files with their content. A dry run
ends there. Otherwise the files are written one after another, and a file that already has
its content is left alone.
-/

namespace Phrasebook

/-- The files to generate, and what is said about them. -/
structure GenerationPlan where
  summary : Schema.Summary
  defaultLanguage : String
  target : Target
  isLazy : Bool
  files : List OutputFile

def Project.plan (project : Project) (documents : List (Named Document)) :
    Except Failure GenerationPlan :=
  match analyzeTimed documents with
  | .error failure => .error failure
  | .ok schema =>
      let options := project.options
      match schema.defaultLanguage options.defaultLanguage with
      | .error failure => .error failure
      | .ok default =>
          match Emission.preview schema options project.output with
          | .error failure => .error (.during "failed to generate code" failure)
          | .ok files => .ok ⟨schema.summary, default, options.target, options.isLazy, files⟩

/-- What became of a file that was to be written. -/
inductive WriteResult where
  | written
  | unchanged
deriving DecidableEq, Repr

/-- What became of a plan: its files are shown, or written. -/
inductive GenerationResult where
  | preview (files : List OutputFile)
  | written (files : List (Path × WriteResult))

structure Generation where
  plan : GenerationPlan
  result : GenerationResult

section

variable {m : Type → Type} [Monad m] [FileSystem m]

def OutputFile.makeDirectory (file : OutputFile) : m (Except Failure Unit) :=
  match file.path.parent? with
  | none => return .ok ()
  | some parent => do
      if ← FileSystem.makeDirectory parent then return .ok ()
      else return .error (.directoryNotCreated parent.text)

/-- Writes a file and the directories on the way, unless it has its content already. -/
def OutputFile.write (file : OutputFile) : m (Except Failure WriteResult) := do
  if (← FileSystem.readText? file.path) = some file.content then return .ok .unchanged
  else
    match ← file.makeDirectory with
    | .error failure => return .error failure
    | .ok () =>
        if ← FileSystem.writeText file.path file.content then return .ok .written
        else return .error (.fileNotWritten file.path.text)

/-- Writes files in turn, up to the first that cannot be written. -/
def OutputFile.writeAll : List OutputFile → m (Except Failure (List (Path × WriteResult)))
  | [] => return .ok []
  | first :: rest => do
      match ← first.write with
      | .error failure => return .error failure
      | .ok result =>
          match ← writeAll rest with
          | .error failure => return .error failure
          | .ok others => return .ok ((first.path, result) :: others)

/-- Generates the code for documents, or shows it when nothing is to be written. -/
def Project.generate (project : Project) (documents : List (Named Document)) (isDryRun : Bool) :
    m (Except Failure Generation) :=
  match project.plan documents with
  | .error failure => return .error failure
  | .ok plan =>
      if isDryRun then return .ok ⟨plan, .preview plan.files⟩
      else do
        match ← OutputFile.writeAll plan.files with
        | .error failure => return .error failure
        | .ok files => return .ok ⟨plan, .written files⟩

end

/-! ### What is said -/

def WriteResult.notice (path : Path) : WriteResult → Notice
  | written => .added path.text
  | unchanged => .item (path.text ++ " (unchanged)")

def GenerationResult.notices : GenerationResult → List Notice
  | preview files =>
      files.flatMap (fun file => [.divider file.path.text, .block file.content]) ++
        [.divider "Summary",
         .block (toString files.length ++ " file" ++ Report.plural files.length ++
           " would be generated")]
  | written files =>
      .heading "Generated" :: files.map fun (path, result) => result.notice path

def Generation.notices (generation : Generation) : List Notice :=
  let plan := generation.plan
  [.pair "Languages"
    (", ".intercalate plan.summary.languages ++ " (default: " ++ plan.defaultLanguage ++ ")"),
   .pair "Target" (plan.target.name ++ if plan.isLazy then " (lazy)" else ""),
   .pair "Messages" plan.summary.messagesLine, .space] ++ generation.result.notices

end Phrasebook
