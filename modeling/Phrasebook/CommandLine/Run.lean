import Phrasebook.Check
import Phrasebook.CommandLine.Arguments
import Phrasebook.Generation

/-!
# Running commands

A command opens the project, loads its documents, and says what came of it. Disagreement
is told by the report alone. A run that fails ends with code 1, wrong arguments with 2.
-/

namespace Phrasebook.CommandLine

/-- What a run of a command leaves besides files. -/
structure Run where
  exitCode : Nat := 0
  output : String := ""
  errors : String := ""
deriving DecidableEq, Repr

def usageText : String :=
  "Usage: glossa [-v] <generate|check|inspect> [options]\n\n" ++
  "  -c, --config <PATH>             the manifest, glossa.toml by default\n" ++
  "      --locales <PATH>            the directory of the locale files\n\n" ++
  "generate:\n" ++
  "  -o, --output <PATH>             the path of the main unit\n" ++
  "  -t, --target <NAME>             resource, provider or type\n" ++
  "      --lazy                      load other languages on demand\n" ++
  "  -d, --default-language <NAME>   the language to start with\n" ++
  "      --dry-run                   show the files and write nothing\n\n" ++
  "inspect:\n" ++
  "      --json                      show the messages as JSON\n"

def Usage.run : Usage → Run
  | .help => { output := usageText }
  | .version => { output := "glossa 0.3.0\n" }
  | .wrong => { exitCode := 2, errors := usageText }

def ofSourceError (error : SourceError) : Run where
  exitCode := 1
  errors := "Error: " ++ error.message ++ " (" ++ error.code ++ ")\n" ++
    match error.help? with
    | some help => "  help: " ++ help ++ "\n"
    | none => ""

def ofFailure (failure : Failure) : Run where
  exitCode := 1
  errors := match failure with
    | .disagreement report _ => report
    | other => "Error: " ++ other.message ++ "\n" ++
        String.join (other.causes.map fun cause => "  caused by: " ++ cause ++ "\n")

def ofNotices (exitCode : Nat) (notices : List Notice) : Run where
  exitCode := exitCode
  output := Notice.outputOfAll notices
  errors := Notice.errorsOfAll notices

def Overrides.apply (overrides : Overrides) (project : Project) : Project :=
  let manifest := project.manifest
  { manifest :=
      { manifest with
        target := overrides.target.getD manifest.target
        isLazy := overrides.isLazy || manifest.isLazy
        defaultLanguage := overrides.defaultLanguage.or manifest.defaultLanguage }
    locales := overrides.locales.getD project.locales
    output := overrides.output.getD project.output }

section

variable {m : Type → Type} [Monad m] [FileSystem m]

/-- Opens a project and goes on with it and its documents. -/
def withDocuments (config : Path) (overrides : Overrides)
    (next : Project → List (Named Document) → m Run) : m Run := do
  match ← Project.ofConfig config with
  | .error error => return ofSourceError error
  | .ok found =>
      let project := overrides.apply found
      match ← project.documents with
      | .error error => return ofSourceError error
      | .ok documents => next project documents

def Command.run : Command → m Run
  | .generate config overrides isDryRun =>
      withDocuments config overrides fun project documents => do
        match ← project.generate documents isDryRun with
        | .error failure => return ofFailure failure
        | .ok generation => return ofNotices 0 generation.notices
  | .check config locales =>
      withDocuments config { locales := locales } fun _ documents =>
        match Check.run documents with
        | .error failure => return ofFailure failure
        | .ok verdict => return ofNotices (if verdict.isValid then 0 else 1) verdict.notices
  | .inspect config locales asJson =>
      withDocuments config { locales := locales } fun _ documents =>
        match Phrasebook.inspect documents asJson with
        | .error failure => return ofFailure failure
        | .ok text => return { output := if asJson then text ++ "\n" else text }

def run (arguments : List String) : m Run :=
  match Command.ofArguments arguments with
  | .error usage => return usage.run
  | .ok command => command.run

end

end Phrasebook.CommandLine
