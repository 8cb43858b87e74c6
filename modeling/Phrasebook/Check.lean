import Phrasebook.Notice
import Phrasebook.Pipeline.Timing
import Phrasebook.Text.Lines
import Phrasebook.Tree.Json
import Phrasebook.Tree.Outline

/-!
# Checking and inspecting documents

The two operations on documents that generate nothing: whether they agree, and the outline
of what they agree on.
-/

namespace Phrasebook

namespace Check

inductive Verdict where
  | valid (summary : Schema.Summary) (outline : String)
  | invalid (problems : String)

def Verdict.isValid : Verdict → Bool
  | .valid _ _ => true
  | .invalid _ => false

def Verdict.notices : Verdict → List Notice
  | .invalid problems => [.problem problems]
  | .valid summary outline =>
      let count := summary.languages.length
      [.block ("✓ " ++ toString count ++ " language" ++ Report.plural count ++ " agree: " ++
        ", ".intercalate summary.languages),
       .space, .heading summary.messagesLine, .block outline]

/-- Two columns of margin before every line of a text. -/
def withMargin (text : String) : String :=
  String.join ((Text.splitLines text.toList).map fun line => "  " ++ String.ofList line ++ "\n")

/-- Checks whether documents agree. Disagreement is a verdict, every other failure is one
of the check. -/
def run (documents : List (Named Document)) : Except Failure Verdict :=
  match analyzeTimed documents with
  | .ok schema => .ok (.valid schema.summary (withMargin (schema.canonical.indented "  ")))
  | .error (.disagreement report _) => .ok (.invalid report)
  | .error failure => .error failure

end Check

/-- The tree that documents agree on, as JSON or with branches. -/
def inspect (documents : List (Named Document)) (asJson : Bool) : Except Failure String :=
  (analyzeTimed documents).map fun schema =>
    if asJson then schema.canonical.toJson.pretty 0 else schema.canonical.branches

end Phrasebook
