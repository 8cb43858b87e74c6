import Phrasebook.Proofs.Analysis
import Phrasebook.Proofs.Report.Groups
import Phrasebook.Proofs.Tree.Findings
import Phrasebook.Proofs.Tree.Place

/-!
# Reports agree with what was recorded

A diagnostic records what was met on the walk through two trees, and its report looks up the
path in the tree of every language. Both tell the same of every language.
-/

namespace Phrasebook.Report

/-- A language has a node at a path. -/
def HasNode (trees : List (Named Tree)) (path : KeyPath) (language : String) : Prop :=
  ∃ tree ∈ trees, tree.name = language ∧ ∃ node, tree.value.lookup path = some node

/-- The groups of a report say what is recorded: the reference language is in the group that is
expected, and outside of it are just the languages recorded, each in the group of what it has. -/
structure Separates (trees : List (Named Tree)) (groups : Entries (List String))
    (expected : String) (found : Entries String) : Prop where
  first : Lists groups expected (reference trees)
  outside : ∀ language, language ∈ Entries.keys found ↔
    ∃ name, name ≠ expected ∧ Lists groups name language
  recorded : ∀ language name, (language, name) ∈ found → Lists groups name language

/-- The lines of a report tell of every language what a finding at the path has of it. -/
inductive Tells (trees : List (Named Tree)) (path : KeyPath) : Finding → List String → Prop where
  | unusable (found : Entries String) :
      Tells trees path (.unexpectedValueType found)
        (found.map fun (language, typeName) => language ++ ": found " ++ typeName)
  | lacking {missing listed : List String}
      (isListed : ∀ language, language ∈ listed ↔ HasNode trees path language)
      (apart : missing.Disjoint listed) (first : reference trees ∈ listed) :
      Tells trees path (.notFoundKey .incoming missing)
        ["missing in: " ++ ", ".intercalate missing, "present in: " ++ ", ".intercalate listed]
  | surplus {providing : List String}
      (isProviding : ∀ language, language ∈ providing ↔ HasNode trees path language) :
      Tells trees path (.notFoundKey .canonical providing)
        ["provided by: " ++ ", ".intercalate providing]
  | kinds {expected : NodeKind} {found : Entries NodeKind} {groups : Entries (List String)}
      (grouping : Grouping (kindAt path) trees groups)
      (separates : Separates trees groups expected.name (found.map (Prod.map id NodeKind.name))) :
      Tells trees path (.mismatchedKind expected found)
        (groups.map fun (name, languages) => name ++ ": " ++ ", ".intercalate languages)
  | arguments {expected : List String} {found : Entries (List String)}
      {groups : Entries (List String)} (grouping : Grouping (paramsAt path) trees groups)
      (separates : Separates trees groups (braces expected) (found.map (Prod.map id braces))) :
      Tells trees path (.mismatchedArguments expected found)
        (groups.map fun (name, languages) => name ++ ": " ++ ", ".intercalate languages)

section

variable {first : Named Tree} {rest : List (Named Tree)} {path : KeyPath}

variable (names : ((first :: rest).map Named.name).Nodup)

end

/-! ## The text of a report -/

end Phrasebook.Report
