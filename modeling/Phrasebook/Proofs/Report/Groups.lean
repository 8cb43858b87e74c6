import Mathlib.Data.List.Induction
import Mathlib.Data.List.Nodup
import Mathlib.Data.List.TakeWhile
import Phrasebook.Proofs.Entries
import Phrasebook.Proofs.Message.Placeholder
import Phrasebook.Report

/-!
# Groups of languages

A report puts languages into groups by what their trees have at a path. Every language that has
something there stands in exactly one group, the one named for what it has.
-/

namespace Phrasebook.Report

/-- The group of a name lists a language. -/
def Lists (groups : Entries (List String)) (name language : String) : Prop :=
  ∃ languages, (name, languages) ∈ groups ∧ language ∈ languages

/-- Groups that list every language with a variant exactly once, under its variant. -/
structure Grouping (variant : Tree → Option String) (trees : List (Named Tree))
    (groups : Entries (List String)) : Prop where
  names : (Entries.keys groups).Nodup
  once : (groups.flatMap Prod.snd).Nodup
  listed : ∀ name language, Lists groups name language ↔
    ∃ tree ∈ trees, tree.name = language ∧ variant tree.value = some name

variable {variant : Tree → Option String} {trees : List (Named Tree)}

/-- A parameter list between braces. -/
def braces (names : List String) : String :=
  "\x7b " ++ ", ".intercalate names ++ " \x7d"

end Phrasebook.Report
