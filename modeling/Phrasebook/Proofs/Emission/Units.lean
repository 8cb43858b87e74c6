import Phrasebook.Emission.Unit
import Phrasebook.Proofs.Emission.Arrangement
import Phrasebook.Proofs.Failure

/-!
# The units of a schema

A schema that the analysis gave is generated for every target, with all languages in one unit
or with units of their own. Both ways emit the same object for a language: the literal of its
tree. Only the place differs, since a language with a unit of its own is the default export
there and leaves an import in the map of the main unit.
-/

namespace Phrasebook.Emission

open Code Script Text

/-! ## What units hold -/

/-- A main unit with a map of languages. It exports the map, or hands it to the provider that
it constructs; in either case a type may stand behind the map. -/
def HoldsMap (options : EmissionOptions) (default unit : String) (map : Expr) : Prop :=
  ∃ (file : SourceFile) (held : Expr), unit = file.render options.indent ∧
    (held = map ∨ ∃ type, held = .ascribed map type) ∧
    match options.target with
    | .resource => file.exports = [{ default := some held }]
    | .provider =>
        [Const.fragment
          { name := options.naming.providerName
            value := some (.construct options.naming.providerClass [held, .text default]) }] ∈ file.body
    | .type => False

section Pieces

variable {schema : Schema} {languages : List (Named Tree)} {objects : List (Named Expr)}

/-- A main unit holds the map of languages unless it only declares types. -/
theorem holdsMap_of_mainFile {options : EmissionOptions} {default : String} {file : SourceFile}
    (outcome : mainFile schema options default = .ok file) (isValue : options.target ≠ .type) :
    ∃ map, languageMap schema options default = .ok map ∧
      HoldsMap options default (file.render options.indent) map := by
  rw [mainFile] at outcome
  split at outcome
  · rename_i isResource
    obtain ⟨map, written, rfl⟩ := ok_of_map_eq_ok outcome
    refine ⟨map, written, _, ascribedMap options map, rfl, Or.inr ⟨_, rfl⟩, ?_⟩
    rw [isResource]
  · rename_i isProvider
    obtain ⟨map, written, rfl⟩ := ok_of_map_eq_ok outcome
    refine ⟨map, written, _, if options.splitsUnits then map else ascribedMap options map, rfl, ?_, ?_⟩
    · split
      · exact Or.inl rfl
      · exact Or.inr ⟨_, rfl⟩
    · rw [isProvider]
      exact List.mem_append_right _ (List.mem_cons_of_mem _ List.mem_cons_self)
  · rename_i isType
    exact absurd isType isValue

theorem splitsUnits_iff {options : EmissionOptions} :
    options.splitsUnits = true ↔ options.isLazy = true ∧ options.target ≠ .type := by
  rw [EmissionOptions.splitsUnits, Bool.and_eq_true, bne_iff_ne]

end Pieces

/-! ## All languages -/

end Phrasebook.Emission
