import Phrasebook.Pipeline.Timing
import Phrasebook.Proofs.Analysis
import Phrasebook.Proofs.Failure

/-!
# Silent plugins and the names of languages

Plugins that never fail and never change anything leave every result as it is, so the analysis under
a stopwatch finds what the analysis finds. Whatever is found, its languages are those of the
documents, in their order, and no name comes twice.
-/

namespace Phrasebook

/-- A plugin that never fails and never changes anything. -/
def Plugin.IsSilent (plugin : Plugin) : Prop :=
  ∀ moment phase context, plugin.hook moment phase context = .ok context

namespace Pipeline

variable {plugins : List Plugin} (silent : ∀ plugin ∈ plugins, plugin.IsSilent)

include silent

theorem result_callPlugins (moment : Moment) (phase : String) (context : Context) :
    (callPlugins moment phase plugins context).result = .ok context := by
  induction plugins with
  | nil => rfl
  | cons first rest ih =>
      rw [List.forall_mem_cons] at silent
      have called : (call (.plugin first.name moment phase) (first.hook moment phase) context).result =
          .ok context :=
        silent.1 moment phase context
      rw [callPlugins, Outcome.result_andThen, called]
      exact ih silent.2

theorem result_runPhase (phase : Phase) (context : Context) :
    (runPhase plugins phase context).result = phase.run context := by
  rw [runPhase, Outcome.result_andThen, Outcome.result_andThen, result_callPlugins silent]
  change (phase.run context).bind _ = phase.run context
  cases phase.run context with
  | error failure => rfl
  | ok after => exact result_callPlugins silent .after phase.name after

theorem result_runPhases (phases : List Phase) (context : Context) :
    (runPhases plugins phases context).result = (runPhases [] phases context).result := by
  induction phases generalizing context with
  | nil => rfl
  | cons first rest ih =>
      rw [runPhases, runPhases, Outcome.result_andThen, Outcome.result_andThen,
        result_runPhase silent, result_runPhase_nil]
      exact congrArg (Except.bind _) (funext ih)

/-- Silent plugins leave the result of the analysis as it is. -/
theorem result_compile (phases : List Phase) (documents : List (Named Document)) :
    (compile ⟨phases, plugins⟩ documents).result = (compile ⟨phases, []⟩ documents).result := by
  rw [compile, compile, Outcome.result_andThen, Outcome.result_andThen, run, run,
    result_runPhases silent]

end Pipeline

/-- The commands find the schema that the analysis finds. -/
theorem analyzeTimed_eq (documents : List (Named Document)) :
    analyzeTimed documents = analyze documents := by
  refine Pipeline.result_compile ?_ [] documents
  rw [List.forall_mem_singleton]
  exact fun _ _ _ => rfl

/-! ## Names of languages -/

/-- Trees are built under the names of their documents. -/
theorem Tree.names_of_buildAll {documents : List (Named Document)} {diagnostics recorded : Diagnostics}
    {trees : List (Named Tree)} (built : Tree.buildAll documents diagnostics = (.ok trees, recorded)) :
    trees.map Named.name = documents.map Named.name := by
  induction documents generalizing diagnostics trees with
  | nil =>
      cases built
      rfl
  | cons first rest ih =>
      rw [Tree.buildAll] at built
      split at built
      · cases built
      · split at built
        · cases built
        · rename_i others
          cases built
          rw [List.map_cons, List.map_cons, ih others]

/-- Trees that are unified have different names. -/
theorem Tree.nodup_of_unify {trees : List (Named Tree)} {diagnostics : Diagnostics}
    {found : Tree × Diagnostics} (unified : Tree.unify trees diagnostics = .ok found) :
    (trees.map Named.name).Nodup := by
  rw [Tree.unify, Tree.unified] at unified
  cases repetition : repeated? [] (trees.map Named.name) with
  | none => exact repeated?_eq_none_iff.mp repetition
  | some name =>
      rw [repetition] at unified
      split at unified
      · cases unified
      · rename_i outcome
        split at outcome
        · cases outcome
        · cases outcome

theorem Pipeline.names_of_buildPhase {context after : Context}
    (ran : buildPhase.run context = .ok after) :
    after.trees.map Named.name = context.documents.map Named.name := by
  rw [buildPhase] at ran
  dsimp only at ran
  split at ran
  · cases ran
  · rename_i built
    cases ran
    exact Tree.names_of_buildAll built

theorem Pipeline.trees_of_unifyPhase {context after : Context}
    (ran : unifyPhase.run context = .ok after) :
    after.trees = context.trees ∧ (context.trees.map Named.name).Nodup := by
  rw [unifyPhase] at ran
  dsimp only at ran
  split at ran
  · cases ran
  · rename_i unified
    cases ran
    exact ⟨rfl, Tree.nodup_of_unify unified⟩

theorem Pipeline.languages_of_schemaOf {context : Context} {schema : Schema}
    (finished : schemaOf context = .ok schema) : schema.languages = context.trees := by
  rw [schemaOf] at finished
  split at finished
  · split at finished
    · cases finished
      rfl
    · cases finished
  · cases finished

/-- The languages of a schema are those of the documents, each once. -/
theorem languageNames_of_analyze {documents : List (Named Document)} {schema : Schema}
    (accepted : analyze documents = .ok schema) :
    schema.languageNames = documents.map Named.name ∧ schema.languageNames.Nodup := by
  rw [analyze_eq, Pipeline.run] at accepted
  simp only [Pipeline.runPhases, Outcome.result_andThen, Pipeline.result_runPhase_nil] at accepted
  obtain ⟨context, ran, finished⟩ := ok_of_bind_eq_ok accepted
  obtain ⟨built, build, ran⟩ := ok_of_bind_eq_ok ran
  obtain ⟨unified, unify, ran⟩ := ok_of_bind_eq_ok ran
  cases ran
  obtain ⟨sameTrees, nodup⟩ := Pipeline.trees_of_unifyPhase unify
  rw [Schema.languageNames, Pipeline.languages_of_schemaOf finished, sameTrees]
  exact ⟨Pipeline.names_of_buildPhase build, nodup⟩

end Phrasebook
