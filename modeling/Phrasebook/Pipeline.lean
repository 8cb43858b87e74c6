import Phrasebook.Report
import Phrasebook.Schema
import Phrasebook.Tree.OfDocument
import Phrasebook.Tree.Unify

/-!
# The analysis pipeline

Phases turn the documents into a schema: first the trees are built, then they are unified,
then the phases of the caller run. Plugins are called before and after every phase and may
change the state or end the run. A run keeps a journal of its calls, each with the state
that it was given.
-/

namespace Phrasebook

/-- The state that phases and plugins share. -/
structure Context where
  documents : List (Named Document)
  trees : List (Named Tree) := []
  schema : Option Tree := none
  diagnostics : Diagnostics := []

structure Phase where
  name : String
  run : Context → Except Failure Context

inductive Moment where
  | before
  | after
deriving DecidableEq, Repr

/-- An observer of the phases, which may change the state or fail. -/
structure Plugin where
  name : String
  hook : Moment → String → Context → Except Failure Context := fun _ _ context => .ok context

/-- Who is called: a phase, or a plugin at one moment of a phase. -/
inductive Callee where
  | phase (name : String)
  | plugin (name : String) (moment : Moment) (phase : String)
deriving DecidableEq, Repr

/-- One call of a run, with the state before it. -/
structure Call where
  callee : Callee
  context : Context

/-- What a run gives: the calls it made, and its result. -/
structure Outcome (α : Type) where
  journal : List Call
  result : Except Failure α

namespace Outcome

/-- Goes on with the result of a run, unless it failed. -/
def andThen {α β : Type} (outcome : Outcome α) (next : α → Outcome β) : Outcome β :=
  match outcome.result with
  | .error failure => ⟨outcome.journal, .error failure⟩
  | .ok value =>
      let rest := next value
      ⟨outcome.journal ++ rest.journal, rest.result⟩

end Outcome

/-- A list of plugins and the phases that follow the two built-in ones. -/
structure Pipeline where
  phases : List Phase := []
  plugins : List Plugin := []

namespace Pipeline

def buildPhase : Phase where
  name := "build"
  run context :=
    match Tree.buildAll context.documents context.diagnostics with
    | (.error failure, _) => .error failure
    | (.ok trees, diagnostics) =>
        .ok { context with trees := trees, diagnostics := diagnostics }

def unifyPhase : Phase where
  name := "unify"
  run context :=
    match Tree.unify context.trees context.diagnostics with
    | .error failure => .error failure
    | .ok (schema, diagnostics) =>
        .ok { context with schema := some schema, diagnostics := diagnostics }

/-- One call, recorded with the state that it gets. -/
def call (callee : Callee) (run : Context → Except Failure Context) (context : Context) :
    Outcome Context :=
  ⟨[⟨callee, context⟩], run context⟩

/-- Calls the plugins in turn at one moment of a phase. -/
def callPlugins (moment : Moment) (phase : String) : List Plugin → Context → Outcome Context
  | [], context => ⟨[], .ok context⟩
  | first :: rest, context =>
      (call (.plugin first.name moment phase) (first.hook moment phase) context).andThen
        (callPlugins moment phase rest)

/-- Runs a phase between its plugin calls. -/
def runPhase (plugins : List Plugin) (phase : Phase) (context : Context) : Outcome Context :=
  ((callPlugins .before phase.name plugins context).andThen
    (call (.phase phase.name) phase.run)).andThen (callPlugins .after phase.name plugins)

def runPhases (plugins : List Plugin) : List Phase → Context → Outcome Context
  | [], context => ⟨[], .ok context⟩
  | first :: rest, context =>
      (runPhase plugins first context).andThen (runPhases plugins rest)

def run (pipeline : Pipeline) (documents : List (Named Document)) : Outcome Context :=
  runPhases pipeline.plugins (buildPhase :: unifyPhase :: pipeline.phases) ⟨documents, [], none, []⟩

/-- The schema that a finished run stands for. A run with diagnostics has none. -/
def schemaOf (context : Context) : Except Failure Schema :=
  if context.diagnostics.isEmpty then
    match context.schema with
    | some canonical => .ok ⟨canonical, context.trees⟩
    | none => .error .unconstrainedSchema
  else .error (.disagreement (Report.render context.diagnostics context.trees) context.diagnostics)

def compile (pipeline : Pipeline) (documents : List (Named Document)) : Outcome Schema :=
  (pipeline.run documents).andThen fun context => ⟨[], schemaOf context⟩

end Pipeline

/-- The schema of a list of documents, or the reason why there is none. -/
def analyze (documents : List (Named Document)) : Except Failure Schema :=
  (Pipeline.compile {} documents).result

end Phrasebook
