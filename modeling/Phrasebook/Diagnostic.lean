import Phrasebook.KeyPath
import Phrasebook.Tree
import Phrasebook.Value

/-!
# Structural diagnostics

What is wrong with the structure of the documents, as data. An observation is one
language's share in a conflict; a diagnostic gathers the observations of one kind at one
path, so each conflict is reported once however many languages meet it. What a diagnostic
expects is fixed by its first observation.
-/

namespace Phrasebook

inductive DiagnosticKind where
  | unexpectedValueType
  | notFoundKey
  | mismatchedKind
  | mismatchedArguments
deriving DecidableEq, Repr

namespace DiagnosticKind

/-- All kinds, in the order in which a report takes them. -/
def all : List DiagnosticKind :=
  [.unexpectedValueType, .notFoundKey, .mismatchedKind, .mismatchedArguments]

def name : DiagnosticKind → String
  | .unexpectedValueType => "unexpected-value-type"
  | .notFoundKey => "not-found-key"
  | .mismatchedKind => "mismatched-kind"
  | .mismatchedArguments => "mismatched-arguments"

end DiagnosticKind

/-- The side that lacks a key: the reference tree or the language that is compared with it. -/
inductive MissingSide where
  | canonical
  | incoming
deriving DecidableEq, Repr

def MissingSide.name : MissingSide → String
  | .canonical => "canonical"
  | .incoming => "incoming"

/-- One language's share in a conflict. -/
inductive Observation where
  | unexpectedValueType (typeName : String)
  | notFoundKey (side : MissingSide)
  | mismatchedKind (expected found : NodeKind)
  | mismatchedArguments (expected found : List String)
deriving DecidableEq, Repr

/-- What is known about a conflict: what is expected, and what each language has. -/
inductive Finding where
  | unexpectedValueType (found : Entries String)
  | notFoundKey (side : MissingSide) (languages : List String)
  | mismatchedKind (expected : NodeKind) (found : Entries NodeKind)
  | mismatchedArguments (expected : List String) (found : Entries (List String))
deriving DecidableEq, Repr

namespace Observation

def kind : Observation → DiagnosticKind
  | .unexpectedValueType _ => .unexpectedValueType
  | .notFoundKey _ => .notFoundKey
  | .mismatchedKind _ _ => .mismatchedKind
  | .mismatchedArguments _ _ => .mismatchedArguments

/-- The finding that a first observation opens. -/
def opened (language : String) : Observation → Finding
  | .unexpectedValueType typeName => .unexpectedValueType [(language, typeName)]
  | .notFoundKey side => .notFoundKey side [language]
  | .mismatchedKind expected found => .mismatchedKind expected [(language, found)]
  | .mismatchedArguments expected found => .mismatchedArguments expected [(language, found)]

end Observation

namespace Finding

def kind : Finding → DiagnosticKind
  | .unexpectedValueType _ => .unexpectedValueType
  | .notFoundKey _ _ => .notFoundKey
  | .mismatchedKind _ _ => .mismatchedKind
  | .mismatchedArguments _ _ => .mismatchedArguments

/-- The languages concerned, in the order in which they were first observed. -/
def languages : Finding → List String
  | .unexpectedValueType found => Entries.keys found
  | .notFoundKey _ languages => languages
  | .mismatchedKind _ found => Entries.keys found
  | .mismatchedArguments _ found => Entries.keys found

/-- Adds an observation of the same kind. A language observed before keeps its place and
takes the new value. -/
def add (language : String) : Observation → Finding → Finding
  | .unexpectedValueType typeName, .unexpectedValueType found =>
      .unexpectedValueType (Entries.put language typeName found)
  | .notFoundKey _, .notFoundKey side languages =>
      .notFoundKey side (if languages.contains language then languages else languages ++ [language])
  | .mismatchedKind _ value, .mismatchedKind expected found =>
      .mismatchedKind expected (Entries.put language value found)
  | .mismatchedArguments _ value, .mismatchedArguments expected found =>
      .mismatchedArguments expected (Entries.put language value found)
  | _, finding => finding

end Finding

/-- A conflict at one path. -/
structure Diagnostic where
  path : KeyPath
  finding : Finding
deriving DecidableEq, Repr

def Diagnostic.kind (diagnostic : Diagnostic) : DiagnosticKind := diagnostic.finding.kind

def Diagnostic.languages (diagnostic : Diagnostic) : List String := diagnostic.finding.languages

/-- The diagnostics recorded so far, in the order of their first observations. -/
abbrev Diagnostics := List Diagnostic

namespace Diagnostics

def record (language : String) (path : KeyPath) (seen : Observation) : Diagnostics → Diagnostics
  | [] => [⟨path, seen.opened language⟩]
  | first :: rest =>
      if first.kind = seen.kind ∧ first.path = path then
        { first with finding := first.finding.add language seen } :: rest
      else first :: record language path seen rest

def recordAll (language : String) (seen : List (KeyPath × Observation))
    (diagnostics : Diagnostics) : Diagnostics :=
  seen.foldl (fun all one => all.record language one.1 one.2) diagnostics

def find? (kind : DiagnosticKind) (path : KeyPath) (diagnostics : Diagnostics) : Option Diagnostic :=
  List.find? (fun diagnostic => diagnostic.kind = kind && diagnostic.path = path) diagnostics

def ofKind (kind : DiagnosticKind) (diagnostics : Diagnostics) : List Diagnostic :=
  diagnostics.filter fun diagnostic => diagnostic.kind = kind

end Diagnostics

/-- The observation that a value cannot be a message. -/
def Observation.ofValue (value : Value) : Observation :=
  .unexpectedValueType value.typeName

/-- The observation that two calls take different parameters. -/
def Observation.ofBodies (expected found : Body) : Observation :=
  .mismatchedArguments expected.params found.params

end Phrasebook
