import Phrasebook.Diagnostic

/-!
# Failures

Every cause for which an operation on documents, schemas, messages or generated files is
given up, with the words for it. A failure may be wrapped in the description of what was
attempted; its cause stays available.
-/

namespace Phrasebook

inductive Failure where
  | noLanguages
  | duplicateLanguage (name : String)
  | unknownDefaultLanguage (name : String)
  | unconstrainedSchema
  | pathMismatch (expected actual : String)
  | unitCollision (language path : String)
  /-- The documents disagree: the report and what it is about. -/
  | disagreement (report : String) (diagnostics : Diagnostics)
  | invalidName (role name : String)
  | reservedName (role name : String)
  | messageAbsent (path : KeyPath)
  | messageKind (path : KeyPath) (found expected : NodeKind)
  | missingOption (name : String)
  | notFound (path : String)
  | notAMessage (path : String)
  | unknownLanguage (name : String)
  | directoryNotCreated (path : String)
  | fileNotWritten (path : String)
  /-- Any other cause, in the words of whoever raised it. -/
  | raised (text : String)
  /-- A failure while something was attempted. -/
  | during (attempt : String) (cause : Failure)
deriving DecidableEq, Repr

namespace Failure

/-- The outermost text of a failure. -/
def message : Failure → String
  | noLanguages => "no languages supplied"
  | duplicateLanguage name => "language `" ++ name ++ "` is supplied more than once"
  | unknownDefaultLanguage name =>
      "default language `" ++ name ++ "` is not one of the input languages"
  | unconstrainedSchema => "the schema was never constrained by any language"
  | pathMismatch expected actual =>
      "path context out of balance: expected to leave `" ++ expected ++ "`, found `" ++ actual ++ "`"
  | unitCollision language path =>
      "language `" ++ language ++ "` unit would overwrite the main unit at " ++ path
  | disagreement report _ => report
  | invalidName role name => role ++ " name '" ++ name ++ "' is not a valid identifier"
  | reservedName role name => role ++ " name '" ++ name ++ "' is a reserved word"
  | messageAbsent path => "no message at `" ++ path.dotted ++ "`"
  | messageKind path found expected =>
      "message at `" ++ path.dotted ++ "` is a " ++ found.name ++ ", expected a " ++ expected.name
  | missingOption name => "missing option '" ++ name ++ "'"
  | notFound path => "no message at '" ++ path ++ "'"
  | notAMessage path => "'" ++ path ++ "' is a namespace, not a message"
  | unknownLanguage name => "unknown language '" ++ name ++ "'"
  | directoryNotCreated path => "failed to create directory '" ++ path ++ "'"
  | fileNotWritten path => "failed to write '" ++ path ++ "'"
  | raised text => text
  | during attempt _ => attempt

/-- The texts below the outermost one, from outer to inner. -/
def causes : Failure → List String
  | during _ cause => cause.message :: cause.causes
  | _ => []

/-- The innermost failure, without what was attempted. -/
def root : Failure → Failure
  | during _ cause => cause.root
  | failure => failure

end Failure

end Phrasebook
