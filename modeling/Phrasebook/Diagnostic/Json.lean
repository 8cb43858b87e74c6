import Phrasebook.Diagnostic
import Phrasebook.Json

/-!
# Diagnostics as JSON

A diagnostic is an object that gives its dotted path, its kind and what its finding holds.
-/

namespace Phrasebook

def Finding.members : Finding → List (String × Json)
  | .unexpectedValueType found =>
      [("found", .object (found.map fun (language, typeName) => (language, .text typeName)))]
  | .notFoundKey side languages =>
      [("side", .text side.name), ("languages", .array (languages.map .text))]
  | .mismatchedKind expected found =>
      [("expected", .text expected.name),
       ("found", .object (found.map fun (language, kind) => (language, .text kind.name)))]
  | .mismatchedArguments expected found =>
      [("expected", .array (expected.map .text)),
       ("found", .object (found.map fun (language, names) => (language, .array (names.map .text))))]

def Diagnostic.toJson (diagnostic : Diagnostic) : Json :=
  .object (("path", .text diagnostic.path.dotted) :: ("kind", .text diagnostic.kind.name) ::
    diagnostic.finding.members)

def Diagnostics.toJson (diagnostics : Diagnostics) : Json :=
  .array (diagnostics.map Diagnostic.toJson)

end Phrasebook
