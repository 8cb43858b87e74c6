import Phrasebook.Diagnostic

/-!
# The report of all diagnostics

A numbered list, ordered by kind and within a kind by first observation. What the
languages have at a path is looked up in their trees, so that a report also shows the
languages that agree.
-/

namespace Phrasebook.Report

/-- The ending of a noun that is counted. -/
def plural (count : Nat) : String :=
  if count = 1 then "" else "s"

/-- The name of the language that the others are compared with. -/
def reference (trees : List (Named Tree)) : String :=
  match trees with
  | [] => ""
  | first :: _ => first.name

def headline (trees : List (Named Tree)) (diagnostic : Diagnostic) : String :=
  let path := "`" ++ diagnostic.path.dotted ++ "`"
  match diagnostic.finding with
  | .unexpectedValueType _ => path ++ " must be a string, a number or a mapping"
  | .notFoundKey .incoming _ => path ++ " is missing in some languages"
  | .notFoundKey .canonical _ =>
      path ++ " is not defined by the reference language `" ++ reference trees ++ "`"
  | .mismatchedKind _ _ => path ++ " is not the same kind of message in every language"
  | .mismatchedArguments _ _ => path ++ " takes different placeholders across languages"

/-- The languages grouped by a variant, in the order in which variants first appear.
Languages without a variant are in no group. -/
def groups (variant : Tree → Option String) (trees : List (Named Tree)) : Entries (List String) :=
  trees.foldl
    (fun found tree =>
      match variant tree.value with
      | none => found
      | some name => Entries.put name ((found.lookup name).getD [] ++ [tree.name]) found)
    []

def groupLines (variant : Tree → Option String) (trees : List (Named Tree)) : List String :=
  (groups variant trees).map fun (name, languages) => name ++ ": " ++ ", ".intercalate languages

def kindAt (path : KeyPath) (tree : Tree) : Option String :=
  (tree.lookup path).map fun node => node.kind.name

/-- The parameters of the call at a path, between braces. -/
def paramsAt (path : KeyPath) (tree : Tree) : Option String :=
  match tree.lookup path with
  | some (.call body) => some ("\x7b " ++ ", ".intercalate (Body.params body) ++ " \x7d")
  | _ => none

/-- The names of the languages that have a node at a path. -/
def present (path : KeyPath) (trees : List (Named Tree)) : List String :=
  (trees.filter fun tree => (tree.value.lookup path).isSome).map Named.name

def details (trees : List (Named Tree)) (diagnostic : Diagnostic) : List String :=
  match diagnostic.finding with
  | .unexpectedValueType found =>
      found.map fun (language, typeName) => language ++ ": found " ++ typeName
  | .notFoundKey .incoming languages =>
      ["missing in: " ++ ", ".intercalate languages,
       "present in: " ++ ", ".intercalate (present diagnostic.path trees)]
  | .notFoundKey .canonical languages => ["provided by: " ++ ", ".intercalate languages]
  | .mismatchedKind _ _ => groupLines (kindAt diagnostic.path) trees
  | .mismatchedArguments _ _ => groupLines (paramsAt diagnostic.path) trees

/-- A number in at least three columns. -/
def numberText (number : Nat) : String :=
  let digits := toString number
  String.ofList (List.replicate (3 - digits.length) ' ') ++ digits

/-- The block of one diagnostic, after an empty line. -/
def block (trees : List (Named Tree)) (number : Nat) (diagnostic : Diagnostic) : String :=
  "\n" ++ numberText number ++ ". [" ++ diagnostic.kind.name ++ "] " ++ headline trees diagnostic ++
    "\n" ++ String.join ((details trees diagnostic).map fun line => "       " ++ line ++ "\n")

/-- The blocks of a list of diagnostics, numbered from a first number. -/
def blocks (trees : List (Named Tree)) : Nat → List Diagnostic → List String
  | _, [] => []
  | number, first :: rest => block trees number first :: blocks trees (number + 1) rest

def ordered (diagnostics : Diagnostics) : List Diagnostic :=
  DiagnosticKind.all.flatMap fun kind => diagnostics.ofKind kind

def header (problems languages : Nat) : String :=
  "found " ++ toString problems ++ " structural problem" ++ plural problems ++ " across " ++
    toString languages ++ " language" ++ plural languages ++ ":\n"

def render (diagnostics : Diagnostics) (trees : List (Named Tree)) : String :=
  header diagnostics.length trees.length ++ String.join (blocks trees 1 (ordered diagnostics))

end Phrasebook.Report
