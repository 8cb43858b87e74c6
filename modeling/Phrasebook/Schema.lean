import Phrasebook.Failure

/-!
# Schemas

What the analysis of all documents hands on: the tree that every language agrees with, and
the tree of each language.
-/

namespace Phrasebook

/-- The unified tree and the trees of the languages in input order. -/
structure Schema where
  canonical : Tree
  languages : List (Named Tree)

namespace Schema

def languageNames (schema : Schema) : List String :=
  schema.languages.map Named.name

/-- The tree of the first language of a name. -/
def language? (name : String) (schema : Schema) : Option Tree :=
  (schema.languages.find? fun language => language.name = name).map Named.value

/-- The language to start with: the requested one, or the first when none is requested. -/
def defaultLanguage (requested : Option String) (schema : Schema) : Except Failure String :=
  match requested, schema.languageNames with
  | some name, _ =>
      if (schema.language? name).isSome then .ok name else .error (.unknownDefaultLanguage name)
  | none, first :: _ => .ok first
  | none, [] => .error .noLanguages

/-- How many messages a schema has, and in which languages. -/
structure Summary where
  languages : List String
  messages : Nat
  calls : Nat

def summary (schema : Schema) : Summary where
  languages := schema.languageNames
  messages := schema.canonical.leaves
  calls := schema.canonical.calls

end Schema

end Phrasebook
