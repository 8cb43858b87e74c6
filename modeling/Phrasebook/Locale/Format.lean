import Phrasebook.Path

/-!
# Formats of locale files

The format of a locale file shows in the extension of its name, in either case.
-/

namespace Phrasebook

inductive LocaleFormat where
  | yaml
  | json
  | toml
deriving DecidableEq, Repr

namespace LocaleFormat

def name : LocaleFormat → String
  | yaml => "yaml"
  | json => "json"
  | toml => "toml"

/-- The format of an extension. Only ASCII letters have two cases here. -/
def ofExtension? (extension : String) : Option LocaleFormat :=
  let folded := String.ofList (extension.toList.map Char.toLower)
  if folded = "yaml" ∨ folded = "yml" then some yaml
  else if folded = "json" then some json
  else if folded = "toml" then some toml
  else none

def ofPath? (path : Path) : Option LocaleFormat :=
  path.extension?.bind ofExtension?

end LocaleFormat

end Phrasebook
