import Phrasebook.Lookup.Message
import Phrasebook.Schema

/-!
# Switching between loaded languages

A provider holds the messages of every language and the name of the current one, which
always is one of them.
-/

namespace Phrasebook

/-- The messages of all languages, and which language is current. -/
structure Provider where
  resources : Entries Tree
  current : String
  current_mem : (resources.lookup current).isSome

namespace Provider

/-- A provider of the given languages; of two that share a name the later one counts. -/
def ofResources (resources : List (Named Tree)) (default : String) : Except Failure Provider :=
  let all := Entries.ofPairs (resources.map fun resource => (resource.name, resource.value))
  if found : (all.lookup default).isSome then .ok ⟨all, default, found⟩
  else .error (.unknownLanguage default)

def ofSchema (schema : Schema) (default : Option String) : Except Failure Provider :=
  match schema.defaultLanguage default with
  | .error failure => .error failure
  | .ok name => ofResources schema.languages name

def languages (provider : Provider) : List String := Entries.keys provider.resources

def setLanguage (name : String) (provider : Provider) : Except Failure Provider :=
  if found : (provider.resources.lookup name).isSome then
    .ok { provider with current := name, current_mem := found }
  else .error (.unknownLanguage name)

def messages (provider : Provider) : Tree :=
  (provider.resources.lookup provider.current).get provider.current_mem

end Provider

end Phrasebook
