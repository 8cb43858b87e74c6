import Phrasebook.Diagnostic

/-!
# Differences between message trees

What is observed when the tree of a language is compared with a schema, and what the schema
becomes: open records adopt the keys of the language, all others stay as they are.
-/

namespace Phrasebook

namespace Node

/-- What a language lacks or has of another kind, key by key in schema order. -/
def lacking (path : KeyPath) (incoming : List (String × Node)) :
    List (String × Node) → List (KeyPath × Observation)
  | [] => []
  | (key, expected) :: rest =>
      (match incoming.lookup key with
        | none => [(path ++ [key], .notFoundKey .incoming)]
        | some found =>
            if found.kind = expected.kind then []
            else [(path ++ [key], .mismatchedKind expected.kind found.kind)]) ++
        lacking path incoming rest

mutual

/-- What is observed when a language has `found` where the schema has `expected`. -/
def differences (path : KeyPath) : Node → Node → List (KeyPath × Observation)
  | expected, .text value =>
      match expected with
      | .text _ => []
      | other => [(path, .mismatchedKind other.kind (Node.text value).kind)]
  | expected, .call found =>
      match expected with
      | .call body =>
          if Body.params body = Body.params found then []
          else [(path, .ofBodies body found)]
      | other => [(path, .mismatchedKind other.kind (Node.call found).kind)]
  | expected, .record found incoming =>
      match expected with
      | .record isOpen schema =>
          lacking path incoming schema ++ surplus path isOpen schema incoming
      | other => [(path, .mismatchedKind other.kind (Node.record found incoming).kind)]

/-- What is observed key by key in the order of the language: keys that a settled schema
does not have, and differences below the keys that it has. -/
def surplus (path : KeyPath) (isOpen : Bool) (schema : List (String × Node)) :
    List (String × Node) → List (KeyPath × Observation)
  | [] => []
  | (key, found) :: rest =>
      (match schema.lookup key with
        | some expected => differences (path ++ [key]) expected found
        | none => if isOpen then [] else [(path ++ [key], .notFoundKey .canonical)]) ++
        surplus path isOpen schema rest

end

/-- The entries of a language whose keys the schema does not have. -/
def unknownEntries (schema incoming : List (String × Node)) : List (String × Node) :=
  incoming.filter fun entry => (schema.lookup entry.1).isNone

mutual

/-- The schema node after a language has been merged into it: open records that the
language reaches have adopted its keys and are settled. -/
def adopt : Node → Node → Node
  | .record isOpen schema, .record _ incoming =>
      .record false
        (adoptEntries incoming schema ++ if isOpen then unknownEntries schema incoming else [])
  | expected, _ => expected

def adoptEntries (incoming : List (String × Node)) : List (String × Node) → List (String × Node)
  | [] => []
  | (key, expected) :: rest =>
      (key, match incoming.lookup key with
        | some found => expected.adopt found
        | none => expected) :: adoptEntries incoming rest

end

end Node

namespace Tree

/-- Everything observed when a language is compared with the schema. -/
def differences (schema incoming : Tree) : List (KeyPath × Observation) :=
  Node.differences [] schema.toNode incoming.toNode

end Tree

end Phrasebook
