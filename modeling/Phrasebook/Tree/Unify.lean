import Phrasebook.Survey

/-!
# Unification of message trees

The first language fixes the tree that the others are compared with. Open records adopt
the keys of the first language that reaches them; every other difference between a
language and the schema is recorded, and the schema stays as it is.
-/

namespace Phrasebook

namespace Node

/-- Notes what a language lacks or has of another kind, key by key in schema order. -/
def noteLacking (language : String) (incoming : Entries Node) :
    List (String × Node) → Survey Unit
  | [] => .done ()
  | (key, expected) :: rest =>
      (match incoming.lookup key with
        | none => Survey.note language key (.notFoundKey .incoming)
        | some found =>
            if found.kind = expected.kind then .done ()
            else Survey.note language key (.mismatchedKind expected.kind found.kind)).andThen
        fun _ => noteLacking language incoming rest

/-- Keeps a schema node, and notes that a language has another kind there. -/
def keepAgainst (language key : String) (expected : Node) (found : NodeKind) : Survey Node :=
  (Survey.note language key (.mismatchedKind expected.kind found)).andThen fun _ => .done expected

mutual

/-- Merges what a language has at a key into what the schema expects there. -/
def merge (language key : String) : Node → Node → Survey Node
  | expected, .text value =>
      match expected with
      | .text kept => .done (.text kept)
      | other => keepAgainst language key other (Node.text value).kind
  | expected, .call found =>
      match expected with
      | .call body =>
          if Body.params body = Body.params found then .done (.call body)
          else (Survey.note language key (.ofBodies body found)).andThen fun _ => .done (.call body)
      | other => keepAgainst language key other (Node.call found).kind
  | expected, .record found incoming =>
      match expected with
      | .record isOpen schema =>
          (Survey.within key
            ((noteLacking language incoming schema).andThen fun _ =>
              mergeEntries language isOpen schema incoming)).andThen fun merged =>
                .done (.record false merged)
      | other => keepAgainst language key other (Node.record found incoming).kind

/-- Merges the entries of a language into those of a schema in turn. Only an open record
takes keys that it does not have. -/
def mergeEntries (language : String) (isOpen : Bool) (schema : Entries Node) :
    List (String × Node) → Survey (Entries Node)
  | [] => .done schema
  | (key, found) :: rest =>
      match schema.lookup key with
      | some expected =>
          (merge language key expected found).andThen fun merged =>
            mergeEntries language isOpen (Entries.put key merged schema) rest
      | none =>
          if isOpen then mergeEntries language isOpen (Entries.put key found schema) rest
          else (Survey.note language key (.notFoundKey .canonical)).andThen fun _ =>
            mergeEntries language isOpen schema rest

end

/-! Merging keeps the keys distinct. -/

theorem keepAgainst_gives (language key : String) {expected : Node}
    (distinct : expected.Distinct) (found : NodeKind) :
    (keepAgainst language key expected found).Gives Distinct :=
  Survey.gives_andThen fun _ => Survey.gives_done distinct

mutual

theorem merge_gives (language key : String) :
    ∀ (found : Node) {expected : Node}, found.Distinct → expected.Distinct →
      (merge language key expected found).Gives Distinct
  | .text _, .text _, _, expected => Survey.gives_done expected
  | .text _, .call _, _, expected => keepAgainst_gives language key expected _
  | .text _, .record _ _, _, expected => keepAgainst_gives language key expected _
  | .call _, .text _, _, expected => keepAgainst_gives language key expected _
  | .call found, .call body, _, expected => by
      rw [merge]
      split
      · exact Survey.gives_done expected
      · exact Survey.gives_andThen fun _ => Survey.gives_done expected
  | .call _, .record _ _, _, expected => keepAgainst_gives language key expected _
  | .record _ _, .text _, _, expected => keepAgainst_gives language key expected _
  | .record _ _, .call _, _, expected => keepAgainst_gives language key expected _
  | .record _ incoming, .record isOpen _, found, expected =>
      have entries := mergeEntries_gives language isOpen incoming
        (fun _ _ => found.of_mem) (.record expected.here fun _ _ => expected.of_mem)
      (Survey.Gives.within (Survey.gives_andThen fun _ => entries) key).andThen
        fun _ merged => Survey.gives_done merged

theorem mergeEntries_gives (language : String) (isOpen : Bool) :
    ∀ (incoming : List (String × Node)) {schema : Entries Node},
      (∀ key node, (key, node) ∈ incoming → node.Distinct) → DistinctIn schema →
      (mergeEntries language isOpen schema incoming).Gives DistinctIn
  | [], _, _, distinct => Survey.gives_done distinct
  | (key, found) :: rest, schema, inner, distinct => by
      have here := inner key found List.mem_cons_self
      have later : ∀ other node, (other, node) ∈ rest → node.Distinct :=
        fun other node member => inner other node (List.mem_cons_of_mem _ member)
      rw [mergeEntries]
      split
      · rename_i expected known
        exact (merge_gives language key found here (distinct.of_lookup known)).andThen
          fun _ merged => mergeEntries_gives language isOpen rest later (distinct.put merged key)
      · split
        · exact mergeEntries_gives language isOpen rest later (distinct.put here key)
        · exact Survey.gives_andThen fun _ =>
            mergeEntries_gives language isOpen rest later distinct

end

end Node

namespace Tree

/-- Merges a language into the schema. A schema that a language was merged into is settled. -/
def merge (language : String) (schema incoming : Tree) : Survey Tree :=
  ((Node.noteLacking language incoming.entries schema.entries).andThen fun _ =>
    (Node.mergeEntries language schema.isOpen schema.entries incoming.entries).attach
      (Node.mergeEntries_gives language schema.isOpen incoming.entries
        (fun _ _ => incoming.distinct.of_mem) schema.distinct)).andThen fun merged =>
      .done (ofRecord merged)

def mergeAll (schema : Tree) :
    List (Named Tree) → Diagnostics → Except Failure Tree × Diagnostics
  | [], diagnostics => (.ok schema, diagnostics)
  | first :: rest, diagnostics =>
      match (merge first.name schema first.value).run diagnostics with
      | (.error failure, recorded) => (.error failure, recorded)
      | (.ok merged, recorded) => mergeAll merged rest recorded

/-- The schema of all languages, and the diagnostics with what was recorded on the way. -/
def unified (trees : List (Named Tree)) (diagnostics : Diagnostics) :
    Except Failure Tree × Diagnostics :=
  if trees.isEmpty then (.error .noLanguages, diagnostics)
  else match repeated? [] (trees.map Named.name) with
    | some name => (.error (.duplicateLanguage name), diagnostics)
    | none =>
        match mergeAll unconstrained trees diagnostics with
        | (.error failure, all) => (.error failure, all)
        | (.ok schema, all) =>
            if schema.isOpen then (.error .unconstrainedSchema, all) else (.ok schema, all)

/-- The schema of all languages, with the diagnostics that their differences add. -/
def unify (trees : List (Named Tree)) (diagnostics : Diagnostics) :
    Except Failure (Tree × Diagnostics) :=
  match unified trees diagnostics with
  | (.error failure, _) => .error failure
  | (.ok schema, all) => .ok (schema, all)

end Tree

end Phrasebook
