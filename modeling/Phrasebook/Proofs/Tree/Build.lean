import Phrasebook.Proofs.Entries
import Phrasebook.Proofs.Survey
import Phrasebook.Tree.OfDocument

/-!
# Building trees

The survey of a document succeeds, gives the tree of its messages, and records the values
that cannot be messages, each once and in document order.
-/

namespace Phrasebook

/-- What a document's values give to record, with their paths. -/
def Value.observed (values : List (KeyPath × Value)) : List (KeyPath × Observation) :=
  values.map fun (path, value) => (path, .ofValue value)

theorem Value.observed_append (front back : List (KeyPath × Value)) :
    Value.observed (front ++ back) = Value.observed front ++ Value.observed back :=
  List.map_append

namespace Node

/-- The record after the node for a value, if there is one, was added under a new key. -/
def withValue (key : String) (record : Entries Node) (value : Value) : Entries Node :=
  match ofValue? value with
  | some node => record ++ [(key, node)]
  | none => record

mutual

theorem putValue_sees (language key : String) (record : Entries Node) :
    ∀ value : Value, value.Distinct → key ∉ Entries.keys record →
      (putValue language key record value).Sees language (withValue key record value)
        fun path => Value.observed (value.unsupported (path ++ [key]))
  | .string written, _, fresh => by
      rw [putValue, Entries.put_of_not_mem fresh]
      exact Survey.sees_done language _
  | .number it, _, fresh => by
      rw [putValue, Entries.put_of_not_mem fresh]
      exact Survey.sees_done language _
  | .mapping entries, distinct, fresh => by
      cases distinct with
      | mapping keys inner =>
          have below := putValues_sees language [] entries keys inner
            (fun key _ member => List.not_mem_nil member)
          have nested := (below.within key).andThen_done
            fun nested => Entries.put key (.record false nested) record
          rw [Entries.put_of_not_mem fresh] at nested
          exact nested
  | .boolean value, _, _ => (Survey.sees_note language key _).andThen_done fun _ => record
  | .sequence items, _, _ => (Survey.sees_note language key _).andThen_done fun _ => record
  | .null, _, _ => (Survey.sees_note language key _).andThen_done fun _ => record

/-- Entries with new keys are added in document order. -/
theorem putValues_sees (language : String) (record : Entries Node) :
    ∀ entries : List (String × Value), (Entries.keys entries).Nodup →
      (∀ key value, (key, value) ∈ entries → value.Distinct) →
      (∀ key ∈ Entries.keys entries, key ∉ Entries.keys record) →
      (putValues language record entries).Sees language (record ++ ofEntries entries)
        fun path => Value.observed (Value.unsupportedInEntries path entries)
  | [], _, _, _ => by
      rw [putValues, ofEntries, List.append_nil]
      exact Survey.sees_done language record
  | (key, value) :: rest, keys, inner, fresh => by
      rw [Entries.keys_cons, List.nodup_cons] at keys
      have first := putValue_sees language key record value
        (inner key value List.mem_cons_self) (fresh key List.mem_cons_self)
      have restFresh : ∀ other ∈ Entries.keys rest,
          other ∉ Entries.keys (withValue key record value) := by
        intro other member
        have apart := fresh other (List.mem_cons_of_mem _ member)
        unfold withValue
        split
        · rw [Entries.keys_append, List.mem_append, not_or]
          refine ⟨apart, fun same => keys.1 ?_⟩
          rwa [List.mem_singleton.mp same] at member
        · exact apart
      have others := putValues_sees language (withValue key record value) rest keys.2
        (fun other value member => inner other value (List.mem_cons_of_mem _ member)) restFresh
      have joined : withValue key record value ++ ofEntries rest =
          record ++ ofEntries ((key, value) :: rest) := by
        rw [withValue, ofEntries]
        cases ofValue? value with
        | none => rfl
        | some node => exact List.append_assoc _ _ _
      rw [joined] at others
      simp only [putValues, Value.unsupportedInEntries, Value.observed_append]
      exact first.andThen others

end

end Node

namespace Tree

/-- The survey of a document never fails: it gives what building gives. -/
theorem surveyed_eq_build
    (language : String) (document : Document) (diagnostics : Diagnostics) :
    Tree.surveyed language document diagnostics =
      (.ok (Tree.build language document diagnostics).1,
        (Tree.build language document diagnostics).2) := by
  cases document.distinct with
  | mapping keys inner =>
      have sees := Node.putValues_sees language [] document.entries keys inner
        (fun key _ member => List.not_mem_nil member)
      have built := (sees.attach (Node.putValues_gives language document.entries
        Node.distinctIn_nil)).andThen_done Tree.ofRecord
      rw [Tree.surveyed, built.run]
      rfl

/-- Building all trees never fails: each document gives its tree, and adds what it gives to
record. -/
theorem buildAll_eq (documents : List (Named Document)) (diagnostics : Diagnostics) :
    Tree.buildAll documents diagnostics =
      (.ok (documents.map (Named.map Tree.ofDocument)),
        documents.foldl (fun all document =>
          all.recordAll document.name (Document.observations document.value)) diagnostics) := by
  induction documents generalizing diagnostics with
  | nil => rfl
  | cons first rest ih =>
      rw [Tree.buildAll, surveyed_eq_build]
      dsimp only
      rw [ih]
      rfl

end Tree

end Phrasebook
