import Phrasebook.Code.Writer
import Phrasebook.Proofs.Analysis
import Phrasebook.Proofs.Emission.Literal

/-!
# Literals of the languages of a schema

A language that agrees with the canonical tree has a literal, and what it denotes is the
tree of the language with its keys in canonical order.
-/

namespace Phrasebook.Emission

open Code Node Script

/-- Properties are found for all canonical entries when there is a literal for each. -/
theorem propertiesAt_eq
    {language entries : List (String × Node)} {path : KeyPath}
    (each : ∀ key expected, (key, expected) ∈ entries → ∃ found,
      List.lookup key language = some found ∧
      literalAt (path ++ [key]) expected found = .ok (literalOf (arranged expected found))) :
    propertiesAt path language entries =
      .ok (propertiesOf (arrangedEntries language entries)) := by
  induction entries with
  | nil => rfl
  | cons entry rest ih =>
      obtain ⟨key, expected⟩ := entry
      obtain ⟨found, present, literal⟩ := each key expected List.mem_cons_self
      have others := ih fun other node member => each other node (List.mem_cons_of_mem _ member)
      rw [propertiesAt, arrangedEntries, present]
      dsimp only
      rw [literal, others]
      rfl

/-- A node that agrees with the canonical one has a literal, that of the arranged node. -/
theorem literalAt_eq
    {expected found : Node} (agree : Agree expected found) (distinct : expected.Distinct)
    (path : KeyPath) : literalAt path expected found = .ok (literalOf (arranged expected found)) := by
  induction agree generalizing path with
  | text expected found => rfl
  | call params => rfl
  | @record isOpen isFound schema incoming keys inner ih =>
      have properties : propertiesAt path incoming schema =
          .ok (propertiesOf (arrangedEntries incoming schema)) := by
        refine propertiesAt_eq fun key expected member => ?_
        obtain ⟨known, found, present⟩ := Entries.lookups_of_mem distinct.here keys member
        exact ⟨found, present,
          ih key expected found known present (distinct.of_mem member) (path ++ [key])⟩
      rw [literalAt, properties]
      rfl

/-- The literal of a language of a schema reads back, with any indentation, as a tree without
prototypes that has the messages of the language and the keys of the canonical tree: at
every path the same message, and at every path the same keys in the same order. -/
theorem read_treeLiteral
    {documents : List (Named Document)} {schema : Schema}
    (accepted : analyze documents = .ok schema) {language : Named Tree}
    (listed : language ∈ schema.languages) (indent : Indent) :
    ∃ literal node, treeLiteral schema.canonical language.value = .ok literal ∧
      Reading.ofCode? ((Writer.fragment literal.fragment {}).render indent) =
        some (readingOf node) ∧
      (∀ path, (node.at? path).map message? = (language.value.toNode.at? path).map message?) ∧
      (∀ path, (node.at? path).map Node.keys = (schema.canonical.toNode.at? path).map Node.keys) := by
  have agree := agree_of_analyze accepted language listed
  have distinct := schema.canonical.distinct_toNode
  refine ⟨literalOf (arranged schema.canonical.toNode language.value.toNode),
    arranged schema.canonical.toNode language.value.toNode, ?_, ?_, agree.message_arranged,
    agree.keys_arranged⟩
  · have literal := literalAt_eq agree distinct []
    rw [Tree.toNode, Tree.toNode, literalAt] at literal
    exact literal
  · exact ofCode?_literalOf (agree.arranged_distinct distinct) indent

/-- A document with a key that is no ordinary property, a text with quotes and line breaks,
and a message with a parameter. -/
def awkward : Document where
  entries := [("__proto__", .string "\"a\n\\"), ("1st, of", .string "\x7b\x7b n \x7d\x7d]")]

theorem analyze_awkward :
    analyze [⟨"en", awkward⟩] =
      .ok ⟨Tree.ofDocument awkward, Tree.ofDocuments [⟨"en", awkward⟩]⟩ := by
  have supported : Document.Supported awkward := Document.observations_eq_nil_iff.mp rfl
  refine analyze_eq_ok_iff.mpr ⟨_, [], rfl, by decide, ?_, ?_, rfl⟩
  · intro document member
    rw [List.mem_singleton.mp member]
    exact supported
  · intro document member
    rw [List.mem_singleton.mp member]
    exact supported.sameShape_self awkward.distinct

/-- Both keys of the awkward document are own properties, in their order. -/
theorem read_awkward_literal :
    ∃ literal node, treeLiteral (Tree.ofDocument awkward) (Tree.ofDocument awkward) = .ok literal ∧
      Reading.ofCode? ((Writer.fragment literal.fragment {}).render .tab) =
        some (readingOf node) ∧
      node.keys = ["__proto__", "1st, of"] := by
  obtain ⟨literal, node, outcome, reads, _, keys⟩ :=
    read_treeLiteral analyze_awkward List.mem_cons_self .tab
  refine ⟨literal, node, outcome, reads, ?_⟩
  exact Option.some.inj (keys [])

end Phrasebook.Emission
