import Phrasebook.Proofs.Tree.Agreement
import Phrasebook.Proofs.Tree.FirstLanguage

/-!
# Open records in finished schemas

The root of a schema is settled by the first language, but the records below it are taken over as
the languages have them, open ones included. An open record in the schema is settled by the next
language that has a record in its place. When none comes, it is still open at the end. So a
schema is settled exactly when every open record that a language brings is met by a later one.
-/

namespace Phrasebook

namespace Node

/-- At the end of the path stands a record. -/
def RecordAt (node : Node) (path : KeyPath) : Prop :=
  ∃ isOpen entries, node.at? path = some (.record isOpen entries)

/-- At the end of the path stands an open record. -/
def OpenAt (node : Node) (path : KeyPath) : Prop :=
  ∃ entries, node.at? path = some (.record true entries)

theorem Every.at? {property : Bool → List (String × Node) → Prop} {node inner : Node}
    {path : KeyPath} (every : node.Every property) (present : node.at? path = some inner) :
    inner.Every property := by
  induction path generalizing node with
  | nil =>
      rw [at?_nil] at present
      cases present
      exact every
  | cons key rest ih =>
      cases node with
      | record isOpen entries =>
          rw [at?_record_cons, Option.bind_eq_some_iff] at present
          obtain ⟨next, known, below⟩ := present
          exact ih (every.of_lookup known) below
      | _ => cases present

/-- A node with an open record has one at some path. -/
theorem settled_iff {node : Node} (distinct : node.Distinct) :
    node.Settled ↔ ∀ path, ¬ node.OpenAt path := by
  constructor
  · rintro settled path ⟨entries, present⟩
    have closed : true = false := (settled.at? present).here
    cases closed
  · intro closed
    induction distinct with
    | text value => exact .text value
    | call body => exact .call body
    | @record isOpen entries keys inner ih =>
        refine .record ?_ fun key node member => ih key node member fun path isOpen => ?_
        · cases isOpen with
          | false => rfl
          | true => exact absurd ⟨entries, at?_nil _⟩ (closed [])
        · obtain ⟨below, present⟩ := isOpen
          refine closed (key :: path) ⟨below, ?_⟩
          rw [at?_record_cons, Entries.lookup_of_mem keys member]
          exact present

/-! ## What merging leaves -/

/-- A record of the merged tree is open in two cases: it was, and the language has no record in
its place; or it was not there, and the language brings it as it is. -/
theorem openAt_adopt {expected found : Node} {path : KeyPath} :
    (expected.adopt found).OpenAt path ↔
      (expected.OpenAt path ∧ ¬ found.RecordAt path) ∨
        (expected.at? path = none ∧ (expected.adopt found).at? path ≠ none ∧
          found.OpenAt path) := by
  induction path generalizing expected found with
  | nil =>
      have there : expected.at? [] ≠ none := by
        rw [at?_nil]
        exact Option.some_ne_none expected
      rw [or_iff_left fun brought => there brought.1]
      simp only [OpenAt, RecordAt, at?_nil, Option.some.injEq]
      cases expected with
      | record isOpen schema =>
          cases found with
          | record isFound incoming =>
              rw [adopt_records]
              simp
          | _ => simp [adopt]
      | _ => cases found <;> simp [adopt]
  | cons key rest ih =>
      cases expected with
      | record isOpen schema =>
          cases found with
          | record isFound incoming =>
              simp only [adopt_records, OpenAt, RecordAt, at?_record_cons, lookup_mergedEntries]
              cases schema.lookup key with
              | some one =>
                  cases incoming.lookup key with
                  | some other => exact ih
                  | none => simp
              | none =>
                  cases isOpen with
                  | true =>
                      have found (below : List (String × Node)) (there :
                          ((incoming.lookup key).bind fun node => node.at? rest) =
                            some (.record true below)) :
                          ((incoming.lookup key).bind fun node => node.at? rest) ≠ none :=
                        there ▸ Option.some_ne_none _
                      simpa using found
                  | false => simp
          | _ => simp [adopt, OpenAt, RecordAt, at?]
      | _ => cases found <;> simp [adopt, OpenAt, at?]

end Node

namespace Tree

/-- At the end of the path stands a record. -/
def RecordAt (tree : Tree) (path : KeyPath) : Prop := tree.toNode.RecordAt path

/-- At the end of the path stands an open record. -/
def OpenAt (tree : Tree) (path : KeyPath) : Prop := tree.toNode.OpenAt path

/-- The schema after some languages. -/
def schemaAfter (languages : List (Named Tree)) : Tree :=
  languages.foldl (fun schema language => schema.adopt language.value) unconstrained

theorem schemaAfter_concat (past : List (Named Tree)) (language : Named Tree) :
    schemaAfter (past ++ [language]) = (schemaAfter past).adopt language.value := by
  rw [schemaAfter, List.foldl_concat]
  rfl

/-- A language brings an open record: there is nothing in its place before, and it stays there. -/
def BringsOpen (past : List (Named Tree)) (language : Named Tree) (path : KeyPath) : Prop :=
  (schemaAfter past).toNode.at? path = none ∧
    (schemaAfter (past ++ [language])).toNode.at? path ≠ none ∧ language.value.OpenAt path

theorem openAt_unconstrained {path : KeyPath} : unconstrained.OpenAt path ↔ path = [] := by
  cases path with
  | nil => exact iff_of_true ⟨[], Node.at?_nil _⟩ rfl
  | cons key rest => exact iff_of_false (fun ⟨_, present⟩ => nomatch present) (List.cons_ne_nil _ _)

/-- What is open in the schema was brought by a language, and no later one has a record there. Only
before the first language the root is open as well. -/
theorem openAt_schemaAfter {languages : List (Named Tree)} {path : KeyPath} :
    (schemaAfter languages).OpenAt path ↔
      (languages = [] ∧ path = []) ∨
        ∃ past language coming, languages = past ++ language :: coming ∧
          BringsOpen past language path ∧ ∀ later ∈ coming, ¬ later.value.RecordAt path := by
  induction languages using List.reverseRecOn with
  | nil =>
      refine openAt_unconstrained.trans ⟨fun root => Or.inl ⟨rfl, root⟩, ?_⟩
      rintro (⟨_, root⟩ | ⟨past, language, coming, split, _⟩)
      · exact root
      · exact absurd split.symm (by simp)
  | append_singleton front last ih =>
      rw [OpenAt, schemaAfter_concat, toNode_adopt, Node.openAt_adopt]
      constructor
      · rintro (⟨stays, unmet⟩ | ⟨absent, there, isOpen⟩)
        · refine Or.inr ?_
          rcases ih.mp stays with ⟨_, rfl⟩ | ⟨past, language, coming, rfl, brings, none⟩
          · exact absurd ⟨_, _, Node.at?_nil _⟩ unmet
          · refine ⟨past, language, coming ++ [last], by simp, brings, fun later member => ?_⟩
            rcases List.mem_append.mp member with before | here
            · exact none later before
            · rw [List.mem_singleton.mp here]
              exact unmet
        · refine Or.inr ⟨front, last, [], rfl, ⟨absent, ?_, isOpen⟩, by simp⟩
          rw [schemaAfter_concat]
          exact there
      · rintro (⟨empty, _⟩ | ⟨past, language, coming, split, brings, none⟩)
        · exact absurd empty (by simp)
        · rcases List.eq_nil_or_concat coming with rfl | ⟨between, final, rfl⟩
          · obtain ⟨rfl, same⟩ := List.append_inj' split rfl
            cases same
            obtain ⟨absent, there, isOpen⟩ := brings
            rw [schemaAfter_concat] at there
            exact Or.inr ⟨absent, there, isOpen⟩
          · rw [List.concat_eq_append, ← List.cons_append, ← List.append_assoc] at split
            obtain ⟨rfl, same⟩ := List.append_inj' split rfl
            cases same
            refine Or.inl ⟨ih.mpr (Or.inr ⟨past, language, between, rfl, brings, ?_⟩), ?_⟩
            · exact fun later member => none later (by simp [member])
            · exact none last (by simp)

theorem mergeAll_eq
    (schema : Tree) (languages : List (Named Tree)) (diagnostics : Diagnostics) :
    (mergeAll schema languages diagnostics).1 =
      .ok (languages.foldl (fun schema language => schema.adopt language.value) schema) := by
  induction languages generalizing schema diagnostics with
  | nil => rfl
  | cons language rest ih =>
      rw [mergeAll, run_merge, List.foldl_cons]
      exact ih _ _

/-- Languages with distinct names are unified, open records or not. -/
theorem unified_eq_schemaAfter {trees : List (Named Tree)} (nonempty : trees ≠ [])
    (names : (trees.map Named.name).Nodup) (diagnostics : Diagnostics) :
    (unified trees diagnostics).1 = .ok (schemaAfter trees) := by
  have merged := mergeAll_eq unconstrained trees diagnostics
  have closed : (schemaAfter trees).isOpen = false := by
    rcases List.eq_nil_or_concat trees with rfl | ⟨past, last, rfl⟩
    · exact absurd rfl nonempty
    · rw [List.concat_eq_append, schemaAfter_concat]
      rfl
  rw [unified, if_neg fun empty => nonempty (List.isEmpty_iff.mp empty),
    repeated?_eq_none_iff.mpr names]
  dsimp only
  split
  · rename_i failed
    rw [failed] at merged
    cases merged
  · rename_i finished
    rw [finished] at merged
    cases merged
    rw [schemaAfter] at closed
    simp [closed, schemaAfter]

/-- Unifying languages with distinct names gives a schema, whatever records are open in them. The
schema is settled exactly when every open record that a language brings is met by a later language
with a record in its place. -/
theorem unified_settled_iff {trees : List (Named Tree)} (nonempty : trees ≠ [])
    (names : (trees.map Named.name).Nodup) (diagnostics : Diagnostics) :
    ∃ schema, (unified trees diagnostics).1 = .ok schema ∧
      (schema.Settled ↔ ∀ past language coming path, trees = past ++ language :: coming →
        BringsOpen past language path → ∃ later ∈ coming, later.value.RecordAt path) := by
  refine ⟨schemaAfter trees, unified_eq_schemaAfter nonempty names diagnostics, ?_⟩
  rw [Settled, Node.settled_iff (schemaAfter trees).distinct_toNode]
  constructor
  · intro settled past language coming path split brings
    by_contra unmet
    refine settled path (openAt_schemaAfter.mpr (Or.inr ⟨past, language, coming, split, brings, ?_⟩))
    exact fun later member isRecord => unmet ⟨later, member, isRecord⟩
  · intro met path isOpen
    rcases openAt_schemaAfter.mp isOpen with
      ⟨empty, _⟩ | ⟨past, language, coming, split, brings, unmet⟩
    · exact nonempty empty
    · obtain ⟨later, member, isRecord⟩ := met past language coming path split brings
      exact unmet later member isRecord

/-- A menu whose keys no language has fixed. -/
def openMenu : Tree := { entries := [("menu", .record true [])] }

/-- An open menu, and a text in its place. -/
def unmetMenus : List (Named Tree) :=
  [⟨"en", openMenu⟩, ⟨"zh", { entries := [("menu", .text "菜单")] }⟩]

/-- A text does not meet the open menu, so the schema is not settled. -/
theorem unified_unmet_menu :
    unmetMenus ≠ [] ∧ (unmetMenus.map Named.name).Nodup ∧
      ∃ schema, (unified unmetMenus []).1 = .ok schema ∧ ¬ schema.Settled := by
  have nonempty : unmetMenus ≠ [] := List.cons_ne_nil _ _
  have names : (unmetMenus.map Named.name).Nodup := by decide
  obtain ⟨schema, outcome, settled⟩ := unified_settled_iff nonempty names []
  refine ⟨nonempty, names, schema, outcome, fun closed => ?_⟩
  have brings : BringsOpen [] ⟨"en", openMenu⟩ ["menu"] :=
    ⟨rfl, Option.some_ne_none _, [], rfl⟩
  obtain ⟨later, member, isOpen, entries, present⟩ :=
    settled.mp closed [] ⟨"en", openMenu⟩ _ ["menu"] rfl brings
  cases List.mem_singleton.mp member
  cases present

/-- Unification does not settle every record: the only language leaves its open menu in the
schema. -/
theorem unified_not_always_settled :
    ¬ ∀ trees : List (Named Tree), trees ≠ [] → (trees.map Named.name).Nodup →
      ∀ schema, (unified trees []).1 = .ok schema → schema.Settled := by
  intro always
  have settled := always [⟨"en", openMenu⟩] (by decide) (by decide) openMenu rfl
  exact absurd settled (by decide)

end Tree

end Phrasebook
