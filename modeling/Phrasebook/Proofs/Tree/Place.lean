import Phrasebook.Proofs.Lookup.Message
import Phrasebook.Proofs.Tree.Shape

/-!
# Places of conflicts

A conflict is found on a walk through two trees. What either tree has at the end of its path
can also be looked up afterwards, in one tree at a time, and both ways tell the same: the nodes
at the path are in conflict, or one of them is not there.
-/

namespace Phrasebook

namespace Node

variable {expected found : Node} {path : KeyPath}

/-- Only a record has nodes below it. -/
theorem at?_cons_eq_some {key : String} {rest : KeyPath} {inner : Node} :
    found.at? (key :: rest) = some inner ↔
      ∃ isOpen entries node, found = .record isOpen entries ∧
        List.lookup key entries = some node ∧ node.at? rest = some inner := by
  cases found with
  | record isOpen entries =>
      rw [at?_record_cons, Option.bind_eq_some_iff]
      constructor
      · rintro ⟨node, present, inside⟩
        exact ⟨isOpen, entries, node, rfl, present, inside⟩
      · rintro ⟨_, _, node, ⟨⟩, present, inside⟩
        exact ⟨node, present, inside⟩
  | _ =>
      refine iff_of_false nofun ?_
      rintro ⟨_, _, _, ⟨⟩, _⟩

/-- Where both trees have a node, a conflict is one of these two nodes. -/
theorem conflictAt?_of_at? {one other : Node} (known : expected.at? path = some one)
    (present : found.at? path = some other) :
    conflictAt? expected found path = conflict? one other := by
  induction path generalizing expected found with
  | nil =>
      rw [at?_nil] at known present
      cases known
      cases present
      rfl
  | cons key rest ih =>
      obtain ⟨_, schema, node, rfl, knownHere, knownBelow⟩ := at?_cons_eq_some.mp known
      obtain ⟨_, incoming, inner, rfl, presentHere, presentBelow⟩ := at?_cons_eq_some.mp present
      rw [conflictAt?, knownHere, presentHere]
      exact ih knownBelow presentBelow

/-- The three ways in which two trees are in conflict at a path: both have a node there, or only
the reference tree has one, or only the language. -/
theorem conflictAt?_cases {observation : Observation}
    (conflict : conflictAt? expected found path = some observation) :
    (∃ one other, expected.at? path = some one ∧ found.at? path = some other ∧
      conflict? one other = some observation) ∨
    ((∃ one, expected.at? path = some one) ∧ found.at? path = none ∧
      observation = .notFoundKey .incoming) ∨
    (expected.at? path = none ∧ (∃ other, found.at? path = some other) ∧
      observation = .notFoundKey .canonical) := by
  induction path generalizing expected found with
  | nil =>
      rw [conflictAt?] at conflict
      exact Or.inl ⟨expected, found, at?_nil expected, at?_nil found, conflict⟩
  | cons key rest ih =>
      obtain ⟨_, schema, _, incoming, rfl, rfl⟩ := records_of_conflictAt?_cons conflict
      rw [at?_record_cons, at?_record_cons]
      rcases conflictAt?_cons.mp conflict with
        ⟨node, inner, known, present, below⟩ | ⟨⟨node, known⟩, absent, rfl, rfl⟩ |
        ⟨unknown, ⟨inner, present⟩, rfl, rfl⟩
      · rw [known, present]
        exact ih below
      · rw [known, absent]
        exact Or.inr (Or.inl ⟨⟨node, at?_nil node⟩, rfl, rfl⟩)
      · rw [unknown, present]
        exact Or.inr (Or.inr ⟨rfl, ⟨inner, at?_nil inner⟩, rfl⟩)

/-- A conflict about a missing key lies between the trees and not between two nodes. -/
theorem conflict?_ne_notFoundKey {one other : Node} {side : MissingSide} :
    conflict? one other ≠ some (.notFoundKey side) := by
  intro conflict
  rcases conflict?_cases conflict with ⟨_, _, _, impossible⟩ | impossible
  · cases impossible
  · cases impossible

/-- Any other conflict is one of two nodes. -/
theorem conflictAt?_eq_some_iff {observation : Observation}
    (between : ∀ side, observation ≠ .notFoundKey side) :
    conflictAt? expected found path = some observation ↔
      ∃ one other, expected.at? path = some one ∧ found.at? path = some other ∧
        conflict? one other = some observation := by
  constructor
  · intro conflict
    rcases conflictAt?_cases conflict with nodes | ⟨_, _, lacks⟩ | ⟨_, _, exceeds⟩
    · exact nodes
    · exact absurd lacks (between .incoming)
    · exact absurd exceeds (between .canonical)
  · rintro ⟨one, other, known, present, conflict⟩
    rw [conflictAt?_of_at? known present]
    exact conflict

/-- Two nodes are in conflict about their kinds when these differ. -/
theorem conflict?_eq_mismatchedKind_iff {one other : Node} {kind otherKind : NodeKind} :
    conflict? one other = some (.mismatchedKind kind otherKind) ↔
      one.kind = kind ∧ other.kind = otherKind ∧ otherKind ≠ kind := by
  constructor
  · intro conflict
    by_cases same : one.kind = other.kind
    · rcases conflict?_cases conflict with ⟨_, _, _, impossible⟩ | isKind
      · cases impossible
      · cases one <;> cases other <;> simp_all [conflict?, Node.kind]
    · rw [conflict?_of_kind_ne same] at conflict
      cases conflict
      exact ⟨rfl, rfl, Ne.symm same⟩
  · rintro ⟨rfl, rfl, differs⟩
    exact conflict?_of_kind_ne (Ne.symm differs)

theorem conflictAt?_eq_mismatchedKind_iff {kind otherKind : NodeKind} :
    conflictAt? expected found path = some (.mismatchedKind kind otherKind) ↔
      (expected.at? path).map Node.kind = some kind ∧
        (found.at? path).map Node.kind = some otherKind ∧ otherKind ≠ kind := by
  rw [conflictAt?_eq_some_iff fun _ => Observation.noConfusion]
  simp only [conflict?_eq_mismatchedKind_iff, Option.map_eq_some_iff]
  constructor
  · rintro ⟨one, other, known, present, isKind, isOther, differs⟩
    exact ⟨⟨one, known, isKind⟩, ⟨other, present, isOther⟩, differs⟩
  · rintro ⟨⟨one, known, isKind⟩, ⟨other, present, isOther⟩, differs⟩
    exact ⟨one, other, known, present, isKind, isOther, differs⟩

/-- The parameters of a call. Other nodes have none. -/
def params? : Node → Option (List String)
  | .call body => some (Body.params body)
  | _ => none

theorem params?_eq_some_iff {node : Node} {names : List String} :
    node.params? = some names ↔ ∃ body, node = .call body ∧ Body.params body = names := by
  cases node with
  | call body =>
      constructor
      · rintro ⟨⟩
        exact ⟨body, rfl, rfl⟩
      · rintro ⟨_, ⟨⟩, rfl⟩
        rfl
  | _ => exact iff_of_false nofun (by rintro ⟨_, ⟨⟩, _⟩)

/-- Two nodes are in conflict about their parameters when both are calls and these differ. -/
theorem conflict?_eq_mismatchedArguments_iff {one other : Node} {names otherNames : List String} :
    conflict? one other = some (.mismatchedArguments names otherNames) ↔
      one.params? = some names ∧ other.params? = some otherNames ∧ otherNames ≠ names := by
  rw [params?_eq_some_iff, params?_eq_some_iff]
  constructor
  · intro conflict
    cases one with
    | call body =>
        cases other with
        | call otherBody =>
            rw [conflict?] at conflict
            split at conflict
            · cases conflict
            · rename_i differs
              cases conflict
              rw [← Body.params_eq_sortedParams, ← Body.params_eq_sortedParams]
              exact ⟨⟨body, rfl, rfl⟩, ⟨otherBody, rfl, rfl⟩,
                fun same => differs (Body.params_eq_iff.mp same.symm)⟩
        | _ => cases conflict
    | _ => cases other <;> cases conflict
  · rintro ⟨⟨body, rfl, rfl⟩, ⟨otherBody, rfl, rfl⟩, differs⟩
    rw [conflict?, if_neg fun same => differs (Body.params_eq_iff.mpr same).symm,
      Body.params_eq_sortedParams, Body.params_eq_sortedParams]

theorem conflictAt?_eq_mismatchedArguments_iff {names otherNames : List String} :
    conflictAt? expected found path = some (.mismatchedArguments names otherNames) ↔
      (expected.at? path).bind params? = some names ∧
        (found.at? path).bind params? = some otherNames ∧ otherNames ≠ names := by
  rw [conflictAt?_eq_some_iff fun _ => Observation.noConfusion]
  simp only [conflict?_eq_mismatchedArguments_iff, Option.bind_eq_some_iff]
  constructor
  · rintro ⟨one, other, known, present, isCall, isOther, differs⟩
    exact ⟨⟨one, known, isCall⟩, ⟨other, present, isOther⟩, differs⟩
  · rintro ⟨⟨one, known, isCall⟩, ⟨other, present, isOther⟩, differs⟩
    exact ⟨one, other, known, present, isCall, isOther, differs⟩

/-- A key that a language lacks is one that the reference tree has. -/
theorem at?_of_incoming (conflict : conflictAt? expected found path = some (.notFoundKey .incoming)) :
    (∃ one, expected.at? path = some one) ∧ found.at? path = none := by
  rcases conflictAt?_cases conflict with ⟨_, _, _, _, here⟩ | ⟨known, absent, _⟩ | ⟨_, _, ⟨⟩⟩
  · exact absurd here conflict?_ne_notFoundKey
  · exact ⟨known, absent⟩

/-- A key that a language has beyond the reference tree is not in that tree. -/
theorem at?_of_canonical (conflict : conflictAt? expected found path = some (.notFoundKey .canonical)) :
    expected.at? path = none ∧ ∃ other, found.at? path = some other := by
  rcases conflictAt?_cases conflict with ⟨_, _, _, _, here⟩ | ⟨_, _, ⟨⟩⟩ | ⟨unknown, present, _⟩
  · exact absurd here conflict?_ne_notFoundKey
  · exact ⟨unknown, present⟩

end Node

namespace Tree

/-- The root is the only place that is not looked up. -/
theorem lookup_eq_at? (tree : Tree) {path : KeyPath} (inside : path ≠ []) :
    tree.lookup path = tree.toNode.at? path := by
  cases path with
  | nil => exact absurd rfl inside
  | cons key rest => rw [lookup, lookupIn_cons, toNode, Node.at?_record_cons]

/-- The roots of two trees are never in conflict. -/
theorem ne_nil_of_conflictAt? {reference language : Tree} {path : KeyPath} {observation : Observation}
    (conflict : reference.conflictAt? language path = some observation) : path ≠ [] := by
  rintro rfl
  cases conflict

end Tree

end Phrasebook
