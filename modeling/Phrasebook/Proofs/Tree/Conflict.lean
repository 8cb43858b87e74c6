import Mathlib.Data.Finset.Sort
import Mathlib.Data.String.Basic
import Phrasebook.Proofs.Entries
import Phrasebook.Tree.Difference

/-!
# Conflicts between two trees

The conflict of a reference tree with a language at a path, read off the two trees alone:
both must have records all the way to the last key. The differences that merging observes
are exactly these conflicts.
-/

namespace Phrasebook

namespace Body

/-- The set of parameters of a call. -/
def paramSet (body : Body) : Finset String := body.paramsInOrder.toFinset

/-- The parameters of a call, each once and in increasing order. -/
def sortedParams (body : Body) : List String := body.paramSet.sort (· ≤ ·)

theorem mem_insertName {name other : String} {names : List String} :
    other ∈ insertName name names ↔ other = name ∨ other ∈ names := by
  induction names with
  | nil => simp [insertName]
  | cons first rest ih =>
      rw [insertName]
      split
      · simp
      · split
        · rename_i same
          subst same
          simp
        · rw [List.mem_cons, ih, List.mem_cons]
          exact or_left_comm

theorem insertName_sorted {name : String} {names : List String}
    (sorted : names.Pairwise (· < ·)) : (insertName name names).Pairwise (· < ·) := by
  induction names with
  | nil => simp [insertName]
  | cons first rest ih =>
      rw [List.pairwise_cons] at sorted
      rw [insertName]
      split
      · rename_i smaller
        refine List.pairwise_cons.mpr ⟨?_, List.pairwise_cons.mpr sorted⟩
        intro other member
        rcases List.mem_cons.mp member with rfl | later
        · exact smaller
        · exact smaller.trans (sorted.1 other later)
      · rename_i notSmaller
        split
        · exact List.pairwise_cons.mpr sorted
        · rename_i differs
          refine List.pairwise_cons.mpr ⟨?_, ih sorted.2⟩
          intro other member
          rcases mem_insertName.mp member with rfl | later
          · exact lt_of_le_of_ne (not_lt.mp notSmaller) (Ne.symm differs)
          · exact sorted.1 other later

theorem mem_params {name : String} {body : Body} :
    name ∈ body.params ↔ name ∈ body.paramsInOrder := by
  rw [params]
  induction body.paramsInOrder with
  | nil => simp
  | cons first rest ih => rw [List.foldr_cons, mem_insertName, ih, List.mem_cons]

theorem params_sorted (body : Body) : body.params.Pairwise (· < ·) := by
  rw [params]
  induction body.paramsInOrder with
  | nil => exact List.Pairwise.nil
  | cons first rest ih => exact insertName_sorted ih

theorem toFinset_params (body : Body) : body.params.toFinset = body.paramSet := by
  ext name
  rw [paramSet, List.mem_toFinset, List.mem_toFinset, mem_params]

/-- The parameter list is the sorted set of parameters. -/
theorem params_eq_sortedParams (body : Body) : body.params = body.sortedParams := by
  have nodup : body.params.Nodup := (params_sorted body).imp fun smaller => ne_of_lt smaller
  have sorted : body.params.Pairwise (· ≤ ·) := (params_sorted body).imp fun smaller => le_of_lt smaller
  rw [sortedParams, ← toFinset_params]
  exact ((List.toFinset_sort (· ≤ ·) nodup).mpr sorted).symm

/-- Parameter lists agree exactly when the sets of parameters do. -/
theorem params_eq_iff {body other : Body} :
    body.params = other.params ↔ body.paramSet = other.paramSet := by
  constructor
  · intro same
    rw [← toFinset_params, ← toFinset_params, same]
  · intro same
    rw [params_eq_sortedParams, params_eq_sortedParams, sortedParams, sortedParams, same]

end Body

namespace Node

/-- The conflict of two nodes at one place, whatever is below them. -/
def conflict? : Node → Node → Option Observation
  | .call body, .call found =>
      if Body.paramSet body = Body.paramSet found then none
      else some (.mismatchedArguments (Body.sortedParams body) (Body.sortedParams found))
  | expected, found =>
      if expected.kind = found.kind then none
      else some (.mismatchedKind expected.kind found.kind)

/-- The conflict of two nodes at the end of a path that leads through records of both. Where
only one of them has the last key, the other lacks it. -/
def conflictAt? : Node → Node → KeyPath → Option Observation
  | expected, found, [] => conflict? expected found
  | .record _ schema, .record _ incoming, key :: rest =>
      match schema.lookup key, incoming.lookup key with
      | some expected, some found => conflictAt? expected found rest
      | some _, none => if rest = [] then some (.notFoundKey .incoming) else none
      | none, some _ => if rest = [] then some (.notFoundKey .canonical) else none
      | none, none => none
  | _, _, _ :: _ => none

/-! ## The differences are the conflicts -/

theorem mem_lacking
    {path place : KeyPath} {observation : Observation} {schema incoming : List (String × Node)} :
    (place, observation) ∈ lacking path incoming schema ↔
      ∃ key expected, (key, expected) ∈ schema ∧ place = path ++ [key] ∧
        ((List.lookup key incoming = none ∧ observation = .notFoundKey .incoming) ∨
          ∃ found, List.lookup key incoming = some found ∧ expected.kind ≠ found.kind ∧
            observation = .mismatchedKind expected.kind found.kind) := by
  induction schema with
  | nil => simp [lacking]
  | cons entry rest ih =>
      obtain ⟨key, expected⟩ := entry
      rw [lacking, List.mem_append, ih, Entries.exists_mem_cons]
      refine or_congr_left ?_
      cases List.lookup key incoming with
      | none => simp
      | some found =>
          by_cases same : found.kind = expected.kind
          · simp [same]
          · simp [same, Ne.symm same]

theorem mem_surplus
    {path place : KeyPath} {observation : Observation} {schema incoming : List (String × Node)} :
    (place, observation) ∈ surplus path false schema incoming ↔
      ∃ key found, (key, found) ∈ incoming ∧
        ((∃ expected, List.lookup key schema = some expected ∧
            (place, observation) ∈ differences (path ++ [key]) expected found) ∨
          (List.lookup key schema = none ∧ place = path ++ [key] ∧
            observation = .notFoundKey .canonical)) := by
  induction incoming with
  | nil => simp [surplus]
  | cons entry rest ih =>
      obtain ⟨key, found⟩ := entry
      rw [surplus, List.mem_append, ih, Entries.exists_mem_cons]
      refine or_congr_left ?_
      cases List.lookup key schema with
      | none => simp
      | some expected => simp

/-- Below the root of two nodes a conflict lies at or below a key that both or one of them
have. -/
theorem conflictAt?_cons
    {isOpen isFound : Bool} {schema incoming : List (String × Node)} {key : String}
    {rest : KeyPath} {observation : Observation} :
    conflictAt? (.record isOpen schema) (.record isFound incoming) (key :: rest) =
        some observation ↔
      (∃ expected found, List.lookup key schema = some expected ∧
        List.lookup key incoming = some found ∧
        conflictAt? expected found rest = some observation) ∨
      ((∃ expected, List.lookup key schema = some expected) ∧ List.lookup key incoming = none ∧
        rest = [] ∧ observation = .notFoundKey .incoming) ∨
      (List.lookup key schema = none ∧ (∃ found, List.lookup key incoming = some found) ∧
        rest = [] ∧ observation = .notFoundKey .canonical) := by
  rw [conflictAt?]
  cases List.lookup key schema with
  | none =>
      cases List.lookup key incoming with
      | none => simp
      | some found => by_cases last : rest = [] <;> simp [last, eq_comm]
  | some expected =>
      cases List.lookup key incoming with
      | none => by_cases last : rest = [] <;> simp [last, eq_comm]
      | some found => simp

/-- Kinds that differ are a conflict by themselves. -/
theorem conflict?_of_kind_ne {expected found : Node} (differs : expected.kind ≠ found.kind) :
    conflict? expected found = some (.mismatchedKind expected.kind found.kind) := by
  cases expected <;> cases found <;> simp_all [conflict?, kind]

/-- A conflict at the place itself is about the kinds, or about the parameters of two calls. -/
theorem conflict?_cases
    {expected found : Node} {observation : Observation}
    (conflict : conflict? expected found = some observation) :
    (∃ body other, expected = .call body ∧
      observation = .mismatchedArguments (Body.sortedParams body) other) ∨
    observation = .mismatchedKind expected.kind found.kind := by
  by_cases same : expected.kind = found.kind
  · cases expected with
    | call body =>
        cases found with
        | call other =>
            rw [conflict?] at conflict
            split at conflict
            · cases conflict
            · exact Or.inl ⟨body, Body.sortedParams other, rfl, (Option.some.inj conflict).symm⟩
        | _ => cases same
    | _ => cases found <;> simp_all [conflict?, kind]
  · rw [conflict?_of_kind_ne same] at conflict
    exact Or.inr (Option.some.inj conflict).symm

/-- Only records have something below them. -/
theorem records_of_conflictAt?_cons
    {expected found : Node} {key : String} {rest : KeyPath} {observation : Observation}
    (conflict : conflictAt? expected found (key :: rest) = some observation) :
    ∃ isOpen schema isFound incoming,
      expected = .record isOpen schema ∧ found = .record isFound incoming := by
  cases expected <;> cases found <;> simp_all [conflictAt?]

/-- Records have no conflict at any path exactly when they have the same keys and no conflict
below a common key. -/
theorem forall_conflictAt?_of_records
    {isOpen isFound : Bool} {schema incoming : List (String × Node)} :
    (∀ path, conflictAt? (.record isOpen schema) (.record isFound incoming) path = none) ↔
      (∀ key, key ∈ Entries.keys schema ↔ key ∈ Entries.keys incoming) ∧
        ∀ key expected found, List.lookup key schema = some expected →
          List.lookup key incoming = some found → ∀ path, conflictAt? expected found path = none := by
  constructor
  · intro agree
    have refuted : ∀ {path observation},
        conflictAt? (.record isOpen schema) (.record isFound incoming) path ≠ some observation := by
      intro path observation conflict
      rw [agree path] at conflict
      cases conflict
    refine ⟨fun key => ⟨?_, ?_⟩, ?_⟩
    · intro member
      by_contra absent
      exact refuted (conflictAt?_cons.mpr (Or.inr (Or.inl
        ⟨Entries.exists_lookup_of_mem_keys member, Entries.lookup_eq_none.mpr absent, rfl, rfl⟩)))
    · intro member
      by_contra absent
      exact refuted (conflictAt?_cons.mpr (Or.inr (Or.inr
        ⟨Entries.lookup_eq_none.mpr absent, Entries.exists_lookup_of_mem_keys member, rfl, rfl⟩)))
    · intro key expected found known present path
      rw [Option.eq_none_iff_forall_ne_some]
      intro observation conflict
      exact refuted (conflictAt?_cons.mpr (Or.inl ⟨expected, found, known, present, conflict⟩))
  · rintro ⟨keys, inner⟩ path
    cases path with
    | nil => rfl
    | cons key rest =>
        rw [Option.eq_none_iff_forall_ne_some]
        intro observation conflict
        rcases conflictAt?_cons.mp conflict with
          ⟨expected, found, known, present, below⟩ | ⟨⟨_, known⟩, absent, _⟩ | ⟨absent, ⟨_, known⟩, _⟩
        · rw [inner key expected found known present rest] at below
          cases below
        · exact Entries.lookup_eq_none.mp absent ((keys key).mp (Entries.mem_keys_of_lookup known))
        · exact Entries.lookup_eq_none.mp absent ((keys key).mpr (Entries.mem_keys_of_lookup known))

/-- Where one of two nodes is a leaf, the only conflict is the one at the place itself. -/
theorem mem_differences_of_leaf
    {expected found : Node} {path place : KeyPath} {observation : Observation}
    (here : differences path expected found =
      ((conflict? expected found).map fun conflict => (path, conflict)).toList)
    (nothingBelow : ∀ key rest, conflictAt? expected found (key :: rest) = none) :
    (place, observation) ∈ differences path expected found ↔
      ∃ below, place = path ++ below ∧ conflictAt? expected found below = some observation := by
  rw [here, Option.mem_toList, Option.map_eq_some_iff]
  constructor
  · rintro ⟨conflict, present, same⟩
    cases same
    exact ⟨[], (List.append_nil path).symm, by rw [conflictAt?, present]⟩
  · rintro ⟨below, rfl, present⟩
    cases below with
    | nil =>
        rw [conflictAt?] at present
        exact ⟨observation, present, by rw [List.append_nil]⟩
    | cons key rest =>
        rw [nothingBelow] at present
        cases present

/-- What merging observes at and below a path are the conflicts there. -/
theorem mem_differences
    {expected found : Node} (settled : expected.Settled) (expectedDistinct : expected.Distinct)
    (foundDistinct : found.Distinct) {path place : KeyPath} {observation : Observation} :
    (place, observation) ∈ differences path expected found ↔
      ∃ below, place = path ++ below ∧ conflictAt? expected found below = some observation := by
  induction foundDistinct generalizing expected path with
  | text value =>
      cases expected <;> exact mem_differences_of_leaf rfl fun _ _ => by simp [conflictAt?]
  | call body =>
      cases expected with
      | call expectedBody =>
          refine mem_differences_of_leaf ?_ fun _ _ => by simp [conflictAt?]
          rw [differences, conflict?]
          by_cases same : Body.params expectedBody = Body.params body
          · rw [if_pos same, if_pos (Body.params_eq_iff.mp same)]
            rfl
          · rw [if_neg same, if_neg (mt Body.params_eq_iff.mpr same), Observation.ofBodies,
              Body.params_eq_sortedParams, Body.params_eq_sortedParams]
            rfl
      | _ => exact mem_differences_of_leaf rfl fun _ _ => by simp [conflictAt?]
  | @record isFound incoming keys inner ih =>
      cases expected with
      | record isOpen schema =>
          have closed : isOpen = false := settled.here
          subst closed
          rw [differences, List.mem_append, mem_lacking, mem_surplus]
          constructor
          · rintro (⟨key, node, member, rfl, lacks⟩ | ⟨key, node, member, differs⟩)
            · have known := Entries.lookup_of_mem expectedDistinct.here member
              refine ⟨[key], rfl, conflictAt?_cons.mpr ?_⟩
              rcases lacks with ⟨absent, rfl⟩ | ⟨other, present, kinds, rfl⟩
              · exact Or.inr (Or.inl ⟨⟨node, known⟩, absent, rfl, rfl⟩)
              · exact Or.inl ⟨node, other, known, present, conflict?_of_kind_ne kinds⟩
            · have present := Entries.lookup_of_mem keys member
              rcases differs with ⟨expected, known, below⟩ | ⟨unknown, rfl, rfl⟩
              · obtain ⟨rest, rfl, conflict⟩ := (ih key node member (settled.of_lookup known)
                  (expectedDistinct.of_lookup known)).mp below
                exact ⟨key :: rest, List.append_assoc path [key] rest,
                  conflictAt?_cons.mpr (Or.inl ⟨expected, node, known, present, conflict⟩)⟩
              · exact ⟨[key], rfl,
                  conflictAt?_cons.mpr (Or.inr (Or.inr ⟨unknown, ⟨node, present⟩, rfl, rfl⟩))⟩
          · rintro ⟨below, rfl, conflict⟩
            cases below with
            | nil => cases conflict
            | cons key rest =>
                rcases conflictAt?_cons.mp conflict with
                  ⟨expected, node, known, present, inside⟩ |
                  ⟨⟨expected, known⟩, absent, rfl, rfl⟩ | ⟨unknown, ⟨node, present⟩, rfl, rfl⟩
                · have member := Entries.mem_of_lookup present
                  have below := (ih key node member (settled.of_lookup known)
                    (expectedDistinct.of_lookup known)).mpr
                    ⟨rest, (List.append_assoc path [key] rest).symm, inside⟩
                  exact Or.inr ⟨key, node, member, Or.inl ⟨expected, known, below⟩⟩
                · exact Or.inl ⟨key, expected, Entries.mem_of_lookup known, rfl,
                    Or.inl ⟨absent, rfl⟩⟩
                · exact Or.inr ⟨key, node, Entries.mem_of_lookup present,
                    Or.inr ⟨unknown, rfl, rfl⟩⟩
      | _ => exact mem_differences_of_leaf rfl fun _ _ => by simp [conflictAt?]

end Node

namespace Tree

/-- The conflict of a reference tree with a language at a path. -/
def conflictAt? (reference language : Tree) (path : KeyPath) : Option Observation :=
  Node.conflictAt? reference.toNode language.toNode path

theorem mem_differences
    {reference language : Tree} (settled : reference.Settled) {path : KeyPath}
    {observation : Observation} :
    (path, observation) ∈ reference.differences language ↔
      reference.conflictAt? language path = some observation := by
  rw [differences, Node.mem_differences settled reference.distinct_toNode language.distinct_toNode,
    conflictAt?]
  simp

end Tree

end Phrasebook
