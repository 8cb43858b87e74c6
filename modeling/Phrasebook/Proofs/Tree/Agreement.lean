import Phrasebook.Lookup.Message
import Phrasebook.Proofs.Tree.Conflict

/-!
# Trees that agree

Two trees agree when they have the same keys in all their records and leaves of the same
kind and parameters below them. Trees agree exactly when they have no conflict.
-/

namespace Phrasebook

namespace Node

/-- The node at the end of a path that leads through records. -/
def at? : Node → KeyPath → Option Node
  | node, [] => some node
  | .record _ entries, key :: rest =>
      match List.lookup key entries with
      | some node => node.at? rest
      | none => none
  | _, _ :: _ => none

/-- The message that a leaf holds. -/
def message? : Node → Option Message
  | .text value => some (.text value)
  | .call body => some (.call body)
  | .record _ _ => none

/-- The keys of a record, in their order. A leaf has none. -/
def keys : Node → List String
  | .record _ entries => Entries.keys entries
  | _ => []

/-- Two nodes of the same kind at every level, with the same keys and parameters. -/
inductive Agree : Node → Node → Prop where
  | text (expected found : String) : Agree (.text expected) (.text found)
  | call {expected found : List Segment} (params : Body.paramSet expected = Body.paramSet found) :
      Agree (.call expected) (.call found)
  | record {isOpen isFound : Bool} {schema incoming : List (String × Node)}
      (keys : ∀ key, key ∈ Entries.keys schema ↔ key ∈ Entries.keys incoming)
      (inner : ∀ key expected found, List.lookup key schema = some expected →
        List.lookup key incoming = some found → Agree expected found) :
      Agree (.record isOpen schema) (.record isFound incoming)

theorem at?_nil (node : Node) : node.at? [] = some node := by
  rw [at?]

theorem at?_record_cons
    (isOpen : Bool) (entries : List (String × Node)) (key : String) (rest : KeyPath) :
    (record isOpen entries).at? (key :: rest) =
      (List.lookup key entries).bind fun node => node.at? rest := by
  rw [at?]
  cases List.lookup key entries with
  | none => rfl
  | some node => rfl

/-- Nodes without a conflict at any path agree. -/
theorem agree_of_conflictAt?_eq_none
    {expected found : Node} (distinct : expected.Distinct)
    (harmony : ∀ path, conflictAt? expected found path = none) : Agree expected found := by
  induction distinct generalizing found with
  | text value =>
      have here := harmony []
      cases found with
      | text other => exact .text value other
      | call body => cases here
      | record isFound incoming => cases here
  | call body =>
      have here := harmony []
      cases found with
      | text other => cases here
      | call other =>
          rw [conflictAt?, conflict?] at here
          split at here
          · rename_i params
            exact .call params
          · cases here
      | record isFound incoming => cases here
  | record _ inner ih =>
      have here := harmony []
      cases found with
      | text other => cases here
      | call body => cases here
      | record isFound incoming =>
          obtain ⟨keys, below⟩ := forall_conflictAt?_of_records.mp harmony
          refine .record keys fun key expected found known present => ?_
          exact ih key expected (Entries.mem_of_lookup known)
            (below key expected found known present)

/-- Agreeing nodes have no conflict at any path. -/
theorem Agree.conflictAt?_eq_none
    {expected found : Node} (agree : Agree expected found) (path : KeyPath) :
    conflictAt? expected found path = none := by
  induction agree generalizing path with
  | text expected found => cases path <;> rfl
  | call params =>
      cases path with
      | nil => rw [conflictAt?, conflict?, if_pos params]
      | cons key rest => rfl
  | record keys inner ih => exact forall_conflictAt?_of_records.mpr ⟨keys, ih⟩ path

theorem agree_iff_conflictAt?_eq_none
    {expected found : Node} (distinct : expected.Distinct) :
    Agree expected found ↔ ∀ path, conflictAt? expected found path = none :=
  ⟨Agree.conflictAt?_eq_none, agree_of_conflictAt?_eq_none distinct⟩

theorem Agree.kind {expected found : Node} (agree : Agree expected found) :
    expected.kind = found.kind := by
  cases agree <;> rfl

theorem agree_calls_iff {expected found : List Segment} :
    Agree (.call expected) (.call found) ↔ Body.paramSet expected = Body.paramSet found := by
  constructor
  · intro agree
    cases agree with
    | call params => exact params
  · exact .call

theorem agree_records_iff
    {isOpen isFound : Bool} {schema incoming : List (String × Node)} :
    Agree (.record isOpen schema) (.record isFound incoming) ↔
      (∀ key, key ∈ Entries.keys schema ↔ key ∈ Entries.keys incoming) ∧
        ∀ key expected found, List.lookup key schema = some expected →
          List.lookup key incoming = some found → Agree expected found := by
  constructor
  · intro agree
    cases agree with
    | record keys inner => exact ⟨keys, inner⟩
  · rintro ⟨keys, inner⟩
    exact .record keys inner

theorem Agree.symm {expected found : Node} (agree : Agree expected found) :
    Agree found expected := by
  induction agree with
  | text expected found => exact .text found expected
  | call params => exact .call params.symm
  | record keys inner ih =>
      refine .record (fun key => (keys key).symm) fun key found expected present known => ?_
      exact ih key expected found known present

theorem Agree.trans {first second third : Node} (agree : Agree first second)
    (next : Agree second third) : Agree first third := by
  induction agree generalizing third with
  | text first second =>
      cases next with
      | text _ third => exact .text first third
  | call params =>
      cases next with
      | call others => exact .call (params.trans others)
  | record keys inner ih =>
      cases next with
      | record others below =>
          refine .record (fun key => (keys key).trans (others key)) fun key one other known last => ?_
          obtain ⟨between, present⟩ := Entries.exists_lookup_of_mem_keys
            ((keys key).mp (Entries.mem_keys_of_lookup known))
          exact ih key one between known present (below key between other present last)

/-- At every path agreeing nodes have nodes that agree, or none. -/
theorem Agree.at? {expected found : Node} (agree : Agree expected found) (path : KeyPath) :
    Option.Rel Agree (expected.at? path) (found.at? path) := by
  induction agree generalizing path with
  | text expected found =>
      cases path with
      | nil => exact .some (.text expected found)
      | cons key rest => exact .none
  | call params =>
      cases path with
      | nil => exact .some (.call params)
      | cons key rest => exact .none
  | @record isOpen isFound schema incoming keys inner ih =>
      cases path with
      | nil => exact .some (.record keys inner)
      | cons key rest =>
          rw [at?_record_cons, at?_record_cons]
          rcases Entries.lookups_of_same_keys keys key with
            ⟨unknown, absent⟩ | ⟨expected, found, known, present⟩
          · rw [unknown, absent]
            exact .none
          · rw [known, present]
            exact ih key expected found known present rest

/-! ## The keys of one tree and the messages of another -/

mutual

/-- What a language has, with the keys in the order of another tree. -/
def arranged : Node → Node → Node
  | .text _, found => found
  | .call _, found => found
  | .record _ entries, found =>
      match found with
      | .record _ language => .record false (arrangedEntries language entries)
      | other => other

def arrangedEntries (language : Entries Node) : List (String × Node) → List (String × Node)
  | [] => []
  | (key, expected) :: rest =>
      match language.lookup key with
      | some found => (key, arranged expected found) :: arrangedEntries language rest
      | none => arrangedEntries language rest

end

section Arranging

variable {language entries : List (String × Node)}

theorem lookup_arrangedEntries (key : String) :
    List.lookup key (arrangedEntries language entries) =
      (List.lookup key entries).bind fun expected =>
        (List.lookup key language).map (arranged expected) := by
  induction entries with
  | nil => rfl
  | cons entry rest ih =>
      obtain ⟨other, expected⟩ := entry
      rw [arrangedEntries, Entries.lookup_cons]
      by_cases same : key = other
      · subst same
        rw [if_pos rfl]
        cases present : List.lookup key language with
        | some found =>
            dsimp only
            rw [Entries.lookup_cons, if_pos rfl]
            rfl
        | none =>
            dsimp only
            rw [ih, present]
            cases List.lookup key rest <;> rfl
      · rw [if_neg same]
        cases List.lookup other language with
        | some found =>
            dsimp only
            rw [Entries.lookup_cons, if_neg same]
            exact ih
        | none => exact ih

/-- A language that has all keys gets them in the order of the other tree. -/
theorem keys_arrangedEntries
    (known : ∀ key ∈ Entries.keys entries, key ∈ Entries.keys language) :
    Entries.keys (arrangedEntries language entries) = Entries.keys entries := by
  induction entries with
  | nil => rfl
  | cons entry rest ih =>
      obtain ⟨key, expected⟩ := entry
      obtain ⟨found, present⟩ := Entries.exists_lookup_of_mem_keys (known key List.mem_cons_self)
      have later := ih fun other member => known other (List.mem_cons_of_mem _ member)
      rw [arrangedEntries, present]
      dsimp only
      rw [Entries.keys_cons, Entries.keys_cons, later]

end Arranging

namespace Agree

variable {expected found : Node}

theorem arranged_distinct (agree : Agree expected found) (distinct : expected.Distinct) :
    (arranged expected found).Distinct := by
  induction agree with
  | text expected found => exact .text found
  | @call expected found params => exact .call found
  | @record isOpen isFound schema incoming keys inner ih =>
      have nodup : (Entries.keys (arrangedEntries incoming schema)).Nodup := by
        rw [keys_arrangedEntries fun key => (keys key).mp]
        exact distinct.here
      refine .record nodup fun key node member => ?_
      have listed := Entries.lookup_of_mem nodup member
      rw [lookup_arrangedEntries, Option.bind_eq_some_iff] at listed
      obtain ⟨expected, known, other⟩ := listed
      obtain ⟨found, present, rfl⟩ := Option.map_eq_some_iff.mp other
      exact ih key expected found known present (distinct.of_lookup known)

/-- Arranging keeps all messages where they are. -/
theorem message_arranged (agree : Agree expected found) (path : KeyPath) :
    ((arranged expected found).at? path).map message? = (found.at? path).map message? := by
  induction agree generalizing path with
  | text expected found => rfl
  | call params => rfl
  | @record isOpen isFound schema incoming keys inner ih =>
      cases path with
      | nil => rfl
      | cons key rest =>
          rw [arranged, at?_record_cons, at?_record_cons, lookup_arrangedEntries]
          rcases Entries.lookups_of_same_keys keys key with
            ⟨unknown, absent⟩ | ⟨expected, found, known, present⟩
          · rw [unknown, absent]
            rfl
          · rw [known, present]
            exact ih key expected found known present rest

/-- Arranging gives every record the keys of the other tree, in their order there. -/
theorem keys_arranged (agree : Agree expected found) (path : KeyPath) :
    ((arranged expected found).at? path).map Node.keys = (expected.at? path).map Node.keys := by
  induction agree generalizing path with
  | text expected found => cases path <;> rfl
  | call params => cases path <;> rfl
  | @record isOpen isFound schema incoming keys inner ih =>
      cases path with
      | nil =>
          rw [arranged]
          exact congrArg some (keys_arrangedEntries fun key => (keys key).mp)
      | cons key rest =>
          rw [arranged, at?_record_cons, at?_record_cons, lookup_arrangedEntries]
          rcases Entries.lookups_of_same_keys keys key with
            ⟨unknown, _⟩ | ⟨expected, found, known, present⟩
          · rw [unknown]
            rfl
          · rw [known, present]
            exact ih key expected found known present rest

end Agree

end Node

namespace Tree

/-- Comparing two trees gives no difference exactly when they agree. -/
theorem differences_eq_nil_iff
    {reference language : Tree} (settled : reference.Settled) :
    reference.differences language = [] ↔ Node.Agree reference.toNode language.toNode := by
  have listed : ∀ {path observation}, (path, observation) ∈ reference.differences language ↔
      reference.conflictAt? language path = some observation :=
    mem_differences settled
  rw [Node.agree_iff_conflictAt?_eq_none reference.distinct_toNode, List.eq_nil_iff_forall_not_mem]
  constructor
  · intro empty path
    rw [Option.eq_none_iff_forall_ne_some]
    exact fun observation conflict => empty (path, observation) (listed.mpr conflict)
  · rintro harmony ⟨path, observation⟩ member
    have conflict := listed.mp member
    cases (harmony path).symm.trans conflict

end Tree

end Phrasebook
