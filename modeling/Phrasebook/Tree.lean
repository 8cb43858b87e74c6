import Phrasebook.Entries
import Phrasebook.KeyPath
import Phrasebook.Message.Segment

/-!
# Message trees

The messages of one language: a tree whose leaves are fixed texts and calls, which take
parameters, and whose inner nodes are records. A record may be marked *open*: no language
has fixed its keys yet, so the next one to come does. The records of a tree have distinct
keys at every level.
-/

namespace Phrasebook

/-- A node of a message tree. The keys of a record keep their order. -/
inductive Node where
  | text (value : String)
  | call (body : List Segment)
  | record (isOpen : Bool) (entries : List (String × Node))
deriving Inhabited

inductive NodeKind where
  | text
  | call
  | record
deriving DecidableEq, Repr

def NodeKind.name : NodeKind → String
  | .text => "String"
  | .call => "Call"
  | .record => "Record"

namespace Node

def kind : Node → NodeKind
  | .text _ => .text
  | .call _ => .call
  | .record _ _ => .record

mutual

def leaves : Node → Nat
  | .text _ => 1
  | .call _ => 1
  | .record _ entries => leavesOfEntries entries

def leavesOfEntries : List (String × Node) → Nat
  | [] => 0
  | (_, node) :: rest => node.leaves + leavesOfEntries rest

end

mutual

/-- The number of leaves with parameters at and below a node. -/
def calls : Node → Nat
  | .text _ => 0
  | .call _ => 1
  | .record _ entries => callsOfEntries entries

def callsOfEntries : List (String × Node) → Nat
  | [] => 0
  | (_, node) :: rest => node.calls + callsOfEntries rest

end

end Node

/-! ## Well-formed nodes -/

/-- Every record at and below a node has a property of its marker and its entries. -/
inductive Node.Every (property : Bool → List (String × Node) → Prop) : Node → Prop where
  | text (value : String) : Every property (.text value)
  | call (body : List Segment) : Every property (.call body)
  | record {isOpen : Bool} {entries : List (String × Node)}
      (here : property isOpen entries)
      (inner : ∀ key node, (key, node) ∈ entries → Every property node) :
      Every property (.record isOpen entries)

/-- A node whose records have distinct keys at every level. -/
abbrev Node.Distinct : Node → Prop :=
  Node.Every fun _ entries => (Entries.keys entries).Nodup

/-- A node with no open record at any depth. -/
abbrev Node.Settled : Node → Prop :=
  Node.Every fun isOpen _ => isOpen = false

/-- Entries with distinct keys, also in the records below them. -/
abbrev Node.DistinctIn (entries : List (String × Node)) : Prop :=
  (Node.record false entries).Distinct

namespace Node

variable {property : Bool → List (String × Node) → Prop}

theorem Every.here
    {isOpen : Bool} {entries : List (String × Node)}
    (every : (Node.record isOpen entries).Every property) : property isOpen entries := by
  cases every with
  | record here _ => exact here

theorem Every.of_mem
    {isOpen : Bool} {entries : List (String × Node)} {key : String} {node : Node}
    (every : (Node.record isOpen entries).Every property) (member : (key, node) ∈ entries) :
    node.Every property := by
  cases every with
  | record _ inner => exact inner key node member

theorem Every.of_lookup
    {isOpen : Bool} {entries : List (String × Node)} {key : String} {node : Node}
    (every : (Node.record isOpen entries).Every property)
    (found : List.lookup key entries = some node) : node.Every property :=
  every.of_mem (Entries.mem_of_lookup found)

section Deciding

variable [∀ isOpen entries, Decidable (property isOpen entries)]

mutual

/-- Goes through all records of a node. -/
def decideEvery (property : Bool → List (String × Node) → Prop)
    [∀ isOpen entries, Decidable (property isOpen entries)] : Node → Bool
  | .text _ => true
  | .call _ => true
  | .record isOpen entries => decide (property isOpen entries) && decideEveryIn property entries

def decideEveryIn (property : Bool → List (String × Node) → Prop)
    [∀ isOpen entries, Decidable (property isOpen entries)] : List (String × Node) → Bool
  | [] => true
  | (_, node) :: rest => decideEvery property node && decideEveryIn property rest

end

mutual

theorem decideEvery_iff :
    ∀ node : Node, decideEvery property node = true ↔ node.Every property
  | .text value => iff_of_true rfl (.text value)
  | .call body => iff_of_true rfl (.call body)
  | .record isOpen entries => by
      rw [decideEvery, Bool.and_eq_true, decide_eq_true_iff, decideEveryIn_iff entries]
      exact ⟨fun ⟨here, inner⟩ => .record here inner,
        fun every => ⟨every.here, fun _ _ member => every.of_mem member⟩⟩

theorem decideEveryIn_iff :
    ∀ entries : List (String × Node), decideEveryIn property entries = true ↔
      ∀ key node, (key, node) ∈ entries → node.Every property
  | [] => by simp [decideEveryIn]
  | (key, node) :: rest => by
      rw [decideEveryIn, Bool.and_eq_true, decideEvery_iff node, decideEveryIn_iff rest]
      exact Entries.forall_mem_cons.symm

end

instance (node : Node) : Decidable (node.Every property) :=
  decidable_of_iff _ (decideEvery_iff node)

end Deciding

theorem distinctIn_nil : DistinctIn [] :=
  .record List.nodup_nil fun _ _ member => nomatch member

/-- The marker of a record does not matter. -/
theorem DistinctIn.marked {entries : List (String × Node)} (distinct : DistinctIn entries)
    (isOpen : Bool) : (Node.record isOpen entries).Distinct :=
  .record distinct.here fun _ _ member => distinct.of_mem member

theorem DistinctIn.put {entries : List (String × Node)} {node : Node}
    (distinct : DistinctIn entries) (inner : node.Distinct) (key : String) :
    DistinctIn (Entries.put key node entries) := by
  refine .record (Entries.nodup_keys_put distinct.here key node) fun other found member => ?_
  rcases Entries.mem_put member with same | before
  · cases same
    exact inner
  · exact distinct.of_mem before

end Node

/-! ## Trees -/

/-- The root record of a message tree. -/
@[ext]
structure Tree where
  entries : Entries Node := []
  isOpen : Bool := false
  distinct : Node.DistinctIn entries := by decide

namespace Tree

/-- The tree whose keys the first language to come will fix. -/
def unconstrained : Tree := { isOpen := true, distinct := Node.distinctIn_nil }

/-- The settled tree of a record with distinct keys. -/
def ofRecord (record : { entries // Node.DistinctIn entries }) : Tree where
  entries := record.1
  distinct := record.2

def toNode (tree : Tree) : Node := .record tree.isOpen tree.entries

theorem distinct_toNode (tree : Tree) : tree.toNode.Distinct := tree.distinct.marked tree.isOpen

/-- A tree with no open record. -/
def Settled (tree : Tree) : Prop := tree.toNode.Settled

instance (tree : Tree) : Decidable tree.Settled :=
  inferInstanceAs (Decidable tree.toNode.Settled)

def leaves (tree : Tree) : Nat := Node.leavesOfEntries tree.entries

def calls (tree : Tree) : Nat := Node.callsOfEntries tree.entries

/-- The node at the end of a path, below the given entries. The root itself is no node. -/
def lookupIn (entries : Entries Node) : KeyPath → Option Node
  | [] => none
  | key :: rest =>
      match entries.lookup key with
      | none => none
      | some node =>
          match rest, node with
          | [], node => some node
          | _ :: _, .record _ inner => lookupIn inner rest
          | _ :: _, _ => none

def lookup (tree : Tree) (path : KeyPath) : Option Node :=
  lookupIn tree.entries path

def lookupDotted (tree : Tree) (path : String) : Option Node :=
  tree.lookup (KeyPath.ofDotted path)

end Tree

end Phrasebook
