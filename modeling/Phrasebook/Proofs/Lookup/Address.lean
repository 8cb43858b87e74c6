import Phrasebook.Proofs.Lookup.Message
import Phrasebook.Proofs.Text.Pieces

/-!
# Addresses of messages

The keys that lead to a message are joined by dots to address it, and the address is cut at its dots
to find the message. A dot within a key is a dot of the address like any other. So an address leads
back to the keys that it was made of when none of them has a dot, and otherwise to other keys, where
there may be another message or none.
-/

namespace Phrasebook

namespace KeyPath

/-- No key of a cut text has a dot. -/
theorem dot_not_mem_ofDotted (text : String) : ∀ key ∈ ofDotted text, '.' ∉ key.toList := by
  intro key member
  obtain ⟨piece, isPiece, rfl⟩ := List.mem_map.mp member
  rw [String.toList_ofList]
  exact Text.not_mem_of_mem_splitOn '.' text.toList piece isPiece

theorem ofDotted_of_not_mem {text : String} (plain : '.' ∉ text.toList) : ofDotted text = [text] := by
  rw [ofDotted, List.splitOn_eq_singleton plain, List.map_singleton, String.ofList_toList]

theorem ofDotted_append (front back : String) :
    ofDotted (front ++ "." ++ back) = ofDotted front ++ ofDotted back := by
  have chars : (front ++ "." ++ back).toList = front.toList ++ '.' :: back.toList := by simp
  simp only [ofDotted, chars, List.splitOn_append_cons_self, List.map_append]

/-- A joined path is cut into the pieces of its keys. -/
theorem ofDotted_dotted (first : String) (rest : KeyPath) :
    ofDotted (dotted (first :: rest)) = (first :: rest).flatMap ofDotted := by
  induction rest generalizing first with
  | nil => rw [dotted, String.intercalate_singleton, List.flatMap_singleton]
  | cons second rest ih =>
      have below := ih second
      rw [dotted] at below ⊢
      rw [String.intercalate_cons_cons, ofDotted_append, below]
      rfl

/-- Joining keeps the keys apart exactly when they have no dots. -/
theorem flatMap_ofDotted_eq_iff {path : KeyPath} :
    path.flatMap ofDotted = path ↔ ∀ key ∈ path, '.' ∉ key.toList := by
  constructor
  · intro same key member
    rw [← same] at member
    obtain ⟨whole, _, isPiece⟩ := List.mem_flatMap.mp member
    exact dot_not_mem_ofDotted whole key isPiece
  · intro plain
    induction path with
    | nil => rfl
    | cons key rest ih =>
        rw [List.forall_mem_cons] at plain
        rw [List.flatMap_cons, ofDotted_of_not_mem plain.1, ih plain.2, List.singleton_append]

end KeyPath

namespace Node

/-- A path to a node, with nothing beside it. -/
def chain : KeyPath → Node → Node
  | [], node => node
  | key :: rest, node => .record false [(key, chain rest node)]

theorem at?_chain (path : KeyPath) (node : Node) : (chain path node).at? path = some node := by
  induction path with
  | nil => rw [chain, at?_nil]
  | cons key rest ih =>
      rw [chain, at?_record_cons, Entries.lookup_cons, if_pos rfl]
      exact ih

theorem distinct_chain (path : KeyPath) {node : Node} (distinct : node.Distinct) :
    (chain path node).Distinct := by
  induction path with
  | nil => exact distinct
  | cons key rest ih =>
      refine .record (List.nodup_singleton key) fun other inner member => ?_
      cases List.mem_singleton.mp member
      exact ih

/-- The only message on a path to a text is the text at its end. -/
theorem eq_of_at?_chain {path other : KeyPath} {value : String} {node : Node} {message : Message}
    (found : (chain path (.text value)).at? other = some node)
    (isMessage : node.message? = some message) : other = path := by
  induction path generalizing other with
  | nil =>
      cases other with
      | nil => rfl
      | cons key rest => cases found
  | cons key rest ih =>
      cases other with
      | nil =>
          rw [at?_nil] at found
          cases found
          cases isMessage
      | cons otherKey otherRest =>
          rw [chain, at?_record_cons, Entries.lookup_cons] at found
          by_cases same : otherKey = key
          · rw [if_pos same] at found
            rw [same, ih found]
          · rw [if_neg same] at found
            cases found

end Node

namespace Tree

/-- The message at the end of a path of keys. -/
def messageAt? (path : KeyPath) (tree : Tree) : Option Message :=
  (tree.toNode.at? path).bind Node.message?

/-- The message at an address is the one at the keys that the address is cut into. -/
theorem message_eq_ok_iff {tree : Tree} {address : String} {found : Message} :
    tree.message address = .ok found ↔
      tree.messageAt? (KeyPath.ofDotted address) = some found := by
  rw [message, lookupDotted_eq, messageAt?]
  cases tree.toNode.at? (KeyPath.ofDotted address) with
  | none => simp
  | some node => cases node <;> simp [Node.message?]

/-- For keys that lead to a message, the address that they are joined to finds the message at the
pieces of the keys. This is the message that they lead to, in whatever tree, exactly when no key has
a dot. -/
theorem message_dotted_iff (first : String) (rest : KeyPath) :
    let path : KeyPath := first :: rest
    (∀ (tree : Tree) (found : Message), tree.message path.dotted = .ok found ↔
      tree.messageAt? (path.flatMap KeyPath.ofDotted) = some found) ∧
    ((∀ (tree : Tree) (found : Message), tree.messageAt? path = some found →
        tree.message path.dotted = .ok found) ↔
      ∀ key ∈ path, '.' ∉ key.toList) := by
  intro path
  have pieces : KeyPath.ofDotted path.dotted = path.flatMap KeyPath.ofDotted :=
    KeyPath.ofDotted_dotted first rest
  refine ⟨fun tree found => by rw [message_eq_ok_iff, pieces], ?_⟩
  rw [← KeyPath.flatMap_ofDotted_eq_iff]
  constructor
  · intro always
    -- the tree in which nothing but this path leads to a message
    let tree : Tree :=
      { entries := [(first, Node.chain rest (.text ""))]
        distinct := Node.distinct_chain path (.text "") }
    have whole : tree.toNode = Node.chain path (.text "") := rfl
    have there : tree.messageAt? path = some (.text "") := by
      rw [messageAt?, whole, Node.at?_chain]
      rfl
    have answered := message_eq_ok_iff.mp (always tree _ there)
    rw [pieces, messageAt?, whole] at answered
    obtain ⟨node, present, isMessage⟩ := Option.bind_eq_some_iff.mp answered
    exact Node.eq_of_at?_chain present isMessage
  · intro same tree found there
    rw [message_eq_ok_iff, pieces, same]
    exact there

/-- The dot of a key does not lead below it, so that the only message of a tree is not found. -/
theorem message_not_always_addressable :
    ¬ ∀ (tree : Tree) (path : KeyPath) (found : Message), tree.messageAt? path = some found →
      tree.message path.dotted = .ok found := by
  intro always
  have answered := always { entries := [("a.b", .text "x")] } ["a.b"] (.text "x") rfl
  revert answered
  decide

end Tree

end Phrasebook
