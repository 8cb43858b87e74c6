import Phrasebook.Proofs.Tree.Agreement

/-!
# Messages of trees that agree

Looking up a dotted path and rendering what is there end in the same way in two trees that
agree. Rendering a call fails exactly when one of its parameters has no value, so of two
bodies only the sets of parameters matter, and neither their order nor the texts between
them.
-/

namespace Phrasebook

namespace Tree

/-- Looking up a path finds the first key and follows the others through records. -/
theorem lookupIn_cons (entries : Entries Node) (key : String) (rest : KeyPath) :
    lookupIn entries (key :: rest) = (entries.lookup key).bind fun node => node.at? rest := by
  induction rest generalizing entries key with
  | nil =>
      rw [lookupIn]
      cases entries.lookup key with
      | none => rfl
      | some node => exact node.at?_nil.symm
  | cons next rest ih =>
      rw [lookupIn]
      cases entries.lookup key with
      | none => rfl
      | some node =>
          cases node with
          | text value => rfl
          | call body => rfl
          | record isOpen inner =>
              rw [Option.bind_some, Node.at?_record_cons]
              exact ih inner next

/-- A dotted text has at least one key, so that the root itself is never looked up. -/
theorem lookupDotted_eq (tree : Tree) (path : String) :
    tree.lookupDotted path = tree.toNode.at? (KeyPath.ofDotted path) := by
  cases keys : KeyPath.ofDotted path with
  | nil =>
      exact absurd (List.map_eq_nil_iff.mp keys) (List.splitOn_ne_nil '.' path.toList)
  | cons key rest =>
      rw [lookupDotted, lookup, keys, lookupIn_cons, toNode, Node.at?_record_cons]

end Tree

namespace Message

/-- What a segment of a body becomes. Nothing stands for a parameter without a value. -/
def segmentText (arguments : Arguments) : Segment → String
  | .literal piece => piece
  | .param name => ((arguments.lookup name).map Argument.render).getD ""

/-- A body is rendered segment by segment, unless a parameter has no value: then the first one
without is reported. -/
theorem renderBody_eq (arguments : Arguments) (body : Body) :
    renderBody arguments body =
      match body.paramsInOrder.find? fun name => (arguments.lookup name).isNone with
      | some name => .error (.missingOption name)
      | none => .ok (String.join (body.map (segmentText arguments))) := by
  induction body with
  | nil => rfl
  | cons segment rest ih =>
      rw [List.map_cons, String.join_cons]
      cases segment with
      | literal piece =>
          have params : Body.paramsInOrder (.literal piece :: rest) = Body.paramsInOrder rest := rfl
          rw [renderBody, ih, params]
          cases List.find? _ (Body.paramsInOrder rest) with
          | none => rfl
          | some name => rfl
      | param first =>
          have params : Body.paramsInOrder (.param first :: rest) =
              first :: Body.paramsInOrder rest := rfl
          rw [renderBody, params, List.find?_cons, segmentText]
          cases given : arguments.lookup first with
          | none => rfl
          | some value =>
              dsimp only [Option.isNone_some]
              rw [ih]
              cases List.find? _ (Body.paramsInOrder rest) with
              | none => rfl
              | some name => rfl

/-- A body is rendered when all its parameters have values; otherwise one that has none is
reported missing. -/
theorem renderBody_cases (arguments : Arguments) (body : Body) :
    ((∃ written, renderBody arguments body = .ok written) ∧
      ∀ name ∈ body.paramsInOrder, arguments.lookup name ≠ none) ∨
    ∃ name ∈ body.paramsInOrder, arguments.lookup name = none ∧
      renderBody arguments body = .error (.missingOption name) := by
  rw [renderBody_eq]
  cases absent : body.paramsInOrder.find? fun name => (arguments.lookup name).isNone with
  | none =>
      refine Or.inl ⟨⟨_, rfl⟩, fun name member unknown => ?_⟩
      have given := List.find?_eq_none.mp absent name member
      rw [unknown] at given
      exact given rfl
  | some name =>
      have unknown := List.find?_some absent
      exact Or.inr ⟨name, List.mem_of_find?_eq_some absent, Option.isNone_iff_eq_none.mp unknown, rfl⟩

end Message

/-- Two ends of looking up a message at a path that differ in texts only: two fixed texts,
two calls with the same parameters, or the same failure. -/
inductive SameLookup (path : String) : Except Failure Message → Except Failure Message → Prop where
  | text (one other : String) : SameLookup path (.ok (.text one)) (.ok (.text other))
  | call {one other : Body} (params : (Message.call one).params = (Message.call other).params) :
      SameLookup path (.ok (.call one)) (.ok (.call other))
  | notFound : SameLookup path (.error (.notFound path)) (.error (.notFound path))
  | notAMessage : SameLookup path (.error (.notAMessage path)) (.error (.notAMessage path))

/-- Two ends of translating the message at a path that differ in texts only: two texts, two
parameters without values, or the same failure to find a message. -/
inductive SameTranslation (path : String) : Except Failure String → Except Failure String → Prop where
  | text (one other : String) : SameTranslation path (.ok one) (.ok other)
  | missingOption (one other : String) :
      SameTranslation path (.error (.missingOption one)) (.error (.missingOption other))
  | notFound : SameTranslation path (.error (.notFound path)) (.error (.notFound path))
  | notAMessage : SameTranslation path (.error (.notAMessage path)) (.error (.notAMessage path))

/-- Calls with the same parameters are rendered with the same arguments. -/
theorem sameTranslation_renderBody
    {one other : Body} (params : one.params = other.params) (path : String) (arguments : Arguments) :
    SameTranslation path (Message.renderBody arguments one) (Message.renderBody arguments other) := by
  have shared (name : String) : name ∈ one.paramsInOrder ↔ name ∈ other.paramsInOrder := by
    rw [← Body.mem_params, ← Body.mem_params, params]
  rcases Message.renderBody_cases arguments one with
    ⟨⟨written, rendered⟩, known⟩ | ⟨name, member, unknown, failed⟩
  · rcases Message.renderBody_cases arguments other with
      ⟨⟨otherWritten, otherRendered⟩, _⟩ | ⟨name, member, unknown, _⟩
    · rw [rendered, otherRendered]
      exact .text written otherWritten
    · exact absurd unknown (known name ((shared name).mpr member))
  · rcases Message.renderBody_cases arguments other with
      ⟨_, known⟩ | ⟨otherName, _, _, otherFailed⟩
    · exact absurd unknown (known name ((shared name).mp member))
    · rw [failed, otherFailed]
      exact .missingOption name otherName

namespace Node.Agree

variable {one other : Tree}

/-- Trees that agree have messages of one kind and with the same parameters at a path, or
both none for the same reason. -/
theorem sameLookup (agree : Agree one.toNode other.toNode) (path : String) :
    SameLookup path (one.message path) (other.message path) := by
  rw [Tree.message, Tree.message, Tree.lookupDotted_eq, Tree.lookupDotted_eq]
  have below := agree.at? (KeyPath.ofDotted path)
  generalize one.toNode.at? (KeyPath.ofDotted path) = first at below ⊢
  generalize other.toNode.at? (KeyPath.ofDotted path) = second at below ⊢
  cases below with
  | none => exact .notFound
  | some nodes =>
      cases nodes with
      | text value found => exact .text value found
      | call params => exact .call (Body.params_eq_iff.mpr params)
      | record keys inner => exact .notAMessage

theorem sameTranslation
    (agree : Agree one.toNode other.toNode) (path : String) (arguments : Arguments) :
    SameTranslation path (one.translate path arguments) (other.translate path arguments) := by
  have same := agree.sameLookup path
  rw [Tree.translate, Tree.translate]
  generalize one.message path = first at same ⊢
  generalize other.message path = second at same ⊢
  cases same with
  | text value found => exact .text value found
  | call params => exact sameTranslation_renderBody params path arguments
  | notFound => exact .notFound
  | notAMessage => exact .notAMessage

end Node.Agree

end Phrasebook
