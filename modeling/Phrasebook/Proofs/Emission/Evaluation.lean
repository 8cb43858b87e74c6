import Phrasebook.Proofs.Emission.Call
import Phrasebook.Proofs.Lookup.Message
import Phrasebook.Script.Evaluation

/-!
# Emitted functions give the texts of messages

The body of an emitted function is read back as the segments of its message. So evaluating it gives
what rendering the message gives, and the options that it reads are those that rendering asks for,
in the same order.
-/

namespace Phrasebook

/-- Options that are all texts. -/
def Arguments.ofTexts (options : Entries String) : Arguments :=
  options.map fun option => (option.1, .text option.2)

namespace Emission

open Script

theorem lookup_ofTexts (options : Entries String) (name : String) :
    (Arguments.ofTexts options).lookup name = (options.lookup name).map Argument.text :=
  Entries.lookup_map Argument.text options name

/-- The body of the function of a message joins the segments of the message. -/
theorem joinedItems?_callArrow (body : Body) : joinedItems? (callArrow body).body = some body := by
  have read := joined_read body []
  rw [joinedItems?, (scans_callBody body).tokens?_eq]
  dsimp only
  rw [read]

theorem evaluate?_callArrow (options : Entries String) (body : Body) :
    evaluate? options (callArrow body).body = some (String.join (body.map (itemText options))) := by
  rw [evaluate?, joinedItems?_callArrow]
  rfl

theorem optionsRead?_callArrow (body : Body) :
    optionsRead? (callArrow body).body = some body.paramsInOrder := by
  rw [optionsRead?, joinedItems?_callArrow]
  rfl

/-- A segment gives the same text in code and in a message. -/
theorem segmentText_ofTexts (options : Entries String) :
    Message.segmentText (.ofTexts options) = itemText options := by
  funext segment
  cases segment with
  | literal value => rfl
  | param name =>
      rw [Message.segmentText, itemText, lookup_ofTexts]
      cases options.lookup name with
      | none => rfl
      | some value => rfl

/-- Rendering fails for want of the first parameter of the body that has no value. -/
theorem render_eq_error_iff {body : Body} {arguments : Arguments} {failure : Failure} :
    (Message.call body).render arguments = .error failure ↔
      ∃ name, (body.paramsInOrder.find? fun name => (arguments.lookup name).isNone) = some name ∧
        failure = .missingOption name := by
  rw [Message.render, Message.renderBody_eq]
  cases body.paramsInOrder.find? fun name => (arguments.lookup name).isNone with
  | none => exact iff_of_false nofun nofun
  | some name =>
      constructor
      · rintro ⟨⟩
        exact ⟨name, rfl, rfl⟩
      · rintro ⟨_, ⟨⟩, rfl⟩
        rfl

/-- An emitted function and its message compute the same text. With a text for every parameter, the
body of the function is evaluated to what the message is rendered as; and rendering fails exactly when
an option that the body reads is not there, for want of the first such one. -/
theorem evaluates_as_rendered (body : Body) :
    (∀ options : Entries String, (∀ name ∈ body.params, name ∈ Entries.keys options) →
      ∃ text, evaluate? options (callArrow body).body = some text ∧
        (Message.call body).render (.ofTexts options) = .ok text) ∧
    ∃ read, optionsRead? (callArrow body).body = some read ∧
      ∀ (arguments : Arguments) (failure : Failure),
        (Message.call body).render arguments = .error failure ↔
          ∃ name, (read.find? fun name => (arguments.lookup name).isNone) = some name ∧
            failure = .missingOption name := by
  refine ⟨fun options given => ⟨_, evaluate?_callArrow options body, ?_⟩,
    _, optionsRead?_callArrow body, fun _ _ => render_eq_error_iff⟩
  have noneAbsent : (body.paramsInOrder.find? fun name =>
      ((Arguments.ofTexts options).lookup name).isNone) = none := by
    rw [List.find?_eq_none]
    intro name member
    obtain ⟨value, known⟩ := Entries.exists_lookup_of_mem_keys (given name (Body.mem_params.mpr member))
    rw [lookup_ofTexts, known]
    exact Bool.false_ne_true
  rw [Message.render, Message.renderBody_eq, noneAbsent, segmentText_ofTexts]

/-- A message with the marks of the emitted array in its literals, and a parameter that is no plain
name. -/
def listing : Body :=
  [.literal "\", [", .param "1st", .literal "", .param "n", .literal "].join(\"\")\n", .param "1st"]

/-- The marks in the literals are part of the text, and the repeated parameter is given twice. -/
theorem evaluate_listing :
    (∀ name ∈ listing.params, name ∈ Entries.keys [("n", "N"), ("1st", "*")]) ∧
      evaluate? [("n", "N"), ("1st", "*")] (callArrow listing).body =
        some "\", [*N].join(\"\")\n*" := by
  have given : ∀ name ∈ listing.params, name ∈ Entries.keys [("n", "N"), ("1st", "*")] := by decide
  obtain ⟨computed, _⟩ := evaluates_as_rendered listing
  obtain ⟨text, evaluated, rendered⟩ := computed _ given
  refine ⟨given, ?_⟩
  rw [evaluated]
  cases rendered
  rfl

end Emission

end Phrasebook
