import Phrasebook.Proofs.Diagnostics
import Phrasebook.Proofs.Message.Segmentation
import Phrasebook.Proofs.Tree.Build
import Phrasebook.Proofs.Tree.Place

/-!
# Building keeps every value

A document and its tree have the same chains of keys, but for those of values that cannot be
messages, and of these each is recorded for its language, under its chain. Nothing else is recorded,
and what stands inside a sequence plays no part.
-/

namespace Phrasebook

/-! ## The same chains of keys -/

namespace Node

/-- A text becomes a leaf from which the text can be read again. -/
theorem ofText_written (written : String) :
    (ofText written = .text written ∧ ∀ name, ¬ Mentions written name) ∨
      ∃ body : Body, ofText written = .call body ∧ body.IsCut ∧ body.written = written := by
  rw [ofText]
  cases cut : Body.ofText? written with
  | none => exact Or.inl ⟨rfl, Body.ofText?_eq_none_iff.mp cut⟩
  | some body => exact Or.inr ⟨body, rfl, Body.ofText?_eq_some_iff.mp cut⟩

/-- Nothing stands below the leaf of a text. -/
theorem at?_ofText_cons (written key : String) (rest : KeyPath) :
    (ofText written).at? (key :: rest) = none := by
  rcases ofText_written written with ⟨leaf, _⟩ | ⟨body, leaf, _⟩
  · rw [leaf]
    rfl
  · rw [leaf]
    rfl

/-- What a built record has at a key is built from what the mapping has there. -/
theorem lookup_ofEntries_eq {entries : List (String × Value)} (keys : (Entries.keys entries).Nodup)
    (key : String) :
    List.lookup key (ofEntries entries) = (List.lookup key entries).bind ofValue? := by
  refine Option.ext fun node => ?_
  rw [lookup_ofEntries keys, Option.bind_eq_some_iff]

/-- Nothing stands below a value that cannot be a message. -/
theorem bind_at?_of_unusable {value : Value} (unusable : ofValue? value = none) (path : KeyPath) :
    (value.at? path).bind ofValue? = none := by
  cases path with
  | nil => rwa [Value.at?]
  | cons key rest =>
      cases value with
      | mapping entries => cases unusable
      | _ => rfl

/-- A built node has at every path what is built from the value there. -/
theorem at?_of_built {value : Value} (distinct : value.Distinct) {node : Node}
    (built : ofValue? value = some node) (path : KeyPath) :
    node.at? path = (value.at? path).bind ofValue? := by
  induction path generalizing value node with
  | nil => rw [at?_nil, Value.at?, Option.bind_some, built]
  | cons key rest ih =>
      cases distinct with
      | @mapping entries keys inner =>
          cases built
          rw [at?_record_cons, lookup_ofEntries_eq keys, Value.at?]
          cases known : List.lookup key entries with
          | none => rfl
          | some value =>
              dsimp only [Option.bind_some]
              cases below : ofValue? value with
              | none => exact (bind_at?_of_unusable below rest).symm
              | some node => exact ih (inner key value (Entries.mem_of_lookup known)) below
      | string text =>
          cases built
          exact at?_ofText_cons text key rest
      | number it =>
          cases built
          exact at?_ofText_cons it.text key rest
      | _ => cases built

end Node

/-! ## What is recorded -/

/-- The type names that a finding has for each language. -/
def Finding.typeNames : Option Finding → Entries String
  | some (.unexpectedValueType found) => found
  | _ => []

/-- A value of an unsupported kind is added to those of the languages before. -/
theorem Finding.gather_ofValue {before : Option Finding}
    (kind : ∀ finding ∈ before, finding.kind = .unexpectedValueType) (language : String)
    (value : Value) :
    gather language (.ofValue value) before =
      .unexpectedValueType (Entries.put language value.typeName (typeNames before)) := by
  cases before with
  | none => rfl
  | some finding =>
      cases finding with
      | unexpectedValueType found => rfl
      | _ => cases kind _ rfl

namespace Document

variable {document : Document}

/-- The unusable values of a document are observed at their paths. -/
theorem mem_observations {path : KeyPath} {seen : Observation} :
    (path, seen) ∈ document.observations ↔
      ∃ value, (Value.mapping document.entries).at? path = some value ∧ value.Unusable ∧
        seen = .ofValue value := by
  have listed {found : Value} : (path, found) ∈ Value.unsupportedInEntries [] document.entries ↔
      (Value.mapping document.entries).at? path = some found ∧ found.Unusable := by
    refine (Value.mem_unsupported document.distinct).trans ⟨?_, ?_⟩
    · rintro ⟨below, rfl, present⟩
      exact present
    · exact fun present => ⟨path, rfl, present⟩
  rw [observations, List.mem_map]
  constructor
  · rintro ⟨⟨place, found⟩, member, same⟩
    cases same
    obtain ⟨present, unusable⟩ := listed.mp member
    exact ⟨found, present, unusable, rfl⟩
  · rintro ⟨found, present, unusable, rfl⟩
    exact ⟨(path, found), listed.mpr ⟨present, unusable⟩, rfl⟩

variable (language : String) (diagnostics : Diagnostics) {path : KeyPath}

/-- An unusable value is recorded at its path. -/
theorem finding?_of_unusable {value : Value}
    (present : (Value.mapping document.entries).at? path = some value) (unusable : value.Unusable) :
    Diagnostics.finding? .unexpectedValueType path
        (diagnostics.recordAll language document.observations) =
      some (.unexpectedValueType (Entries.put language value.typeName
        (Finding.typeNames (diagnostics.finding? .unexpectedValueType path)))) := by
  have only : ∀ seen, (path, seen) ∈ document.observations →
      seen.kind = (Observation.ofValue value).kind → seen = .ofValue value := by
    intro seen member _
    obtain ⟨other, again, _, rfl⟩ := mem_observations.mp member
    rw [present] at again
    cases again
    rfl
  have here : (path, Observation.ofValue value) ∈ document.observations :=
    mem_observations.mpr ⟨value, present, unusable, rfl⟩
  refine (Diagnostics.finding?_recordAll only diagnostics).trans ?_
  rw [if_pos here]
  exact congrArg some
    (Finding.gather_ofValue (fun _ found => Diagnostics.kind_of_finding? found) language value)

/-- Where no unusable value stands, and for every other kind, the finding stays. -/
theorem finding?_of_usable {kind : DiagnosticKind}
    (elsewhere : kind ≠ .unexpectedValueType ∨
      ∀ value, (Value.mapping document.entries).at? path = some value → ¬ value.Unusable) :
    Diagnostics.finding? kind path (diagnostics.recordAll language document.observations) =
      diagnostics.finding? kind path := by
  refine Diagnostics.finding?_recordAll_of_silent ?_ language diagnostics
  rintro seen member rfl
  obtain ⟨value, present, unusable, rfl⟩ := mem_observations.mp member
  rcases elsewhere with other | usable
  · exact other rfl
  · exact usable value present unusable

end Document

/-! ## Inside sequences -/

namespace Value

mutual

/-- The value with nothing inside its sequences. -/
def emptied : Value → Value
  | .sequence _ => .sequence []
  | .mapping entries => .mapping (emptiedEntries entries)
  | .string text => .string text
  | .number it => .number it
  | .boolean value => .boolean value
  | .null => .null

def emptiedEntries : List (String × Value) → List (String × Value)
  | [] => []
  | (key, value) :: rest => (key, value.emptied) :: emptiedEntries rest

end

theorem keys_emptiedEntries (entries : List (String × Value)) :
    Entries.keys (emptiedEntries entries) = Entries.keys entries := by
  induction entries with
  | nil => rfl
  | cons entry rest ih =>
      rw [emptiedEntries, Entries.keys_cons, Entries.keys_cons, ih]

theorem exists_of_mem_emptiedEntries {key : String} {value : Value}
    {entries : List (String × Value)} (member : (key, value) ∈ emptiedEntries entries) :
    ∃ filled, (key, filled) ∈ entries ∧ value = filled.emptied := by
  induction entries with
  | nil => cases member
  | cons entry rest ih =>
      rw [emptiedEntries] at member
      rcases List.mem_cons.mp member with same | later
      · cases same
        exact ⟨entry.2, List.mem_cons_self, rfl⟩
      · obtain ⟨filled, there, same⟩ := ih later
        exact ⟨filled, List.mem_cons_of_mem entry there, same⟩

theorem Distinct.emptied {value : Value} (distinct : value.Distinct) : value.emptied.Distinct := by
  induction distinct with
  | mapping keys inner ih =>
      rw [Value.emptied]
      refine .mapping ((keys_emptiedEntries _).symm ▸ keys) fun key value member => ?_
      obtain ⟨filled, there, rfl⟩ := exists_of_mem_emptiedEntries member
      exact ih key filled there
  | string text => exact .string text
  | number it => exact .number it
  | boolean value => exact .boolean value
  | sequence items => exact .sequence []
  | null => exact .null

end Value

/-- The document with nothing inside its sequences. -/
def Document.emptied (document : Document) : Document where
  entries := Value.emptiedEntries document.entries
  distinct := document.distinct.emptied

namespace Node

mutual

theorem putValue_emptied (language key : String) (record : Entries Node) :
    ∀ value : Value, putValue language key record value.emptied = putValue language key record value
  | .sequence _ => rfl
  | .mapping entries => by
      rw [Value.emptied, putValue, putValue, putValues_emptied language [] entries]
  | .string _ => rfl
  | .number _ => rfl
  | .boolean _ => rfl
  | .null => rfl

/-- What stands inside a sequence is not looked at. -/
theorem putValues_emptied (language : String) (record : Entries Node) :
    ∀ entries : List (String × Value),
      putValues language record (Value.emptiedEntries entries) = putValues language record entries
  | [] => rfl
  | (key, value) :: rest => by
      rw [Value.emptiedEntries, putValues, putValues, putValue_emptied language key record value]
      exact congrArg _ (funext fun extended => putValues_emptied language extended rest)

end

end Node

/-! ## The whole document -/

/-- What becomes of a value: the node at its path, and the finding about unsupported values there,
which is told from the one before. -/
inductive Value.Becomes (language : String) (before : Option Finding) :
    Value → Option Node → Option Finding → Prop where
  | text {value : Value} {written : String} (isText : value.text? = some written)
      (plain : ∀ name, ¬ Mentions written name) :
      Becomes language before value (some (.text written)) before
  | call {value : Value} {written : String} {body : Body} (isText : value.text? = some written)
      (asks : ∃ name, Segment.param name ∈ body) (mentions : ∃ name, Mentions written name)
      (same : body.written = written) : Becomes language before value (some (.call body)) before
  | record {entries : List (String × Value)} {nested : List (String × Node)}
      (order : (Entries.keys nested).Sublist (Entries.keys entries)) :
      Becomes language before (.mapping entries) (some (.record false nested)) before
  | leftOut {value : Value} (unusable : value.Unusable) :
      Becomes language before value none
        (some (.unexpectedValueType
          (Entries.put language value.typeName (Finding.typeNames before))))

namespace Tree

/-- A text becomes a leaf that is written as the text. -/
theorem becomes_ofText {value : Value} {written : String} (isText : value.text? = some written)
    (language : String) (before : Option Finding) :
    value.Becomes language before (some (Node.ofText written)) before := by
  rcases Node.ofText_written written with ⟨leaf, plain⟩ | ⟨body, leaf, cut, same⟩
  · rw [leaf]
    exact .text isText plain
  · rw [leaf]
    have mentions : ∃ name, Mentions written name := by
      by_contra plain
      have found := Body.ofText?_eq_some_iff.mpr ⟨cut, same⟩
      rw [Body.ofText?_eq_none_iff.mpr (not_exists.mp plain)] at found
      cases found
    exact .call isText cut.asks mentions same

/-- The tree of a document has at every path what is built from the value there. -/
theorem at?_ofDocument (document : Document) (path : KeyPath) :
    (Tree.ofDocument document).toNode.at? path =
      ((Value.mapping document.entries).at? path).bind Node.ofValue? :=
  Node.at?_of_built document.distinct rfl path

/-- Every value that mappings lead to is in the tree or is recorded. -/
theorem becomes_of_at? {document : Document} (language : String) (diagnostics : Diagnostics)
    {path : KeyPath} {value : Value}
    (present : (Value.mapping document.entries).at? path = some value) :
    value.Becomes language (diagnostics.finding? .unexpectedValueType path)
      ((Tree.ofDocument document).toNode.at? path)
      (Diagnostics.finding? .unexpectedValueType path
        (diagnostics.recordAll language document.observations)) := by
  rw [at?_ofDocument, present, Option.bind_some]
  by_cases unusable : value.Unusable
  · rw [Document.finding?_of_unusable language diagnostics present unusable]
    cases unusable with
    | boolean value => exact .leftOut (.boolean value)
    | sequence items => exact .leftOut (.sequence items)
    | null => exact .leftOut .null
  · have usable (other : Value) (again : (Value.mapping document.entries).at? path = some other) :
        ¬ other.Unusable := by
      rw [present] at again
      cases again
      exact unusable
    rw [Document.finding?_of_usable language diagnostics (Or.inr usable)]
    obtain ⟨node, built⟩ := Value.not_unusable_iff.mp unusable
    rw [built]
    rcases Node.text_or_mapping built with ⟨written, isText, rfl⟩ | ⟨entries, rfl, rfl⟩
    · exact becomes_ofText isText language _
    · exact .record (Node.keys_ofEntries_sublist entries)

/-- What counts of a document is what putting its values comes to. -/
theorem surveyed_of_same {one other : Document} {language : String}
    (same : Node.putValues language [] one.entries = Node.putValues language [] other.entries)
    (diagnostics : Diagnostics) :
    Tree.surveyed language one diagnostics = Tree.surveyed language other diagnostics := by
  rw [surveyed, surveyed, Survey.attach_congr same]

/-- Building never fails and loses nothing silently. Whatever mappings lead to is in the tree, as a
leaf that is written as the text or as a record in document order, or has no node and is recorded
for the language by the name of its type. The tree has no other node, no other finding changes, and
what stands inside sequences does not matter. -/
theorem surveyed_becomes (document : Document) (language : String) {diagnostics : Diagnostics}
    (nodup : (diagnostics.map Diagnostic.key).Nodup) :
    ∃ tree after, Tree.surveyed language document diagnostics = (.ok tree, after) ∧
      (after.map Diagnostic.key).Nodup ∧
      (∀ path value, (Value.mapping document.entries).at? path = some value →
        value.Becomes language (diagnostics.finding? .unexpectedValueType path)
          (tree.toNode.at? path) (after.finding? .unexpectedValueType path)) ∧
      (∀ path node, tree.toNode.at? path = some node →
        ∃ value, (Value.mapping document.entries).at? path = some value) ∧
      (∀ kind path,
        (kind ≠ .unexpectedValueType ∨
          ∀ value, (Value.mapping document.entries).at? path = some value → ¬ value.Unusable) →
        after.finding? kind path = diagnostics.finding? kind path) ∧
      Tree.surveyed language document.emptied diagnostics = (.ok tree, after) := by
  have outcome := surveyed_eq_build language document diagnostics
  refine ⟨_, _, outcome, Diagnostics.nodup_recordAll nodup language _, ?_, ?_, ?_, ?_⟩
  · exact fun _ _ present => becomes_of_at? language diagnostics present
  · intro path node present
    rw [build, at?_ofDocument] at present
    obtain ⟨value, known, _⟩ := Option.bind_eq_some_iff.mp present
    exact ⟨value, known⟩
  · exact fun _ _ elsewhere => Document.finding?_of_usable language diagnostics elsewhere
  · rw [surveyed_of_same (Node.putValues_emptied language [] document.entries)]
    exact outcome

end Tree

/-! ### A document with awkward keys -/

/-- A number at the empty key, and a list and a call below a key with a dot. -/
def oddments : Document where
  entries :=
    [("", .number (.signed 7)),
     ("a.b", .mapping [("list", .sequence [.null]), ("x", .string "\x7b\x7b n \x7d\x7d")])]

/-- Another language had nothing where the list stands. -/
def oddmentsBefore : Diagnostics :=
  [⟨["a.b", "list"], .unexpectedValueType [("zh", "null")]⟩]

/-- The number becomes a text, and the list is recorded behind what was recorded before. -/
theorem surveyed_oddments :
    (oddmentsBefore.map Diagnostic.key).Nodup ∧
      ∃ tree after, Tree.surveyed "en" oddments oddmentsBefore = (.ok tree, after) ∧
        tree.toNode.at? [""] = some (.text "7") ∧
        tree.toNode.at? ["a.b", "list"] = none ∧
        after.finding? .unexpectedValueType ["a.b", "list"] =
          some (.unexpectedValueType [("zh", "null"), ("en", "sequence")]) := by
  have nodup : (oddmentsBefore.map Diagnostic.key).Nodup := by decide
  obtain ⟨tree, after, outcome, _, becomes, _⟩ := Tree.surveyed_becomes oddments "en" nodup
  have number := becomes [""] (.number (.signed 7)) rfl
  have list := becomes ["a.b", "list"] (.sequence [.null]) rfl
  refine ⟨nodup, tree, after, outcome, ?_, ?_⟩
  · generalize tree.toNode.at? [""] = node at number ⊢
    generalize after.finding? .unexpectedValueType [""] = finding at number
    cases number with
    | text isText _ =>
        cases isText
        rfl
    | call isText _ mentions _ =>
        cases isText
        obtain ⟨name, mentioned⟩ := mentions
        exact absurd mentioned (not_mentions (by decide) name)
    | leftOut unusable => cases unusable
  · generalize tree.toNode.at? ["a.b", "list"] = node at list ⊢
    generalize after.finding? .unexpectedValueType ["a.b", "list"] = finding at list ⊢
    cases list with
    | text isText _ => cases isText
    | call isText _ _ _ => cases isText
    | leftOut unusable => exact ⟨rfl, rfl⟩

end Phrasebook
