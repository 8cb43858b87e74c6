import Phrasebook.Document
import Phrasebook.Message.Placeholder
import Phrasebook.Survey

/-!
# Message trees of documents

Strings and numbers become messages, mappings become records, and the keys keep their
order. The other values give no node: they are listed with their paths, and what is inside
a sequence is not looked at. A survey of the document finds both in one walk.
-/

namespace Phrasebook

/-- The leaf for a text: a call when the text holds a placeholder. -/
def Node.ofText (written : String) : Node :=
  match Body.ofText? written with
  | some body => .call body
  | none => .text written

mutual

/-- The node for a value, if the value can be a message. -/
def Node.ofValue? : Value → Option Node
  | .string written => some (.ofText written)
  | .number it => some (.ofText it.text)
  | .mapping entries => some (.record false (Node.ofEntries entries))
  | .boolean _ => none
  | .sequence _ => none
  | .null => none

def Node.ofEntries : List (String × Value) → List (String × Node)
  | [] => []
  | (key, value) :: rest =>
      match Node.ofValue? value with
      | some node => (key, node) :: Node.ofEntries rest
      | none => Node.ofEntries rest

end

mutual

/-- The values at and below a path that cannot be messages, in document order. -/
def Value.unsupported (path : KeyPath) : Value → List (KeyPath × Value)
  | .string _ => []
  | .number _ => []
  | .mapping entries => Value.unsupportedInEntries path entries
  | .boolean value => [(path, .boolean value)]
  | .sequence items => [(path, .sequence items)]
  | .null => [(path, .null)]

def Value.unsupportedInEntries (path : KeyPath) : List (String × Value) → List (KeyPath × Value)
  | [] => []
  | (key, value) :: rest =>
      value.unsupported (path ++ [key]) ++ Value.unsupportedInEntries path rest

end

section

variable {property : Bool → List (String × Node) → Prop}

/-- A leaf has no records. -/
theorem Node.ofText_every (written : String) : (Node.ofText written).Every property := by
  unfold Node.ofText
  split
  · exact .call _
  · exact .text _

/-- The entries of a built record are those whose values can be messages. -/
theorem Node.mem_ofEntries {key : String} {node : Node} {entries : List (String × Value)} :
    (key, node) ∈ Node.ofEntries entries ↔
      ∃ value, (key, value) ∈ entries ∧ Node.ofValue? value = some node := by
  induction entries with
  | nil => simp [Node.ofEntries]
  | cons entry rest ih =>
      obtain ⟨other, value⟩ := entry
      rw [Node.ofEntries]
      cases built : Node.ofValue? value with
      | none =>
          simp only [ih, List.mem_cons, Prod.mk.injEq]
          constructor
          · rintro ⟨found, member, same⟩
            exact ⟨found, Or.inr member, same⟩
          · rintro ⟨found, ⟨_, rfl⟩ | member, same⟩
            · rw [built] at same
              cases same
            · exact ⟨found, member, same⟩
      | some inner =>
          simp only [List.mem_cons, Prod.mk.injEq, ih]
          constructor
          · rintro (⟨rfl, rfl⟩ | ⟨found, member, same⟩)
            · exact ⟨value, Or.inl ⟨rfl, rfl⟩, built⟩
            · exact ⟨found, Or.inr member, same⟩
          · rintro ⟨found, ⟨rfl, rfl⟩ | member, same⟩
            · rw [built] at same
              exact Or.inl ⟨rfl, (Option.some.inj same).symm⟩
            · exact Or.inr ⟨found, member, same⟩

theorem Node.keys_ofEntries_sublist (entries : List (String × Value)) :
    (Entries.keys (Node.ofEntries entries)).Sublist (Entries.keys entries) := by
  induction entries with
  | nil => exact List.Sublist.refl _
  | cons entry rest ih =>
      obtain ⟨key, value⟩ := entry
      rw [Node.ofEntries]
      cases Node.ofValue? value with
      | none => exact ih.cons key
      | some node => exact ih.cons_cons key

/-- The records of a built node are not open and have distinct keys. -/
theorem Value.Distinct.ofValue?
    (holds : ∀ entries, (Entries.keys entries).Nodup → property false entries)
    {value : Value} {node : Node} (distinct : value.Distinct)
    (built : Node.ofValue? value = some node) : node.Every property := by
  induction distinct generalizing node with
  | string text =>
      cases built
      exact Node.ofText_every text
  | number it =>
      cases built
      exact Node.ofText_every it.text
  | mapping keys inner ih =>
      cases built
      refine .record (holds _ (keys.sublist (Node.keys_ofEntries_sublist _))) ?_
      intro key node member
      obtain ⟨value, listed, same⟩ := Node.mem_ofEntries.mp member
      exact ih key value listed same
  | boolean _ => cases built
  | sequence _ => cases built
  | null => cases built

end

def Tree.ofDocument (document : Document) : Tree where
  entries := Node.ofEntries document.entries
  distinct := document.distinct.ofValue? (fun _ nodup => nodup) rfl

theorem Tree.ofDocument_settled (document : Document) : (Tree.ofDocument document).Settled :=
  document.distinct.ofValue? (fun _ _ => rfl) rfl

/-- What is observed of the values of a document that cannot be messages. -/
def Document.observations (document : Document) : List (KeyPath × Observation) :=
  (Value.unsupportedInEntries [] document.entries).map fun (path, value) => (path, .ofValue value)

/-- The tree of one language, and the diagnostics with what its document adds to them. -/
def Tree.build (language : String) (document : Document) (diagnostics : Diagnostics) :
    Tree × Diagnostics :=
  (Tree.ofDocument document, diagnostics.recordAll language (Document.observations document))

namespace Node

mutual

/-- Adds the node for an entry of a document to a record, or notes that there is none. -/
def putValue (language key : String) (record : Entries Node) : Value → Survey (Entries Node)
  | .string written => .done (Entries.put key (.ofText written) record)
  | .number it => .done (Entries.put key (.ofText it.text) record)
  | .mapping entries =>
      (Survey.within key (putValues language [] entries)).andThen fun nested =>
        .done (Entries.put key (.record false nested) record)
  | .boolean value =>
      (Survey.note language key (.ofValue (.boolean value))).andThen fun _ => .done record
  | .sequence items =>
      (Survey.note language key (.ofValue (.sequence items))).andThen fun _ => .done record
  | .null => (Survey.note language key (.ofValue .null)).andThen fun _ => .done record

/-- Adds the nodes for the entries of a document to a record in turn. -/
def putValues (language : String) (record : Entries Node) :
    List (String × Value) → Survey (Entries Node)
  | [] => .done record
  | (key, value) :: rest =>
      (putValue language key record value).andThen fun extended =>
        putValues language extended rest

end

/-! Every record is built with distinct keys. -/

mutual

theorem putValue_gives (language key : String) :
    ∀ (value : Value) {record : Entries Node}, DistinctIn record →
      (putValue language key record value).Gives DistinctIn
  | .string written, _, distinct => Survey.gives_done (distinct.put (ofText_every written) key)
  | .number it, _, distinct => Survey.gives_done (distinct.put (ofText_every it.text) key)
  | .mapping entries, _, distinct =>
      have below := putValues_gives language entries distinctIn_nil
      (below.within key).andThen fun _ inner =>
        Survey.gives_done (distinct.put inner key)
  | .boolean _, _, distinct => Survey.gives_andThen fun _ => Survey.gives_done distinct
  | .sequence _, _, distinct => Survey.gives_andThen fun _ => Survey.gives_done distinct
  | .null, _, distinct => Survey.gives_andThen fun _ => Survey.gives_done distinct

theorem putValues_gives (language : String) :
    ∀ (entries : List (String × Value)) {record : Entries Node}, DistinctIn record →
      (putValues language record entries).Gives DistinctIn
  | [], _, distinct => Survey.gives_done distinct
  | (key, value) :: rest, _, distinct =>
      (putValue_gives language key value distinct).andThen fun _ extended =>
        putValues_gives language rest extended

end

end Node

/-- Builds the tree of one language on the diagnostics of those before. -/
def Tree.surveyed (language : String) (document : Document) (diagnostics : Diagnostics) :
    Except Failure Tree × Diagnostics :=
  let built := (Node.putValues language [] document.entries).attach
    (Node.putValues_gives language document.entries Node.distinctIn_nil)
  (built.andThen fun record => .done (.ofRecord record)).run diagnostics

/-- The trees of all languages, built one after the other on the same diagnostics. -/
def Tree.buildAll :
    List (Named Document) → Diagnostics → Except Failure (List (Named Tree)) × Diagnostics
  | [], diagnostics => (.ok [], diagnostics)
  | first :: rest, diagnostics =>
      match Tree.surveyed first.name first.value diagnostics with
      | (.error failure, recorded) => (.error failure, recorded)
      | (.ok tree, recorded) =>
          match Tree.buildAll rest recorded with
          | (.error failure, all) => (.error failure, all)
          | (.ok trees, all) => (.ok (⟨first.name, tree⟩ :: trees), all)

end Phrasebook
