import Phrasebook.Proofs.Message.Placeholder
import Phrasebook.Proofs.Tree.Agreement
import Phrasebook.Tree.OfDocument

/-!
# Shapes of documents

What the analysis asks of raw documents, said without trees: no value that cannot be a
message may be reached through mappings, and any two documents must have the same shape.
Both are then read off the built trees.
-/

namespace Phrasebook

namespace Value

/-- The value at the end of a path that leads through mappings. -/
def at? : Value → KeyPath → Option Value
  | value, [] => some value
  | .mapping entries, key :: rest =>
      match List.lookup key entries with
      | some value => value.at? rest
      | none => none
  | _, _ :: _ => none

/-- A value that cannot be a message. -/
inductive Unusable : Value → Prop where
  | boolean (value : Bool) : Unusable (.boolean value)
  | sequence (items : List Value) : Unusable (.sequence items)
  | null : Unusable .null

/-- A value with nothing unusable at any position that mappings lead to. -/
def Supported (value : Value) : Prop :=
  ∀ path found, value.at? path = some found → ¬ found.Unusable

/-- The text of a string or a number. -/
def text? : Value → Option String
  | .string text => some text
  | .number it => some it.text
  | _ => none

/-- Two values of the same kind at every level: texts without placeholders, texts that
mention the same names, or mappings of the same keys. -/
inductive SameShape : Value → Value → Prop where
  | text {first second : Value} {firstText secondText : String}
      (isFirst : first.text? = some firstText) (isSecond : second.text? = some secondText)
      (firstPlain : ∀ name, ¬ Mentions firstText name)
      (secondPlain : ∀ name, ¬ Mentions secondText name) : SameShape first second
  | call {first second : Value} {firstText secondText : String}
      (isFirst : first.text? = some firstText) (isSecond : second.text? = some secondText)
      (asks : ∃ name, Mentions firstText name)
      (names : ∀ name, Mentions firstText name ↔ Mentions secondText name) :
      SameShape first second
  | record {first second : List (String × Value)}
      (keys : ∀ key, key ∈ Entries.keys first ↔ key ∈ Entries.keys second)
      (inner : ∀ key one other, List.lookup key first = some one →
        List.lookup key second = some other → SameShape one other) :
      SameShape (.mapping first) (.mapping second)

/-- Texts of one shape mention the same names. -/
theorem SameShape.mentions
    {first second : Value} {firstText secondText : String} (shape : first.SameShape second)
    (isFirst : first.text? = some firstText) (isSecond : second.text? = some secondText)
    (name : String) : Mentions firstText name ↔ Mentions secondText name := by
  cases shape with
  | text isOne isOther firstPlain secondPlain =>
      rw [isFirst] at isOne
      rw [isSecond] at isOther
      cases isOne
      cases isOther
      exact iff_of_false (firstPlain name) (secondPlain name)
  | call isOne isOther _ names =>
      rw [isFirst] at isOne
      rw [isSecond] at isOther
      cases isOne
      cases isOther
      exact names name
  | record _ _ => cases isFirst

/-- Of two values of one shape either both are texts or neither is. -/
theorem SameShape.text?_iff {first second : Value} (shape : first.SameShape second) :
    (∃ written, first.text? = some written) ↔ ∃ written, second.text? = some written := by
  cases shape with
  | text isFirst isSecond _ _ => exact iff_of_true ⟨_, isFirst⟩ ⟨_, isSecond⟩
  | call isFirst isSecond _ _ => exact iff_of_true ⟨_, isFirst⟩ ⟨_, isSecond⟩
  | record _ _ => exact iff_of_false (by rintro ⟨_, ⟨⟩⟩) (by rintro ⟨_, ⟨⟩⟩)

/-- Mappings of one shape have the same keys and values of one shape at them. -/
theorem SameShape.of_mappings
    {first second : List (String × Value)}
    (shape : (Value.mapping first).SameShape (.mapping second)) :
    (∀ key, key ∈ Entries.keys first ↔ key ∈ Entries.keys second) ∧
      ∀ key one other, List.lookup key first = some one → List.lookup key second = some other →
        one.SameShape other := by
  cases shape with
  | text isFirst _ _ _ => cases isFirst
  | call isFirst _ _ _ => cases isFirst
  | record keys inner => exact ⟨keys, inner⟩

/-! ## What cannot be a message -/

theorem not_unusable_iff {value : Value} :
    ¬ value.Unusable ↔ ∃ node, Node.ofValue? value = some node := by
  constructor
  · intro usable
    cases value with
    | string text => exact ⟨_, rfl⟩
    | number it => exact ⟨_, rfl⟩
    | mapping entries => exact ⟨_, rfl⟩
    | boolean value => exact absurd (.boolean value) usable
    | sequence items => exact absurd (.sequence items) usable
    | null => exact absurd .null usable
  · rintro ⟨node, built⟩ unusable
    cases unusable <;> cases built

theorem mem_unsupportedInEntries
    {path place : KeyPath} {found : Value} {entries : List (String × Value)} :
    (place, found) ∈ Value.unsupportedInEntries path entries ↔
      ∃ key value, (key, value) ∈ entries ∧ (place, found) ∈ value.unsupported (path ++ [key]) := by
  induction entries with
  | nil => simp [Value.unsupportedInEntries]
  | cons entry rest ih =>
      obtain ⟨key, value⟩ := entry
      rw [Value.unsupportedInEntries, List.mem_append, ih, Entries.exists_mem_cons]

theorem at?_of_leaf
    {value : Value} (leaf : ∀ entries, value ≠ .mapping entries) {path : KeyPath} {found : Value} :
    value.at? path = some found ↔ path = [] ∧ value = found := by
  cases path with
  | nil => simp [at?]
  | cons key rest =>
      cases value with
      | mapping entries => exact absurd rfl (leaf entries)
      | _ => simp [at?]

theorem at?_mapping_cons
    {entries : List (String × Value)} {key : String} {rest : KeyPath} {found : Value} :
    (Value.mapping entries).at? (key :: rest) = some found ↔
      ∃ value, List.lookup key entries = some value ∧ value.at? rest = some found := by
  rw [at?]
  cases List.lookup key entries with
  | none => simp
  | some value => simp

theorem mem_unsupported_of_leaf
    {value : Value} (leaf : ∀ entries, value ≠ .mapping entries) {path place : KeyPath}
    {found : Value} :
    (place, found) ∈ value.unsupported path ↔
      ∃ below, place = path ++ below ∧ value.at? below = some found ∧ found.Unusable := by
  have listed : (place, found) ∈ value.unsupported path ↔
      place = path ∧ found = value ∧ value.Unusable := by
    cases value with
    | string text => exact iff_of_false List.not_mem_nil (by rintro ⟨_, _, ⟨⟩⟩)
    | number it => exact iff_of_false List.not_mem_nil (by rintro ⟨_, _, ⟨⟩⟩)
    | mapping entries => exact absurd rfl (leaf entries)
    | boolean value => simp [unsupported, Unusable.boolean]
    | sequence items => simp [unsupported, Unusable.sequence]
    | null => simp [unsupported, Unusable.null]
  rw [listed]
  constructor
  · rintro ⟨rfl, rfl, unusable⟩
    exact ⟨[], (List.append_nil place).symm, (at?_of_leaf leaf).mpr ⟨rfl, rfl⟩, unusable⟩
  · rintro ⟨below, rfl, present, unusable⟩
    obtain ⟨rfl, rfl⟩ := (at?_of_leaf leaf).mp present
    exact ⟨List.append_nil path, rfl, unusable⟩

/-- The unsupported values at and below a path are the unusable ones that mappings lead to. -/
theorem mem_unsupported
    {value : Value} (distinct : value.Distinct) {path place : KeyPath} {found : Value} :
    (place, found) ∈ value.unsupported path ↔
      ∃ below, place = path ++ below ∧ value.at? below = some found ∧ found.Unusable := by
  induction distinct generalizing path with
  | @mapping entries keys inner ih =>
      rw [Value.unsupported, mem_unsupportedInEntries]
      constructor
      · rintro ⟨key, value, member, listed⟩
        obtain ⟨below, rfl, present, unusable⟩ := (ih key value member).mp listed
        exact ⟨key :: below, List.append_assoc path [key] below,
          at?_mapping_cons.mpr ⟨value, Entries.lookup_of_mem keys member, present⟩, unusable⟩
      · rintro ⟨below, rfl, present, unusable⟩
        cases below with
        | nil =>
            cases present
            cases unusable
        | cons key rest =>
            obtain ⟨value, known, inside⟩ := at?_mapping_cons.mp present
            have member := Entries.mem_of_lookup known
            exact ⟨key, value, member, (ih key value member).mpr
              ⟨rest, (List.append_assoc path [key] rest).symm, inside, unusable⟩⟩
  | _ => exact mem_unsupported_of_leaf fun _ => Value.noConfusion

theorem unsupported_eq_nil_iff {value : Value} (distinct : value.Distinct) {path : KeyPath} :
    value.unsupported path = [] ↔ value.Supported := by
  rw [List.eq_nil_iff_forall_not_mem]
  constructor
  · intro none below found present unusable
    exact none (path ++ below, found)
      ((mem_unsupported distinct).mpr ⟨below, rfl, present, unusable⟩)
  · rintro supported ⟨place, found⟩ listed
    obtain ⟨below, _, present, unusable⟩ := (mem_unsupported distinct).mp listed
    exact supported below found present unusable

theorem Supported.of_lookup
    {entries : List (String × Value)} (supported : (Value.mapping entries).Supported)
    {key : String} {value : Value} (known : List.lookup key entries = some value) :
    value.Supported :=
  fun path found present => supported (key :: path) found
    (at?_mapping_cons.mpr ⟨value, known, present⟩)

theorem Supported.exists_node {value : Value} (supported : value.Supported) :
    ∃ node, Node.ofValue? value = some node :=
  not_unusable_iff.mp (supported [] value (by rw [at?]))

theorem sameShape_self_of_text? {value : Value} {written : String}
    (isText : value.text? = some written) : value.SameShape value := by
  by_cases asks : ∃ name, Mentions written name
  · exact .call isText isText asks fun _ => Iff.rfl
  · exact .text isText isText (not_exists.mp asks) (not_exists.mp asks)

/-- A supported value has its own shape. -/
theorem Supported.sameShape_self
    {value : Value} (supported : value.Supported) (distinct : value.Distinct) :
    value.SameShape value := by
  induction distinct with
  | string text => exact sameShape_self_of_text? rfl
  | number it => exact sameShape_self_of_text? rfl
  | mapping keys inner ih =>
      refine .record (fun _ => Iff.rfl) fun key one other known again => ?_
      rw [known] at again
      cases again
      exact ih key one (Entries.mem_of_lookup known) (supported.of_lookup known)
  | boolean value => exact absurd (.boolean value) (supported [] _ rfl)
  | sequence items => exact absurd (.sequence items) (supported [] _ rfl)
  | null => exact absurd .null (supported [] _ rfl)

end Value

namespace Node

/-- Looking up a key of a built record builds what the mapping has at the key. -/
theorem lookup_ofEntries
    {entries : List (String × Value)} (keys : (Entries.keys entries).Nodup)
    {key : String} {node : Node} :
    List.lookup key (ofEntries entries) = some node ↔
      ∃ value, List.lookup key entries = some value ∧ ofValue? value = some node := by
  rw [Entries.lookup_eq_some_iff (keys.sublist (keys_ofEntries_sublist entries)), mem_ofEntries]
  exact exists_congr fun value => and_congr_left fun _ => (Entries.lookup_eq_some_iff keys).symm

/-- A text becomes a fixed text or a call, by whether it mentions a name. -/
theorem ofText_cases (written : String) :
    (ofText written = .text written ∧ ∀ name, ¬ Mentions written name) ∨
    (∃ body, ofText written = .call body ∧ (∃ name, Mentions written name) ∧
      ∀ name, name ∈ Body.paramSet body ↔ Mentions written name) := by
  rw [ofText]
  cases cut : Body.ofText? written with
  | none => exact Or.inl ⟨rfl, Body.ofText?_eq_none_iff.mp cut⟩
  | some body =>
      refine Or.inr ⟨body, rfl, ?_, ?_⟩
      · by_contra plain
        rw [Body.ofText?_eq_none_iff.mpr (not_exists.mp plain)] at cut
        cases cut
      · intro name
        rw [Body.paramSet, List.mem_toFinset, Body.mem_paramsInOrder_of_ofText? cut]

/-- A usable value is a text or a mapping. -/
theorem text_or_mapping {value : Value} {node : Node} (built : ofValue? value = some node) :
    (∃ written, value.text? = some written ∧ node = ofText written) ∨
      ∃ entries, value = .mapping entries ∧ node = .record false (ofEntries entries) := by
  cases value with
  | string text => exact Or.inl ⟨text, rfl, (Option.some.inj built).symm⟩
  | number it => exact Or.inl ⟨it.text, rfl, (Option.some.inj built).symm⟩
  | mapping entries => exact Or.inr ⟨entries, rfl, (Option.some.inj built).symm⟩
  | _ => cases built

/-- The leaves of two texts agree when the texts mention the same names. -/
theorem agree_ofText_iff
    {first second : Value} {firstText secondText : String}
    (isFirst : first.text? = some firstText) (isSecond : second.text? = some secondText) :
    Agree (ofText firstText) (ofText secondText) ↔ first.SameShape second := by
  rcases ofText_cases firstText with ⟨firstBuilt, firstPlain⟩ | ⟨body, firstBuilt, asks, names⟩
  · rcases ofText_cases secondText with
      ⟨secondBuilt, secondPlain⟩ | ⟨other, secondBuilt, ⟨name, mentioned⟩, _⟩
    · rw [firstBuilt, secondBuilt]
      exact iff_of_true (.text _ _) (.text isFirst isSecond firstPlain secondPlain)
    · rw [firstBuilt, secondBuilt]
      refine iff_of_false nofun fun shape => firstPlain name ?_
      exact (shape.mentions isFirst isSecond name).mpr mentioned
  · rcases ofText_cases secondText with ⟨secondBuilt, secondPlain⟩ | ⟨other, secondBuilt, _, others⟩
    · rw [firstBuilt, secondBuilt]
      obtain ⟨name, mentioned⟩ := asks
      refine iff_of_false nofun fun shape => secondPlain name ?_
      exact (shape.mentions isFirst isSecond name).mp mentioned
    · have sets : Body.paramSet body = Body.paramSet other ↔
          ∀ name, Mentions firstText name ↔ Mentions secondText name := by
        rw [Finset.ext_iff]
        exact forall_congr' fun name => by rw [names, others]
      rw [firstBuilt, secondBuilt, agree_calls_iff, sets]
      exact ⟨fun same => .call isFirst isSecond asks same,
        fun shape => shape.mentions isFirst isSecond⟩

theorem ofText_kind_ne_record (written : String) : (ofText written).kind ≠ .record := by
  rcases ofText_cases written with ⟨built, _⟩ | ⟨body, built, _⟩
  · rw [built]
    exact NodeKind.noConfusion
  · rw [built]
    exact NodeKind.noConfusion

/-- A key of a mapping is a key of its record, if all values can be messages. -/
theorem mem_keys_ofEntries
    {entries : List (String × Value)} (keys : (Entries.keys entries).Nodup)
    (supported : (Value.mapping entries).Supported) {key : String} :
    key ∈ Entries.keys (ofEntries entries) ↔ key ∈ Entries.keys entries := by
  constructor
  · exact fun member => (keys_ofEntries_sublist entries).subset member
  · intro member
    obtain ⟨value, known⟩ := Entries.exists_lookup_of_mem_keys member
    obtain ⟨node, built⟩ := (supported.of_lookup known).exists_node
    exact Entries.mem_keys_of_lookup ((lookup_ofEntries keys).mpr ⟨value, known, built⟩)

theorem agree_text_iff
    {first second : Value} {written : String} {other : Node}
    (isText : first.text? = some written) (secondBuilt : ofValue? second = some other) :
    Agree (ofText written) other ↔ first.SameShape second := by
  rcases text_or_mapping secondBuilt with ⟨otherText, isOther, rfl⟩ | ⟨entries, rfl, rfl⟩
  · exact agree_ofText_iff isText isOther
  · constructor
    · intro agree
      exact absurd agree.kind (ofText_kind_ne_record written)
    · intro shape
      obtain ⟨_, impossible⟩ := shape.text?_iff.mp ⟨written, isText⟩
      cases impossible

/-- Built nodes agree exactly when their values are of one shape. -/
theorem agree_iff_sameShape
    {first second : Value} (firstDistinct : first.Distinct) (secondDistinct : second.Distinct)
    (firstSupported : first.Supported) (secondSupported : second.Supported)
    {one other : Node} (firstBuilt : ofValue? first = some one)
    (secondBuilt : ofValue? second = some other) :
    Agree one other ↔ first.SameShape second := by
  induction firstDistinct generalizing second one other with
  | @mapping schema keys inner ih =>
      cases firstBuilt
      rcases text_or_mapping secondBuilt with ⟨written, isText, rfl⟩ | ⟨incoming, rfl, rfl⟩
      · constructor
        · intro agree
          exact absurd agree.kind.symm (ofText_kind_ne_record written)
        · intro shape
          obtain ⟨_, impossible⟩ := shape.text?_iff.mpr ⟨written, isText⟩
          cases impossible
      · cases secondDistinct with
        | mapping incomingKeys incomingInner =>
            rw [agree_records_iff]
            simp only [mem_keys_ofEntries keys firstSupported,
              mem_keys_ofEntries incomingKeys secondSupported]
            have below {key : String} {value found : Value} {expected node : Node}
                (known : List.lookup key schema = some value)
                (present : List.lookup key incoming = some found)
                (built : ofValue? value = some expected) (foundBuilt : ofValue? found = some node) :
                Agree expected node ↔ value.SameShape found :=
              ih key value (Entries.mem_of_lookup known)
                (incomingInner key found (Entries.mem_of_lookup present))
                (firstSupported.of_lookup known) (secondSupported.of_lookup present) built foundBuilt
            constructor
            · rintro ⟨sameKeys, agree⟩
              refine .record sameKeys fun key value found known present => ?_
              obtain ⟨expected, built⟩ := (firstSupported.of_lookup known).exists_node
              obtain ⟨node, foundBuilt⟩ := (secondSupported.of_lookup present).exists_node
              exact (below known present built foundBuilt).mp (agree key expected node
                ((lookup_ofEntries keys).mpr ⟨value, known, built⟩)
                ((lookup_ofEntries incomingKeys).mpr ⟨found, present, foundBuilt⟩))
            · intro shape
              obtain ⟨sameKeys, same⟩ := shape.of_mappings
              refine ⟨sameKeys, fun key expected node expectedAt nodeAt => ?_⟩
              obtain ⟨value, known, built⟩ := (lookup_ofEntries keys).mp expectedAt
              obtain ⟨found, present, foundBuilt⟩ := (lookup_ofEntries incomingKeys).mp nodeAt
              exact (below known present built foundBuilt).mpr (same key value found known present)
  | string text =>
      cases firstBuilt
      exact agree_text_iff rfl secondBuilt
  | number it =>
      cases firstBuilt
      exact agree_text_iff rfl secondBuilt
  | boolean value => cases firstBuilt
  | sequence items => cases firstBuilt
  | null => cases firstBuilt

end Node

namespace Document

/-- A document with nothing unusable at any position that mappings lead to. -/
def Supported (document : Document) : Prop := (Value.mapping document.entries).Supported

/-- A document of the same shape as another one. -/
def SameShape (first second : Document) : Prop :=
  (Value.mapping first.entries).SameShape (.mapping second.entries)

theorem observations_eq_nil_iff {document : Document} :
    document.observations = [] ↔ document.Supported := by
  rw [observations, List.map_eq_nil_iff]
  exact Value.unsupported_eq_nil_iff document.distinct

end Document

namespace Tree

/-- The trees of documents agree exactly when the documents are of one shape. -/
theorem agree_ofDocument_iff
    {first second : Document}
    (firstSupported : first.Supported) (secondSupported : second.Supported) :
    Node.Agree (Tree.ofDocument first).toNode (Tree.ofDocument second).toNode ↔
      first.SameShape second :=
  Node.agree_iff_sameShape first.distinct second.distinct firstSupported secondSupported rfl rfl

end Tree

end Phrasebook
