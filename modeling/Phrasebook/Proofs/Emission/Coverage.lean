import Phrasebook.Proofs.Emission.Literal
import Phrasebook.Proofs.Failure
import Phrasebook.Proofs.Tree.Agreement

/-!
# Literals of any two trees

The literal of a language is made by the canonical tree alone, whether or not both were ever
compared. It is made when the language covers every node of that tree, that is, has a node of the
same kind there; and then it has the keys of the canonical tree and the messages of the language.
Otherwise the failure tells of the first node that is not covered, in the order of a walk that
takes a record before what it holds.
-/

namespace Phrasebook

open Emission Script

/-! ## The nodes of a tree -/

namespace Node

mutual

/-- The nodes below a node with the keys that lead to them, in the order of a walk into depth: a
record before what it holds, and the entries of a record in their order. -/
def descendants (chain : KeyPath) : Node → List (KeyPath × Node)
  | .text _ => []
  | .call _ => []
  | .record _ entries => descendantsIn chain entries

def descendantsIn (chain : KeyPath) : List (String × Node) → List (KeyPath × Node)
  | [] => []
  | (key, node) :: rest =>
      (chain ++ [key], node) :: (descendants (chain ++ [key]) node ++ descendantsIn chain rest)

end

theorem at?_append (node : Node) (front back : KeyPath) :
    node.at? (front ++ back) = (node.at? front).bind fun inner => inner.at? back := by
  induction front generalizing node with
  | nil => rw [List.nil_append, at?_nil, Option.bind_some]
  | cons key front ih =>
      cases node with
      | text value => rfl
      | call body => rfl
      | record isOpen entries =>
          rw [List.cons_append, at?_record_cons, at?_record_cons]
          cases List.lookup key entries with
          | none => rfl
          | some inner => exact ih inner

/-- What lies one key below a record. -/
theorem at?_concat_of_record {node : Node} {chain : KeyPath} {isOpen : Bool}
    {entries : List (String × Node)} (there : node.at? chain = some (.record isOpen entries))
    (key : String) : node.at? (chain ++ [key]) = List.lookup key entries := by
  rw [at?_append, there, Option.bind_some, at?_record_cons]
  cases List.lookup key entries with
  | none => rfl
  | some inner => exact at?_nil inner

theorem descendantsIn_eq (chain : KeyPath) (entries : List (String × Node)) :
    descendantsIn chain entries = entries.flatMap fun entry =>
      (chain ++ [entry.1], entry.2) :: entry.2.descendants (chain ++ [entry.1]) := by
  induction entries with
  | nil => rw [descendantsIn, List.flatMap_nil]
  | cons entry rest ih =>
      obtain ⟨key, node⟩ := entry
      rw [descendantsIn, List.flatMap_cons, ih]
      rfl

/-- The nodes that are listed below a node are those that keys lead to from there. -/
theorem mem_descendants {node : Node} (distinct : node.Distinct) {chain path : KeyPath} {found : Node} :
    (path, found) ∈ node.descendants chain ↔
      ∃ key rest, path = chain ++ key :: rest ∧ node.at? (key :: rest) = some found := by
  induction distinct generalizing chain with
  | text value =>
      rw [descendants]
      exact iff_of_false List.not_mem_nil (by rintro ⟨key, rest, _, there⟩; cases there)
  | call body =>
      rw [descendants]
      exact iff_of_false List.not_mem_nil (by rintro ⟨key, rest, _, there⟩; cases there)
  | @record isOpen entries keys _ ih =>
      rw [descendants, descendantsIn_eq, List.mem_flatMap]
      constructor
      · rintro ⟨⟨key, node⟩, member, place⟩
        have known := Entries.lookup_of_mem keys member
        rcases List.mem_cons.mp place with here | below
        · cases here
          refine ⟨key, [], rfl, ?_⟩
          rw [at?_record_cons, known]
          exact at?_nil node
        · obtain ⟨next, rest, rfl, there⟩ := (ih key node member).mp below
          refine ⟨key, next :: rest, by rw [List.append_assoc]; rfl, ?_⟩
          rw [at?_record_cons, known]
          exact there
      · rintro ⟨key, rest, rfl, there⟩
        rw [at?_record_cons, Option.bind_eq_some_iff] at there
        obtain ⟨node, known, inside⟩ := there
        refine ⟨(key, node), Entries.mem_of_lookup known, ?_⟩
        cases rest with
        | nil =>
            rw [at?_nil] at inside
            cases inside
            exact List.mem_cons_self
        | cons next rest =>
            refine List.mem_cons_of_mem _ ((ih key node (Entries.mem_of_lookup known)).mpr ?_)
            exact ⟨next, rest, by rw [List.append_assoc]; rfl, inside⟩

end Node

/-- The nodes of a tree with the keys that lead to them, in the order of a walk into depth. -/
def Tree.descendants (tree : Tree) : List (KeyPath × Node) :=
  tree.toNode.descendants []

/-- Every node of a tree but its root is listed. -/
theorem Tree.mem_descendants {tree : Tree} {path : KeyPath} {found : Node} :
    (path, found) ∈ tree.descendants ↔ path ≠ [] ∧ tree.toNode.at? path = some found := by
  rw [Tree.descendants, Node.mem_descendants tree.distinct_toNode]
  constructor
  · rintro ⟨key, rest, rfl, there⟩
    exact ⟨List.cons_ne_nil _ _, there⟩
  · rintro ⟨inside, there⟩
    obtain ⟨key, rest, rfl⟩ := List.exists_cons_of_ne_nil inside
    exact ⟨key, rest, rfl, there⟩

namespace Node

/-! ## Offences -/

/-- A language covers a node of the canonical tree: it has a node of the same kind there. -/
def Covers (language : Node) (chain : KeyPath) (expected : Node) : Prop :=
  ∃ found, language.at? chain = some found ∧ found.kind = expected.kind

/-- What a literal fails by at a node that the language does not cover, and the words for it. -/
inductive Offends (language : Node) (chain : KeyPath) (expected : Node) : Failure → String → Prop where
  | absent (nothing : language.at? chain = none) :
      Offends language chain expected (.messageAbsent chain)
        ("no message at `" ++ ".".intercalate chain ++ "`")
  | otherKind {found : Node} (there : language.at? chain = some found)
      (differs : found.kind ≠ expected.kind) :
      Offends language chain expected (.messageKind chain found.kind expected.kind)
        ("message at `" ++ ".".intercalate chain ++ "` is a " ++ found.kind.name ++ ", expected a " ++
          expected.kind.name)

/-- The failure for a node of the canonical tree, if the language does not cover it. -/
def offence? (language : Node) (place : KeyPath × Node) : Option Failure :=
  match language.at? place.1 with
  | none => some (.messageAbsent place.1)
  | some found =>
      if found.kind = place.2.kind then none
      else some (.messageKind place.1 found.kind place.2.kind)

variable {language : Node} {place : KeyPath × Node} {failure : Failure}

theorem offence?_eq_none_iff :
    language.offence? place = none ↔ language.Covers place.1 place.2 := by
  unfold offence? Covers
  cases language.at? place.1 with
  | none => exact iff_of_false nofun (by rintro ⟨found, there, _⟩; cases there)
  | some found => simp

theorem offends_of_offence? (offence : language.offence? place = some failure) :
    language.Offends place.1 place.2 failure failure.message := by
  unfold offence? at offence
  split at offence
  · rename_i nothing
    cases offence
    exact .absent nothing
  · rename_i found there
    split at offence
    · cases offence
    · rename_i differs
      cases offence
      exact .otherKind there differs

end Node

namespace Emission

open Node

/-! ## Failures -/

mutual

/-- Where the language has a node, the literal fails by the first offence at the canonical node or
below it. -/
theorem literalAt_eq_error_iff {language : Node} :
    ∀ (expected : Node) {found : Node} {chain : KeyPath} {failure : Failure},
      language.at? chain = some found →
      (literalAt chain expected found = .error failure ↔
        ((chain, expected) :: expected.descendants chain).findSome? language.offence? = some failure)
  | .text value, found, chain, failure, there => by
      cases found <;> simp [literalAt, descendants, offence?, there, kind]
  | .call body, found, chain, failure, there => by
      cases found <;> simp [literalAt, descendants, offence?, there, kind]
  | .record isOpen entries, found, chain, failure, there => by
      cases found with
      | text value => simp [literalAt, offence?, there, kind]
      | call body => simp [literalAt, offence?, there, kind]
      | record isFound inner =>
          have same : language.offence? (chain, .record isOpen entries) = none :=
            offence?_eq_none_iff.mpr ⟨_, there, rfl⟩
          rw [literalAt, List.findSome?_cons, same, descendants]
          exact map_eq_error_iff.trans (propertiesAt_eq_error_iff entries there)

/-- Where the language has a record, the properties fail by the first offence below the canonical
entries. -/
theorem propertiesAt_eq_error_iff {language : Node} :
    ∀ (entries : List (String × Node)) {isOpen : Bool} {inner : List (String × Node)}
      {chain : KeyPath} {failure : Failure},
      language.at? chain = some (.record isOpen inner) →
      (propertiesAt chain inner entries = .error failure ↔
        (descendantsIn chain entries).findSome? language.offence? = some failure)
  | [], _, _, chain, failure, _ => by
      rw [propertiesAt, descendantsIn, List.findSome?_nil]
      exact iff_of_false nofun nofun
  | (key, expected) :: rest, _, inner, chain, failure, there => by
      have here := at?_concat_of_record there key
      rw [propertiesAt, descendantsIn, ← List.cons_append, List.findSome?_append]
      cases known : List.lookup key inner with
      | none =>
          rw [known] at here
          simp [offence?, here]
      | some found =>
          rw [known] at here
          have first (other : Failure) : literalAt (chain ++ [key]) expected found = .error other ↔
              ((chain ++ [key], expected) :: expected.descendants (chain ++ [key])).findSome?
                language.offence? = some other :=
            literalAt_eq_error_iff expected here
          dsimp only
          cases outcome : literalAt (chain ++ [key]) expected found with
          | error other =>
              rw [(first other).mp outcome]
              simp
          | ok value =>
              have none : ((chain ++ [key], expected) ::
                  expected.descendants (chain ++ [key])).findSome? language.offence? = none := by
                rw [Option.eq_none_iff_forall_ne_some]
                intro other offence
                cases outcome.symm.trans ((first other).mpr offence)
              rw [none, Option.none_or]
              exact map_eq_error_iff.trans (propertiesAt_eq_error_iff rest there)

end

/-! ## Literals -/

/-- The expression at the end of a path that leads through objects. -/
def valueAt? : Expr → KeyPath → Option Expr
  | value, [] => some value
  | .object properties, key :: rest =>
      match List.lookup key properties with
      | some value => valueAt? value rest
      | none => none
  | _, _ :: _ => none

/-- The keys of an object, in their order. -/
def keysOf : Expr → List String
  | .object properties => Entries.keys properties
  | _ => []

theorem valueAt?_nil (value : Expr) : valueAt? value [] = some value := by
  rw [valueAt?]

theorem valueAt?_object_cons (properties : List (String × Expr)) (key : String) (rest : KeyPath) :
    valueAt? (.object properties) (key :: rest) =
      (List.lookup key properties).bind fun value => valueAt? value rest := by
  rw [valueAt?]
  cases List.lookup key properties with
  | none => rfl
  | some value => rfl

/-- An expression for a node of a language: the text itself, a function that is read as the segments
of the message, or an object for a record. -/
inductive Expresses : Expr → Node → Prop where
  | text (value : String) : Expresses (.text value) (.text value)
  | call {arrow : Arrow} {body : Body}
      (reads : Reading.ofCode? arrow.code = some (.function body.params body)) :
      Expresses (.arrow arrow) (.call body)
  | record (properties : List (String × Expr)) (isOpen : Bool) (entries : List (String × Node)) :
      Expresses (.object properties) (.record isOpen entries)

/-- A literal with the keys of the canonical node at every level, in their order, and with what the
language has at each of its paths. -/
structure IsLiteralOf (canonical language : Node) (literal : Expr) : Prop where
  keys : ∀ path, (valueAt? literal path).map keysOf = (canonical.at? path).map Node.keys
  values : ∀ path value, valueAt? literal path = some value →
    ∃ found, language.at? path = some found ∧ Expresses value found

/-- The literal of a leaf holds its message, and no path leads on from it. -/
theorem isLiteralOf_leaf {expected found : Node} {literal : Expr}
    (noKeys : keysOf literal = expected.keys) (expresses : Expresses literal found)
    (ends : ∀ key rest, valueAt? literal (key :: rest) = none ∧ expected.at? (key :: rest) = none) :
    IsLiteralOf expected found literal := by
  constructor
  · intro path
    cases path with
    | nil => rw [valueAt?_nil, at?_nil, Option.map_some, Option.map_some, noKeys]
    | cons key rest => rw [(ends key rest).1, (ends key rest).2, Option.map_none, Option.map_none]
  · intro path value there
    cases path with
    | nil =>
        rw [valueAt?_nil] at there
        cases there
        exact ⟨found, at?_nil found, expresses⟩
    | cons key rest =>
        rw [(ends key rest).1] at there
        cases there

/-- The object of a record is its literal if the values of its properties are literals of what the
language has under their keys. -/
theorem isLiteralOf_object {isOpen isFound : Bool} {entries language : List (String × Node)}
    {properties : List (String × Expr)} (keys : Entries.keys properties = Entries.keys entries)
    (each : ∀ key value, List.lookup key properties = some value →
      ∃ expected found, List.lookup key entries = some expected ∧
        List.lookup key language = some found ∧ IsLiteralOf expected found value) :
    IsLiteralOf (.record isOpen entries) (.record isFound language) (.object properties) := by
  constructor
  · intro path
    cases path with
    | nil =>
        rw [valueAt?_nil, at?_nil]
        exact congrArg some keys
    | cons key rest =>
        rw [valueAt?_object_cons, at?_record_cons]
        cases known : List.lookup key properties with
        | none =>
            have absent : List.lookup key entries = none := by
              rw [Entries.lookup_eq_none, ← keys]
              exact Entries.lookup_eq_none.mp known
            rw [absent]
            rfl
        | some value =>
            obtain ⟨expected, found, listed, _, literal⟩ := each key value known
            rw [listed]
            exact literal.keys rest
  · intro path value there
    cases path with
    | nil =>
        rw [valueAt?_nil] at there
        cases there
        exact ⟨_, at?_nil _, .record properties isFound language⟩
    | cons key rest =>
        rw [valueAt?_object_cons, Option.bind_eq_some_iff] at there
        obtain ⟨inner, known, below⟩ := there
        obtain ⟨expected, found, _, present, literal⟩ := each key inner known
        rw [at?_record_cons, present]
        exact literal.values rest value below

mutual

/-- What is made for a canonical node and a node of the language is its literal. -/
theorem isLiteralOf_of_literalAt :
    ∀ (expected : Node) {found : Node} {chain : KeyPath} {literal : Expr},
      literalAt chain expected found = .ok literal → IsLiteralOf expected found literal
  | .text _, found, chain, literal, made => by
      cases found with
      | text value =>
          cases made
          exact isLiteralOf_leaf rfl (.text value) fun key rest => ⟨rfl, rfl⟩
      | call body => cases made
      | record isOpen inner => cases made
  | .call _, found, chain, literal, made => by
      cases found with
      | text value => cases made
      | call body =>
          cases made
          exact isLiteralOf_leaf rfl (.call (ofCode?_callArrow body)) fun key rest => ⟨rfl, rfl⟩
      | record isOpen inner => cases made
  | .record _ entries, found, chain, literal, made => by
      cases found with
      | text value => cases made
      | call body => cases made
      | record isOpen inner =>
          rw [literalAt] at made
          obtain ⟨properties, outcome, rfl⟩ := ok_of_map_eq_ok made
          obtain ⟨keys, each⟩ := literals_of_propertiesAt entries outcome
          exact isLiteralOf_object keys each

/-- What is made for canonical entries has their keys, and for each of them the literal of what the
language has under the key. -/
theorem literals_of_propertiesAt :
    ∀ (entries : List (String × Node)) {language : Entries Node} {chain : KeyPath}
      {properties : List (String × Expr)},
      propertiesAt chain language entries = .ok properties →
      Entries.keys properties = Entries.keys entries ∧
        ∀ key value, List.lookup key properties = some value →
          ∃ expected found, List.lookup key entries = some expected ∧
            List.lookup key language = some found ∧ IsLiteralOf expected found value
  | [], language, chain, properties, made => by
      cases made
      exact ⟨rfl, nofun⟩
  | (other, expected) :: rest, language, chain, properties, made => by
      rw [propertiesAt] at made
      split at made
      · cases made
      · rename_i found present
        split at made
        · cases made
        · rename_i first literal
          have isLiteral := isLiteralOf_of_literalAt expected literal
          obtain ⟨others, behind, rfl⟩ := ok_of_map_eq_ok made
          obtain ⟨keys, each⟩ := literals_of_propertiesAt rest behind
          refine ⟨by rw [Entries.keys_cons, Entries.keys_cons, keys], fun key value known => ?_⟩
          rw [Entries.lookup_cons] at known ⊢
          by_cases same : key = other
          · subst same
            rw [if_pos rfl] at known ⊢
            cases known
            exact ⟨expected, found, rfl, present, isLiteral⟩
          · rw [if_neg same] at known ⊢
            exact each key value known

end

/-! ## Outcomes -/

/-- No node of the canonical tree is offended against if the language covers all that keys lead to. -/
theorem forall_covers_iff {canonical language : Tree} :
    canonical.descendants.findSome? language.toNode.offence? = none ↔
      ∀ chain expected, canonical.toNode.at? chain = some expected →
        language.toNode.Covers chain expected := by
  rw [List.findSome?_eq_none_iff]
  constructor
  · intro each chain expected there
    by_cases root : chain = []
    · subst root
      rw [at?_nil] at there
      cases there
      exact ⟨language.toNode, at?_nil _, rfl⟩
    · exact offence?_eq_none_iff.mp
        (each (chain, expected) (Tree.mem_descendants.mpr ⟨root, there⟩))
  · rintro each ⟨chain, expected⟩ member
    exact offence?_eq_none_iff.mpr
      (each chain expected (Tree.mem_descendants.mp member).2)

/-- The literal of a tree is that of its root, where every language has a record. -/
theorem treeLiteral_eq (canonical language : Tree) :
    treeLiteral canonical language = literalAt [] canonical.toNode language.toNode := by
  rw [Tree.toNode, Tree.toNode, literalAt]
  rfl

/-- A literal fails by the first offence in the canonical tree. -/
theorem treeLiteral_eq_error_iff {canonical language : Tree} {failure : Failure} :
    treeLiteral canonical language = .error failure ↔
      canonical.descendants.findSome? language.toNode.offence? = some failure := by
  have there : language.toNode.at? [] = some language.toNode := at?_nil _
  have root : language.toNode.offence? ([], canonical.toNode) = none :=
    offence?_eq_none_iff.mpr ⟨_, there, rfl⟩
  rw [treeLiteral_eq, literalAt_eq_error_iff canonical.toNode there, List.findSome?_cons, root,
    Tree.descendants]

/-- For any two trees: a literal is made if the language covers every node of the canonical tree, and
only then. It has the canonical keys in their order at every level, no others, and what the language
itself has there. When none is made, the failure tells of the first node in the order of a walk into
depth that the language does not cover: that nothing is there, or a node of which other kind. -/
theorem treeLiteral_outcome (canonical language : Tree) :
    ((∃ literal, treeLiteral canonical language = .ok literal) ↔
      ∀ chain expected, canonical.toNode.at? chain = some expected →
        language.toNode.Covers chain expected) ∧
    (∀ literal, treeLiteral canonical language = .ok literal →
      IsLiteralOf canonical.toNode language.toNode literal) ∧
    ∀ failure, treeLiteral canonical language = .error failure →
      ∃ front chain expected back, canonical.descendants = front ++ (chain, expected) :: back ∧
        (∀ earlier ∈ front, language.toNode.Covers earlier.1 earlier.2) ∧
        language.toNode.Offends chain expected failure failure.message := by
  refine ⟨?_, fun literal made => ?_, fun failure failed => ?_⟩
  · rw [← forall_covers_iff, Option.eq_none_iff_forall_ne_some]
    constructor
    · rintro ⟨literal, made⟩ failure offence
      cases made.symm.trans (treeLiteral_eq_error_iff.mpr offence)
    · intro none
      cases outcome : treeLiteral canonical language with
      | error failure => exact absurd (treeLiteral_eq_error_iff.mp outcome) (none failure)
      | ok literal => exact ⟨literal, rfl⟩
  · rw [treeLiteral_eq] at made
    exact isLiteralOf_of_literalAt canonical.toNode made
  · rw [treeLiteral_eq_error_iff, List.findSome?_eq_some_iff] at failed
    obtain ⟨front, ⟨chain, expected⟩, back, split, offence, before⟩ := failed
    exact ⟨front, chain, expected, back, split,
      fun earlier member => offence?_eq_none_iff.mp (before earlier member),
      offends_of_offence? offence⟩

/-- A dialog with two buttons, and a farewell with a name. -/
def dialog : Tree where
  entries :=
    [("dialog", .record false [("ok", .text "OK"), ("cancel", .text "Cancel")]),
     ("bye", .call [.literal "Bye ", .param "name"])]

/-- A farewell that takes no name, and a dialog with a button less and a title more. -/
def otherDialog : Tree where
  entries :=
    [("bye", .text "再见"), ("dialog", .record false [("title", .text "题"), ("ok", .text "好")])]

/-- The missing button is told, and not the farewell that comes later in the canonical tree. -/
theorem treeLiteral_other_dialog :
    (¬ ∃ literal, treeLiteral dialog otherDialog = .ok literal) ∧
      ∃ failure front expected back, treeLiteral dialog otherDialog = .error failure ∧
        failure.message = "no message at `dialog.cancel`" ∧
        dialog.descendants = front ++ (["dialog", "cancel"], expected) :: back ∧
        (∀ earlier ∈ front, otherDialog.toNode.Covers earlier.1 earlier.2) ∧
        otherDialog.toNode.Offends ["dialog", "cancel"] expected failure failure.message := by
  have failed : treeLiteral dialog otherDialog = .error (.messageAbsent ["dialog", "cancel"]) :=
    rfl
  obtain ⟨covers, _, fails⟩ := treeLiteral_outcome dialog otherDialog
  have uncovered : ¬ otherDialog.toNode.Covers ["dialog", "cancel"] (.text "Cancel") := by
    rintro ⟨found, there, _⟩
    cases there
  obtain ⟨front, chain, expected, back, split, before, offends⟩ := fails _ failed
  have here : chain = ["dialog", "cancel"] := by
    generalize text : (Failure.messageAbsent ["dialog", "cancel"]).message = message at offends
    cases offends
    rfl
  subst here
  exact ⟨fun made => uncovered (covers.mp made _ _ rfl), _, front, expected, back, failed,
    rfl, split, before, offends⟩

end Emission

end Phrasebook
