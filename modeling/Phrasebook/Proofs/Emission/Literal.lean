import Phrasebook.Proofs.Emission.Call
import Phrasebook.Proofs.Entries
import Phrasebook.Proofs.Script.Layout

/-!
# Literals of trees are read back

The literal of a tree, laid out with any indentation, is cut into the tokens of the tree,
and these are read as the tree: every key as an own property, in the order of the tree, and
no prototype.
-/

namespace Phrasebook.Emission

open Code Script

mutual

/-- The expression of a node. -/
def literalOf : Node → Expr
  | .text value => .text value
  | .call body => .arrow (callArrow body)
  | .record _ entries => .object (propertiesOf entries)

def propertiesOf : List (String × Node) → List (String × Expr)
  | [] => []
  | (key, node) :: rest => (key, literalOf node) :: propertiesOf rest

end

mutual

/-- The tokens of the expression of a node. -/
def nodeTokens : Node → List Token
  | .text value => [.text value]
  | .call body => .mark '(' :: callTokens body
  | .record _ entries => .mark '\x7b' :: (entryTokens entries ++ [.mark '\x7d'])

def entryTokens : List (String × Node) → List Token
  | [] => []
  | (key, node) :: rest =>
      keyTokens key ++ .mark ':' :: nodeTokens node ++ .mark ',' :: entryTokens rest

end

mutual

/-- What the expression of a node denotes. -/
def readingOf : Node → Reading
  | .text value => .text value
  | .call body => .function (Body.params body) body
  | .record _ entries => .object none (readingsOf entries)

def readingsOf : List (String × Node) → List (String × Reading)
  | [] => []
  | (key, node) :: rest => (key, readingOf node) :: readingsOf rest

end

/-! ## Cutting -/

section Cutting

variable {front back : String} {before behind : List Token}

/-- Code on one line is cut with the text behind it, after the text before it. -/
theorem scans_line_between
    {code : String} {tokens : List Token} (frontScans : Scans front.toList before)
    (scans : Scans (code ++ back).toList tokens) (indent : Indent) (depth : Nat) :
    Scans (render indent ((((Fragment.line code).prepend front).append back).lines depth)).toList
      (before ++ tokens) := by
  have line : Scans (front ++ code ++ back).toList (before ++ tokens) := by
    rw [String.append_assoc, String.toList_append]
    exact frontScans.append scans
  have whole := scans_render_cons (scans_line line indent depth) (scans_render_nil indent)
  rw [List.append_nil] at whole
  exact whole

/-- Code on one line is cut between the texts that are put around it. -/
theorem scans_dressed_line
    {code : String} {tokens : List Token} (frontScans : Scans front.toList before)
    (scans : Scans code.toList tokens) (backScans : Scans back.toList behind) (indent : Indent)
    (depth : Nat) :
    Scans (render indent ((((Fragment.line code).prepend front).append back).lines depth)).toList
      (before ++ tokens ++ behind) := by
  have line : Scans (code ++ back).toList (tokens ++ behind) := by
    rw [String.toList_append]
    exact scans.append backScans
  rw [List.append_assoc]
  exact scans_line_between frontScans line indent depth

theorem scans_braces : Scans "\x7b\x7d".toList [.mark '\x7b', .mark '\x7d'] :=
  .mark_cons (by decide) (.mark (by decide))

/-- A block is cut into its opening line, its body and its closing line. -/
theorem scans_dressed_block
    {body : List Fragment} {tokens : List Token} {indent : Indent} {depth : Nat}
    (frontScans : Scans front.toList before)
    (scans : Scans (render indent (Fragment.linesOfAll (depth + 1) body)).toList tokens)
    (backScans : Scans back.toList behind) :
    Scans (render indent ((((Fragment.block "\x7b" body (some "\x7d")).prepend front).append
        back).lines depth)).toList
      (before ++ .mark '\x7b' :: (tokens ++ [.mark '\x7d']) ++ behind) := by
  have header : Scans (front ++ "\x7b").toList (before ++ [.mark '\x7b']) := by
    rw [String.toList_append]
    exact frontScans.append (.mark (by decide))
  have close : Scans ("\x7d" ++ back).toList (.mark '\x7d' :: behind) := by
    rw [String.toList_append]
    exact .mark_cons (by decide) backScans
  have closing := scans_render_cons (scans_line close indent depth) (scans_render_nil indent)
  have whole := scans_render_cons (scans_line header indent depth)
    (scans_render_append scans closing)
  have tokens : before ++ .mark '\x7b' :: (tokens ++ [.mark '\x7d']) ++ behind =
      before ++ [.mark '\x7b'] ++ (tokens ++ (.mark '\x7d' :: behind ++ [])) := by
    simp
  rw [tokens]
  exact whole

end Cutting

mutual

/-- The literal of a node is cut into the tokens of the node, between those of the texts that
are put around it. -/
theorem scans_literalOf (indent : Indent) :
    ∀ (node : Node) (depth : Nat) {front back : String} {before behind : List Token},
      Scans front.toList before → Scans back.toList behind →
      Scans (render indent
          ((((literalOf node).fragment.prepend front).append back).lines depth)).toList
        (before ++ nodeTokens node ++ behind)
  | .text value, depth, _, _, _, _, front, back =>
      scans_dressed_line front (Scans.literal value) back indent depth
  | .call body, depth, _, _, _, _, front, back =>
      scans_dressed_line front (scans_callArrow body) back indent depth
  | .record _ [], depth, _, _, _, _, front, back =>
      scans_dressed_line front scans_braces back indent depth
  | .record _ (first :: rest), depth, _, _, _, _, front, back =>
      scans_dressed_block front (scans_propertiesOf indent (first :: rest) (depth + 1)) back

theorem scans_propertiesOf (indent : Indent) :
    ∀ (entries : List (String × Node)) (depth : Nat),
      Scans (render indent (Fragment.linesOfAll depth
        (Expr.propertyFragments (propertiesOf entries)))).toList (entryTokens entries)
  | [], _ => scans_render_nil indent
  | (key, node) :: rest, depth => by
      have comma : Scans ",".toList [.mark ','] := .mark (by decide)
      have here := scans_literalOf indent node depth (scans_propertyKey key) comma
      have whole := scans_render_append here (scans_propertiesOf indent rest depth)
      have tokens : entryTokens ((key, node) :: rest) =
          keyTokens key ++ [.mark ':'] ++ nodeTokens node ++ [.mark ','] ++ entryTokens rest := by
        simp [entryTokens]
      rw [tokens]
      exact whole

end

/-! ## Reading -/

/-- The tokens of an entry, without the comma. -/
def propertyTokens (entry : String × Node) : List Token :=
  keyTokens entry.1 ++ .mark ':' :: nodeTokens entry.2

theorem entryTokens_eq (entries : List (String × Node)) :
    entryTokens entries = entries.flatMap fun entry => propertyTokens entry ++ [.mark ','] := by
  induction entries with
  | nil => rfl
  | cons entry rest ih =>
      obtain ⟨key, node⟩ := entry
      rw [entryTokens, List.flatMap_cons, ih, propertyTokens]
      simp

theorem length_nodeTokens_le {key : String} {node : Node} {entries : List (String × Node)}
    (member : (key, node) ∈ entries) : (nodeTokens node).length ≤ (entryTokens entries).length := by
  induction entries with
  | nil => cases member
  | cons entry rest ih =>
      obtain ⟨other, found⟩ := entry
      simp only [entryTokens, List.length_append, List.length_cons]
      rcases List.mem_cons.mp member with same | later
      · cases same
        omega
      · have bound := ih later
        omega

theorem readingsOf_eq (entries : List (String × Node)) :
    readingsOf entries = entries.map fun entry => (entry.1, readingOf entry.2) := by
  induction entries with
  | nil => rfl
  | cons entry rest ih =>
      obtain ⟨key, node⟩ := entry
      rw [readingsOf, ih]
      rfl

/-- A property as a reader finds it. -/
def propertyOf (entry : String × Node) : Key × Reading :=
  (⟨entry.1, entry.1 = "__proto__"⟩, readingOf entry.2)

theorem keys_readingsOf (entries : List (String × Node)) :
    Entries.keys (readingsOf entries) = Entries.keys entries := by
  rw [readingsOf_eq]
  exact Entries.keys_map Prod.fst _ entries

/-- The properties of a record make an object without a prototype, which has all of them. -/
theorem object?_propertyOf {entries : List (String × Node)}
    (distinct : (Entries.keys entries).Nodup) :
    object? (entries.map propertyOf) = some (.object none (readingsOf entries)) := by
  have plain : ∀ property ∈ entries.map propertyOf, property.1.setsPrototype = false := by
    intro property member
    obtain ⟨entry, _, rfl⟩ := List.mem_map.mp member
    exact Reader.setsPrototype_written entry.1
  have setters : (entries.map propertyOf).filter (fun property => property.1.setsPrototype) = [] :=
    List.filter_eq_nil_iff.mpr fun property member => by simp [plain property member]
  have others : (entries.map propertyOf).filter (fun property => !property.1.setsPrototype) =
      entries.map propertyOf :=
    List.filter_eq_self.mpr fun property member => by simp [plain property member]
  have pairs : (entries.map propertyOf).map (fun property => (property.1.name, property.2)) =
      readingsOf entries := by
    rw [readingsOf_eq, List.map_map]
    rfl
  rw [object?, setters, others, pairs, Entries.ofPairs_of_nodup]
  rwa [keys_readingsOf]

/-- The tokens of a node are read as the node, whatever follows. -/
theorem expression_nodeTokens
    {node : Node} (distinct : node.Distinct) {depth : Nat} (enough : (nodeTokens node).length ≤ depth)
    (rest : List Token) :
    Reader.expression depth (nodeTokens node ++ rest) = some (readingOf node, rest) := by
  induction distinct generalizing depth rest with
  | text value => cases depth <;> rfl
  | call body =>
      have read := function_callTokens body rest
      cases depth with
      | zero => exact read
      | succ depth => exact read
  | @record isOpen entries here inner ih =>
      obtain ⟨depth, rfl⟩ := Nat.exists_eq_succ_of_ne_zero
        (Nat.ne_of_gt (Nat.lt_of_lt_of_le (Nat.succ_pos _) enough))
      have readable : Reader.ReadsItems (Reader.keyed (Reader.expression depth)) '\x7d'
          propertyTokens propertyOf entries := by
        constructor
        · rintro ⟨key, node⟩ member rest
          have shorter : (nodeTokens node).length ≤ depth := by
            have inside := length_nodeTokens_le member
            rw [nodeTokens, List.length_cons, List.length_append] at enough
            omega
          rw [propertyTokens, List.append_assoc]
          exact Reader.keyed_keyTokens (ih key node member shorter rest) key
        · rintro ⟨key, node⟩ _ rest
          rw [propertyTokens, List.append_assoc]
          exact Reader.keyTokens_opens key _
      have listed := Reader.list_terminated readable (show ',' ≠ '\x7d' by decide) rest
      rw [← entryTokens_eq] at listed
      have tokens : nodeTokens (.record isOpen entries) ++ rest =
          .mark '\x7b' :: (entryTokens entries ++ .mark '\x7d' :: rest) := by
        simp [nodeTokens]
      rw [tokens, Reader.expression, listed]
      change Option.map _ (object? (entries.map propertyOf)) = _
      rw [object?_propertyOf here]
      rfl

theorem undressed (node : Node) :
    ((literalOf node).fragment.prepend "").append "" = (literalOf node).fragment := by
  cases node with
  | text value => simp [literalOf, Expr.fragment, Fragment.prepend, Fragment.append]
  | call body => simp [literalOf, Expr.fragment, Fragment.prepend, Fragment.append]
  | record isOpen entries =>
      cases entries with
      | nil => rfl
      | cons first rest =>
          simp [literalOf, propertiesOf, Expr.fragment, Fragment.prepend, Fragment.append]

/-- Code is read as what its tokens are read as. -/
theorem ofCode?_of_scans {code : String} {node : Node} (distinct : node.Distinct)
    (scans : Scans code.toList (nodeTokens node)) :
    Reading.ofCode? code = some (readingOf node) := by
  have read := expression_nodeTokens distinct (Nat.le_refl _) []
  rw [List.append_nil] at read
  rw [Reading.ofCode?, scans.tokens?_eq]
  simp only [read]

/-- The laid out literal of a node is read as the node. -/
theorem ofCode?_literalOf {node : Node} (distinct : node.Distinct) (indent : Indent) :
    Reading.ofCode? (render indent ((literalOf node).fragment.lines 0)) = some (readingOf node) := by
  have whole := scans_literalOf indent node 0 (show Scans "".toList [] from Scans.nil)
    (show Scans "".toList [] from Scans.nil)
  rw [undressed, List.nil_append, List.append_nil] at whole
  exact ofCode?_of_scans distinct whole

/-- The function of a message is read as its parameters and its segments. -/
theorem ofCode?_callArrow (body : Body) :
    Reading.ofCode? (callArrow body).code = some (.function body.params body) :=
  ofCode?_of_scans (.call body) (scans_callArrow body)

end Phrasebook.Emission
