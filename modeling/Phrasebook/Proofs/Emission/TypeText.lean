import Phrasebook.Code.Writer
import Phrasebook.Emission.Unit
import Phrasebook.Proofs.Emission.Literal

/-!
# The text of a type tells the shape

Trees of one shape have the same type, and the laid out text of a type can be decoded: its
tokens tell every key in its order, every kind and all parameters. So two declarations of the
root type are the same text exactly when the trees have one shape.
-/

namespace Phrasebook

mutual

/-- Two nodes of the same kind at every level: records with the same keys in the same order, and
calls with the same set of parameters. -/
inductive Node.Matches : Node → Node → Prop where
  | text (one other : String) : Matches (.text one) (.text other)
  | call {one other : List Segment} (params : Body.paramSet one = Body.paramSet other) :
      Matches (.call one) (.call other)
  | record {entries others : List (String × Node)} (isOpen isOther : Bool)
      (inner : MatchesAll entries others) : Matches (.record isOpen entries) (.record isOther others)

/-- Entries with the same keys in the same order, and matching nodes at them. -/
inductive Node.MatchesAll : List (String × Node) → List (String × Node) → Prop where
  | nil : MatchesAll [] []
  | cons {one other : Node} {entries others : List (String × Node)} (key : String)
      (first : Matches one other) (rest : MatchesAll entries others) :
      MatchesAll ((key, one) :: entries) ((key, other) :: others)

end

namespace Emission

open Code Node Script

mutual

theorem nodeType_of_matches :
    ∀ {one other : Node}, Matches one other → nodeType one = nodeType other
  | _, _, .text _ _ => rfl
  | _, _, .call params => by
      rw [nodeType, nodeType, callType, callType, optionsType_eq params]
  | _, _, .record _ _ inner => by
      rw [nodeType, nodeType, memberTypes_of_matches inner]

theorem memberTypes_of_matches :
    ∀ {entries others : List (String × Node)}, MatchesAll entries others →
      memberTypes entries = memberTypes others
  | _, _, .nil => rfl
  | _, _, .cons key first rest => by
      rw [memberTypes, memberTypes, nodeType_of_matches first, memberTypes_of_matches rest]

end

/-! ## Cutting -/

mutual

/-- The tokens of the type of a node. -/
def typeTokens : Node → List Token
  | .text _ => [.word "string"]
  | .call body =>
      .mark '(' :: .word "options" :: .mark ':' :: .mark '\x7b' ::
        (separated ';' ((Body.params body).map paramTokens) ++
          [.mark '\x7d', .mark ')', .arrow, .word "string"])
  | .record _ entries => .mark '\x7b' :: (memberTokens entries ++ [.mark '\x7d'])

def memberTokens : List (String × Node) → List Token
  | [] => []
  | (key, node) :: rest =>
      keyTokens key ++ .mark ':' :: (typeTokens node ++ .mark ';' :: memberTokens rest)

end

theorem scans_semicolon : Scans ";".toList [.mark ';'] :=
  .mark (by decide)

theorem scans_messageType : Scans (messageType ++ ";").toList [.word "string", .mark ';'] := by
  rw [String.toList_append]
  exact ScansApart.word (by decide) ';' [] _ (by decide) scans_semicolon

theorem scans_callType (body : Body) :
    Scans (callType body ++ ";").toList (typeTokens (.call body) ++ [Token.mark ';']) := by
  have named : Scans ("options".toList ++ [':', ' ']) [.word "options", .mark ':'] :=
    ScansApart.word (by decide) ':' [' '] _ (by decide) scans_colon
  have arrow : Scans [')', ' ', '=', '>', ' '] [.mark ')', .arrow] :=
    .mark_cons (by decide) (.space_cons (Scans.arrow.append .space))
  have whole := Scans.mark_cons (show '(' ∈ marks by decide)
    ((named.append (scans_optionsType body)).append (arrow.append scans_messageType))
  have code : (callType body ++ ";").toList = '(' :: ("options".toList ++ [':', ' '] ++
      (optionsType body).inline.toList ++
        ([')', ' ', '=', '>', ' '] ++ (messageType ++ ";").toList)) := by
    simp [callType]
  have tokens : typeTokens (.call body) ++ [Token.mark ';'] = Token.mark '(' ::
      ([Token.word "options", Token.mark ':'] ++
        (Token.mark '\x7b' :: separated ';' (body.params.map paramTokens) ++ [Token.mark '\x7d']) ++
          ([Token.mark ')', Token.arrow] ++ [Token.word "string", Token.mark ';'])) := by
    simp [typeTokens]
  rw [code, tokens]
  exact whole

mutual

/-- The type of a node with a semicolon behind it is cut into the tokens of the node, after those
of the text before it. -/
theorem scans_nodeType (indent : Indent) :
    ∀ (node : Node) (depth : Nat) {front : String} {before : List Token},
      Scans front.toList before →
      Scans (render indent
          ((((nodeType node).fragment.prepend front).append ";").lines depth)).toList
        (before ++ (typeTokens node ++ [Token.mark ';']))
  | .text _, depth, _, _, front => scans_line_between front scans_messageType indent depth
  | .call body, depth, _, _, front => scans_line_between front (scans_callType body) indent depth
  | .record _ [], depth, _, _, front => by
      rw [← List.append_assoc]
      exact scans_dressed_line front scans_braces scans_semicolon indent depth
  | .record _ (first :: rest), depth, _, _, front => by
      rw [← List.append_assoc]
      exact scans_dressed_block front (scans_memberTypes indent (first :: rest) (depth + 1))
        scans_semicolon

theorem scans_memberTypes (indent : Indent) :
    ∀ (entries : List (String × Node)) (depth : Nat),
      Scans (render indent (Fragment.linesOfAll depth
        (TypeExpr.memberFragments (memberTypes entries)))).toList (memberTokens entries)
  | [], _ => scans_render_nil indent
  | (key, node) :: rest, depth => by
      have here := scans_nodeType indent node depth (scans_propertyKey key)
      have whole := scans_render_append here (scans_memberTypes indent rest depth)
      have tokens : memberTokens ((key, node) :: rest) =
          keyTokens key ++ [Token.mark ':'] ++ (typeTokens node ++ [Token.mark ';']) ++
            memberTokens rest := by
        simp [memberTokens]
      rw [tokens]
      exact whole

end

/-! ## Decoding -/

/-- The key before a colon, and what stands behind the colon, can be read off the tokens. -/
theorem keyTokens_unique {key other : String} {behind otherBehind : List Token}
    (same : keyTokens key ++ .mark ':' :: behind = keyTokens other ++ .mark ':' :: otherBehind) :
    key = other ∧ behind = otherBehind := by
  have read := Reader.key_keyTokens key behind
  rw [same, Reader.key_keyTokens] at read
  simp only [Option.some.injEq, Prod.mk.injEq, Key.mk.injEq, List.cons.injEq] at read
  exact ⟨read.1.1.symm, read.2.2.symm⟩

/-- The parameters of a call, and what stands behind its arrow, can be read off the tokens. -/
theorem optionsTokens_unique {body other : Body} {behind otherBehind : List Token}
    (same : separated ';' (body.params.map paramTokens) ++
        .mark '\x7d' :: .mark ')' :: .arrow :: behind =
      separated ';' (other.params.map paramTokens) ++
        .mark '\x7d' :: .mark ')' :: .arrow :: otherBehind) :
    body.paramSet = other.paramSet ∧ behind = otherBehind := by
  have read := params_read body behind
  rw [same, params_read] at read
  simp only [Option.some.injEq, Prod.mk.injEq] at read
  exact ⟨Body.params_eq_iff.mp read.1.symm, read.2.symm⟩

/-- A member does not open with the brace that closes its record. -/
theorem memberTokens_opens (entry : String × Node) (rest : List (String × Node))
    (behind : List Token) :
    (memberTokens (entry :: rest) ++ behind).head? ≠ some (.mark '\x7d') := by
  obtain ⟨key, node⟩ := entry
  rw [memberTokens, List.append_assoc]
  exact Reader.keyTokens_opens key _

mutual

/-- Types with the same tokens at the front of a text are those of matching nodes, and end at the
same place. -/
theorem matches_of_typeTokens :
    ∀ (one other : Node) {behind otherBehind : List Token},
      typeTokens one ++ behind = typeTokens other ++ otherBehind →
      Matches one other ∧ behind = otherBehind
  | .text one, .text other, _, _, same => ⟨.text one other, (List.cons.inj same).2⟩
  | .call one, .call other, _, _, same => by
      simp only [typeTokens, List.cons_append, List.append_assoc, List.cons.injEq, true_and] at same
      obtain ⟨params, rest⟩ := optionsTokens_unique same
      exact ⟨.call params, (List.cons.inj rest).2⟩
  | .record isOpen entries, .record isOther others, _, _, same => by
      simp only [typeTokens, List.cons_append, List.append_assoc, List.cons.injEq, true_and] at same
      obtain ⟨inner, rest⟩ := matchesAll_of_memberTokens entries others same
      exact ⟨.record isOpen isOther inner, rest⟩
  -- the first token tells the kind of a type
  | .text _, .call _, _, _, same => by cases same
  | .text _, .record _ _, _, _, same => by cases same
  | .call _, .text _, _, _, same => by cases same
  | .call _, .record _ _, _, _, same => by cases same
  | .record _ _, .text _, _, _, same => by cases same
  | .record _ _, .call _, _, _, same => by cases same

theorem matchesAll_of_memberTokens :
    ∀ (entries others : List (String × Node)) {behind otherBehind : List Token},
      memberTokens entries ++ .mark '\x7d' :: behind =
        memberTokens others ++ .mark '\x7d' :: otherBehind →
      MatchesAll entries others ∧ behind = otherBehind
  | [], [], _, _, same => ⟨.nil, (List.cons.inj same).2⟩
  | [], entry :: rest, _, _, same =>
      absurd (congrArg List.head? same.symm) (memberTokens_opens entry rest _)
  | entry :: rest, [], _, _, same =>
      absurd (congrArg List.head? same) (memberTokens_opens entry rest _)
  | (key, one) :: entries, (otherKey, other) :: others, _, _, same => by
      rw [memberTokens, memberTokens, List.append_assoc, List.append_assoc, List.cons_append,
        List.cons_append, List.append_assoc, List.append_assoc] at same
      obtain ⟨rfl, types⟩ := keyTokens_unique same
      obtain ⟨first, members⟩ := matches_of_typeTokens one other types
      obtain ⟨rest, ends⟩ := matchesAll_of_memberTokens entries others (List.cons.inj members).2
      exact ⟨.cons key first rest, ends⟩

end

/-! ## The declaration of the root type -/

/-- What stands before a fragment stands before its text. -/
theorem render_prepend (fragment : Fragment) (front back : String) (indent : Indent) :
    render indent (((fragment.prepend front).append back).lines 0) =
      front ++ render indent (((fragment.prepend "").append back).lines 0) := by
  have opening (text : String) (lines : List Line) :
      render indent (⟨0, front ++ text⟩ :: lines) = front ++ render indent (⟨0, text⟩ :: lines) := by
    simp [render, Line.render, String.append_assoc]
  cases fragment with
  | line text =>
      simpa [Fragment.prepend, Fragment.append, Fragment.lines, String.append_assoc] using
        opening (text ++ back) []
  | blank => simpa [Fragment.prepend, Fragment.append, Fragment.lines] using opening back []
  | block header body close =>
      cases close with
      | none => simpa [Fragment.prepend, Fragment.append, Fragment.lines] using opening header _
      | some close => simpa [Fragment.prepend, Fragment.append, Fragment.lines] using opening header _

/-- The type of a node as it is laid out at the end of a declaration. -/
def typeText (node : Node) (indent : Indent) : String :=
  render indent ((((nodeType node).fragment.prepend "").append ";").lines 0)

theorem tokens?_typeText (node : Node) (indent : Indent) :
    tokens? (typeText node indent).toList = some (typeTokens node ++ [Token.mark ';']) :=
  (scans_nodeType indent node 0 (show Scans "".toList [] from Scans.nil)).tokens?_eq

/-- Types with the same text are those of matching nodes. -/
theorem matches_of_typeText {one other : Node} {indent : Indent}
    (same : typeText one indent = typeText other indent) : Matches one other := by
  have tokens : some (typeTokens one ++ [Token.mark ';']) =
      some (typeTokens other ++ [Token.mark ';']) := by
    rw [← tokens?_typeText one indent, same, tokens?_typeText]
  exact (matches_of_typeTokens one other (Option.some.inj tokens)).1

/-- The declarations of the root type of two schemas are the same text exactly when the canonical
trees match: the same keys in the same order, the same kinds and the same parameters. -/
theorem rootText_eq_iff (first second : Schema) (naming : Naming) (indent : Indent) :
    (Writer.fragment (rootAlias first naming).fragment {}).render indent =
        (Writer.fragment (rootAlias second naming).fragment {}).render indent ↔
      Matches first.canonical.toNode second.canonical.toNode := by
  have text (schema : Schema) :
      (Writer.fragment (rootAlias schema naming).fragment {}).render indent =
        "export type " ++ naming.rootType ++ " = " ++ typeText schema.canonical.toNode indent :=
    render_prepend _ _ _ _
  rw [text, text, String.append_right_inj]
  constructor
  · exact matches_of_typeText
  · intro shape
    rw [typeText, typeText, nodeType_of_matches shape]

end Emission

end Phrasebook
