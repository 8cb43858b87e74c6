import Phrasebook.Emission.Literal
import Phrasebook.Proofs.Script.Listing
import Phrasebook.Proofs.Script.Name
import Phrasebook.Proofs.Tree.Conflict

/-!
# Functions of messages are read back

The function that a message with parameters becomes is cut into its tokens, and a reader
finds the parameters and the segments of the message in them.
-/

namespace Phrasebook.Emission

open Script

/-- The tokens of an item of the array that a function joins. -/
def segmentTokens : Segment → List Token
  | .literal text => [.text text]
  | .param name => accessTokens "options" name

/-- The tokens of a parameter with its type. -/
def paramTokens (name : String) : List Token :=
  keyTokens name ++ [.mark ':', .word "string", .mark '|', .word "number"]

/-- The tokens of a function, from behind its first bracket. -/
def callTokens (body : Body) : List Token :=
  [.word "options", .mark ':', .mark '\x7b'] ++ separated ';' (body.params.map paramTokens) ++
    [.mark '\x7d', .mark ')', .arrow, .mark '['] ++ separated ',' (body.map segmentTokens) ++
    [.mark ']', .mark '.', .word "join", .mark '(', .text "", .mark ')']

/-- Calls with the same parameters take the same options. -/
theorem optionsType_eq {expected found : Body} (params : expected.paramSet = found.paramSet) :
    optionsType expected = optionsType found := by
  rw [optionsType, optionsType, Body.params_eq_iff.mpr params]

/-! ## Cutting -/

theorem scansApart_segment (segment : Segment) :
    ScansApart (segmentCode segment).toList (segmentTokens segment) := by
  cases segment with
  | literal text => exact (Scans.literal text).apart
  | param name => exact scansApart_memberAccess (by decide) name

theorem scansApart_paramType :
    ScansApart paramType.toList [.word "string", .mark '|', .word "number"] := by
  have bar : Scans [' ', '|', ' '] [.mark '|'] := .space_cons (.mark_cons (by decide) .space)
  have front : Scans ("string".toList ++ [' ', '|', ' ']) [.word "string", .mark '|'] :=
    ScansApart.word (by decide) ' ' _ _ (by decide) bar
  have back : ScansApart "number".toList [.word "number"] := ScansApart.word (by decide)
  have split : paramType.toList = "string".toList ++ [' ', '|', ' '] ++ "number".toList := by
    decide
  rw [split]
  exact ScansApart.append front back

/-- The code of a parameter with its type. -/
def paramCode (name : String) : String := propertyKey name ++ ": " ++ paramType

theorem scansApart_param (name : String) :
    ScansApart (paramCode name).toList (paramTokens name) := by
  have whole := ScansApart.append (scans_propertyKey name) scansApart_paramType
  rw [← String.toList_append, List.append_assoc] at whole
  exact whole

theorem inlineMembers_params (names : List String) :
    TypeExpr.inlineMembers (names.map fun name => (name, .raw paramType)) =
      names.map paramCode := by
  induction names with
  | nil => rfl
  | cons name rest ih =>
      rw [List.map_cons, TypeExpr.inlineMembers, ih]
      rfl

/-- The type of the options is cut into the tokens of the parameters. -/
theorem scans_optionsType (body : Body) :
    Scans (optionsType body).inline.toList
      (.mark '\x7b' :: separated ';' (body.params.map paramTokens) ++ [.mark '\x7d']) := by
  rw [optionsType]
  cases names : body.params with
  | nil => exact .mark_cons (by decide) (.mark (by decide))
  | cons first rest =>
      have members : ScansApart ("; ".intercalate ((first :: rest).map paramCode)).toList
          (separated ';' ((first :: rest).map paramTokens)) :=
        scansApart_intercalate (by decide) (by decide) fun name _ => scansApart_param name
      have close : Scans [' ', '\x7d'] [.mark '\x7d'] := .space_cons (.mark (by decide))
      have opening : Scans ['\x7b', ' '] [.mark '\x7b'] := .mark_cons (by decide) .space
      have whole := opening.append (members ' ' ['\x7d'] _ (by decide) close)
      have code : (TypeExpr.literal ((first :: rest).map fun name => (name, .raw paramType))).inline =
          "\x7b " ++ "; ".intercalate ((first :: rest).map paramCode) ++ " \x7d" := by
        rw [← inlineMembers_params]
        rfl
      rw [code, String.toList_append, String.toList_append, List.append_assoc]
      exact whole

theorem scans_join :
    Scans "].join(\"\")".toList
      [.mark ']', .mark '.', .word "join", .mark '(', .text "", .mark ')'] := by
  have argument : Scans ('(' :: ((Text.Quoted.encode "").toList ++ [')']))
      [.mark '(', .text "", .mark ')'] :=
    .mark_cons (by decide) ((Scans.literal "").append (.mark (by decide)))
  have join : ScansApart "join".toList [.word "join"] := ScansApart.word (by decide)
  exact .mark_cons (by decide) (.mark_cons (by decide) (join '(' _ _ (by decide) argument))

/-- The array that a function joins is cut into the tokens of its segments. -/
theorem scans_callBody (body : Body) :
    Scans (callArrow body).body.toList
      (.mark '[' :: (separated ',' (body.map segmentTokens) ++
        [.mark ']', .mark '.', .word "join", .mark '(', .text "", .mark ')'])) := by
  have segments : ScansApart (", ".intercalate (body.map segmentCode)).toList
      (separated ',' (body.map segmentTokens)) :=
    scansApart_intercalate (by decide) (by decide) fun segment _ => scansApart_segment segment
  have array := Scans.mark_cons (show '[' ∈ marks by decide)
    (segments ']' _ _ (by decide) scans_join)
  have code : (callArrow body).body.toList =
      '[' :: ((", ".intercalate (body.map segmentCode)).toList ++ "].join(\"\")".toList) := by
    simp [callArrow]
  rw [code]
  exact array

/-- The function of a message is cut into its tokens. -/
theorem scans_callArrow (body : Body) :
    Scans (callArrow body).code.toList (.mark '(' :: callTokens body) := by
  have named : Scans (optionsName.toList ++ [':', ' ']) [.word "options", .mark ':'] :=
    ScansApart.word (by decide) ':' [' '] _ (by decide) scans_colon
  have arrow : Scans [')', ' ', '=', '>', ' '] [.mark ')', .arrow] :=
    .mark_cons (by decide) (.space_cons (Scans.arrow.append .space))
  have whole := Scans.mark_cons (show '(' ∈ marks by decide)
    ((named.append (scans_optionsType body)).append (arrow.append (scans_callBody body)))
  have code : (callArrow body).code.toList = '(' :: (optionsName.toList ++ [':', ' '] ++
      (optionsType body).inline.toList ++
        ([')', ' ', '=', '>', ' '] ++ (callArrow body).body.toList)) := by
    simp [callArrow, Arrow.code]
  have tokens : callTokens body = [.word "options", .mark ':'] ++
      (.mark '\x7b' :: separated ';' (body.params.map paramTokens) ++ [.mark '\x7d']) ++
      ([.mark ')', .arrow] ++ .mark '[' :: (separated ',' (body.map segmentTokens) ++
        [.mark ']', .mark '.', .word "join", .mark '(', .text "", .mark ')'])) := by
    simp [callTokens]
  rw [code, tokens]
  exact whole

/-! ## Reading -/

theorem segment_segmentTokens (segment : Segment) (rest : List Token) :
    Reader.segment (segmentTokens segment ++ rest) = some (segment, rest) := by
  cases segment with
  | literal text => rfl
  | param name =>
      rw [segmentTokens, accessTokens]
      split
      · rfl
      · rfl

theorem segmentTokens_opens (segment : Segment) (rest : List Token) :
    (segmentTokens segment ++ rest).head? ≠ some (.mark ']') := by
  cases segment with
  | literal text => rintro ⟨⟩
  | param name =>
      rw [segmentTokens, accessTokens]
      split
      · rintro ⟨⟩
      · rintro ⟨⟩

theorem segments_readable (body : Body) :
    Reader.ReadsItems Reader.segment ']' segmentTokens id body where
  reads segment _ := segment_segmentTokens segment
  opens segment _ := segmentTokens_opens segment

theorem params_readable (names : List String) :
    Reader.ReadsItems (Reader.keyed Reader.paramType) '\x7d' paramTokens
      (fun name => (⟨name, name = "__proto__"⟩, ())) names where
  reads name _ rest := by
    rw [paramTokens, List.append_assoc]
    exact Reader.keyed_keyTokens rfl name
  opens name _ rest := by
    rw [paramTokens, List.append_assoc]
    exact Reader.keyTokens_opens name _

theorem params_read (body : Body) (rest : List Token) :
    Reader.params (.word "options" :: .mark ':' :: .mark '\x7b' ::
        (separated ';' (body.params.map paramTokens) ++ .mark '\x7d' :: .mark ')' :: .arrow :: rest)) =
      some (body.params, rest) := by
  rw [Reader.params, Reader.list_separated (params_readable body.params) (by decide)]
  change some (List.map _ (List.map _ body.params), rest) = _
  rw [List.map_map]
  exact congrArg (fun names => some (names, rest)) (List.map_id body.params)

theorem joined_read (body : Body) (rest : List Token) :
    Reader.joined (.mark '[' :: (separated ',' (body.map segmentTokens) ++ .mark ']' :: .mark '.' ::
        .word "join" :: .mark '(' :: .text "" :: .mark ')' :: rest)) = some (body, rest) := by
  rw [Reader.joined, Reader.list_separated (segments_readable body) (by decide)]
  exact congrArg (fun found => some (found, rest)) (List.map_id body)

/-- The function of a message is read as its parameters and its segments. -/
theorem function_callTokens (body : Body) (rest : List Token) :
    Reader.function (callTokens body ++ rest) = some (.function body.params body, rest) := by
  have tokens : callTokens body ++ rest = .word "options" :: .mark ':' :: .mark '\x7b' ::
      (separated ';' (body.params.map paramTokens) ++ .mark '\x7d' :: .mark ')' :: .arrow ::
        .mark '[' :: (separated ',' (body.map segmentTokens) ++ .mark ']' :: .mark '.' ::
          .word "join" :: .mark '(' :: .text "" :: .mark ')' :: rest)) := by
    simp [callTokens]
  rw [tokens, Reader.function, params_read]
  dsimp only
  rw [joined_read]
  rfl

end Phrasebook.Emission
