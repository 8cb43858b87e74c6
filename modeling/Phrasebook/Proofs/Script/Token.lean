import Phrasebook.Proofs.Text.QuotedReading
import Phrasebook.Script.Token

/-!
# How code is cut into tokens

Each piece of emitted code is cut into the same tokens whatever stands behind it. A name is
an exception, since the next character may go on it; it is cut alike before every character
that does not.
-/

namespace Phrasebook.Script

open Text

/-! ## The first token -/

theorem token?_mark {c : Char} (isMark : c ∈ marks) (rest : List Char) :
    token? (c :: rest) = some (.mark c, rest) := by
  simp only [marks, List.mem_cons, List.not_mem_nil, or_false] at isMark
  rcases isMark with rfl | rfl | rfl | rfl | rfl | rfl | rfl | rfl | rfl | rfl | rfl <;> rfl

theorem token?_arrow (rest : List Char) : token? ('=' :: '>' :: rest) = some (.arrow, rest) := rfl

theorem token?_literal (value : String) (rest : List Char) :
    token? ((Quoted.encode value).toList ++ rest) = some (.text value, rest) := by
  rw [Quoted.toList_encode, Quoted.encodeChars, List.cons_append, List.append_assoc,
    List.singleton_append, token?, if_pos rfl, Quoted.inside?_escaped]
  simp

/-- A name ends before a character that does not go on it. -/
theorem token?_name
    {first : Char} {others rest : List Char} (starts : isNameStart first = true)
    (goesOn : others.all isNameRest = true)
    (ends : ∀ next ∈ rest.head?, isNameRest next = false) :
    token? (first :: others ++ rest) = some (.word (String.ofList (first :: others)), rest) := by
  rw [List.all_eq_true] at goesOn
  have noQuote : first ≠ '"' := by
    rintro rfl
    cases starts
  have stops : rest.takeWhile isNameRest = [] ∧ rest.dropWhile isNameRest = rest := by
    cases rest with
    | nil => exact ⟨rfl, rfl⟩
    | cons next more => simp [ends next rfl]
  rw [List.cons_append, token?, if_neg noQuote, if_pos starts,
    List.takeWhile_append_of_pos goesOn, List.dropWhile_append_of_pos goesOn, stops.1, stops.2,
    List.append_nil]

theorem token?_word
    {name : String} (identifier : isIdentifier name = true) {c : Char}
    (ends : isNameRest c = false) (rest : List Char) :
    token? (name.toList ++ c :: rest) = some (.word name, c :: rest) := by
  rw [isIdentifier] at identifier
  split at identifier
  · cases identifier
  · rename_i first others split
    obtain ⟨starts, goesOn⟩ := Bool.and_eq_true_iff.mp identifier
    rw [split, token?_name starts goesOn (by simpa using ends), ← split, String.ofList_toList]

theorem token?_space {c : Char} (space : isSpace c = true) (rest : List Char) :
    token? (c :: rest) = none := by
  simp only [isSpace, Bool.or_eq_true, decide_eq_true_eq] at space
  rcases space with ((rfl | rfl) | rfl) | rfl <;> rfl

/-! ## All tokens -/

/-- A text that is cut into the same tokens whatever follows. -/
def Scans (text : List Char) (front : List Token) : Prop :=
  ∀ rest, tokens? (text ++ rest) = (tokens? rest).map fun behind => front ++ behind

/-- A text that is cut into the same tokens if what follows does not go on a name. -/
def ScansApart (text : List Char) (front : List Token) : Prop :=
  ∀ c more behind, isNameRest c = false → Scans (c :: more) behind →
    Scans (text ++ c :: more) (front ++ behind)

namespace Scans

/-- With nothing behind it, a text is cut into its own tokens. -/
theorem tokens?_eq {text : List Char} {front : List Token} (scans : Scans text front) :
    tokens? text = some front := by
  have whole := scans []
  rw [List.append_nil, tokens?_nil, Option.map_some, List.append_nil] at whole
  exact whole

theorem nil : Scans [] [] := by
  intro rest
  simp

theorem append
    {text more : List Char} {front behind : List Token} (first : Scans text front)
    (second : Scans more behind) : Scans (text ++ more) (front ++ behind) := by
  intro rest
  rw [List.append_assoc, first, second, Option.map_map]
  simp [Function.comp_def]

/-- A text with one token at its front. -/
theorem of_token
    {text : List Char} {token : Token} (first : ∀ rest, token? (text ++ rest) = some (token, rest)) :
    Scans text [token] := by
  intro rest
  exact tokens?_of_token (first rest)

theorem mark {c : Char} (isMark : c ∈ marks) : Scans [c] [.mark c] :=
  of_token (token?_mark isMark)

theorem arrow : Scans ['=', '>'] [.arrow] :=
  of_token token?_arrow

theorem literal (value : String) : Scans (Quoted.encode value).toList [.text value] :=
  of_token (token?_literal value)

theorem spaces {text : List Char} (spaces : text.all isSpace = true) : Scans text [] := by
  induction text with
  | nil => exact nil
  | cons c text ih =>
      intro rest
      obtain ⟨space, others⟩ := Bool.and_eq_true_iff.mp spaces
      rw [List.cons_append, tokens?_of_space (token?_space space _) space]
      exact ih others rest

theorem space : Scans [' '] [] :=
  spaces (by decide)

theorem mark_cons
    {c : Char} {text : List Char} {front : List Token} (isMark : c ∈ marks)
    (scans : Scans text front) : Scans (c :: text) (.mark c :: front) :=
  (mark isMark).append scans

theorem space_cons {text : List Char} {front : List Token} (scans : Scans text front) :
    Scans (' ' :: text) front :=
  space.append scans

theorem apart {text : List Char} {front : List Token} (scans : Scans text front) :
    ScansApart text front :=
  fun _ _ _ _ later => scans.append later

end Scans

namespace ScansApart

theorem word {name : String} (identifier : isIdentifier name = true) :
    ScansApart name.toList [.word name] := by
  intro c more behind ends later rest
  rw [List.append_assoc, List.cons_append, tokens?_of_token (token?_word identifier ends _),
    ← List.cons_append, later rest, Option.map_map]
  rfl

theorem append
    {text more : List Char} {front behind : List Token} (first : Scans text front)
    (second : ScansApart more behind) : ScansApart (text ++ more) (front ++ behind) := by
  intro c further tokens ends later
  rw [List.append_assoc, List.append_assoc]
  exact first.append (second c further tokens ends later)

end ScansApart

end Phrasebook.Script
