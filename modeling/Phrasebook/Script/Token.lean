import Phrasebook.Script.Name
import Phrasebook.Text.QuotedReading

/-!
# Tokens of emitted code

The marks, names and string literals that a text of code consists of. Blanks and line ends
separate tokens and mean nothing else.
-/

namespace Phrasebook.Script

open Text

inductive Token where
  | mark (c : Char)
  | arrow
  | word (name : String)
  | text (value : String)
deriving DecidableEq, Repr

/-- The characters that are tokens by themselves. -/
def marks : List Char := ['\x7b', '\x7d', '[', ']', '(', ')', ':', ',', ';', '.', '|']

def isSpace (c : Char) : Bool :=
  c = ' ' || c = '\t' || c = '\n' || c = '\r'

/-- The token at the very front of a text, and what follows it. -/
def token? : List Char → Option (Token × List Char)
  | [] => none
  | c :: rest =>
      if c = '"' then
        (Quoted.inside? rest).map fun (value, after) => (.text (String.ofList value), after)
      else if isNameStart c then
        some (.word (String.ofList (c :: rest.takeWhile isNameRest)), rest.dropWhile isNameRest)
      else if marks.contains c then some (.mark c, rest)
      else if c = '=' && rest.head? = some '>' then some (.arrow, rest.tail)
      else none

theorem token?_length {text after : List Char} {token : Token}
    (found : token? text = some (token, after)) : after.length < text.length := by
  cases text with
  | nil => cases found
  | cons c rest =>
      rw [token?] at found
      split at found
      · obtain ⟨⟨value, behind⟩, inside, same⟩ := Option.map_eq_some_iff.mp found
        cases same
        exact Nat.lt_succ_of_lt (Quoted.inside?_length inside)
      · split at found
        · cases found
          exact Nat.lt_succ_of_le (List.dropWhile_suffix _).length_le
        · split at found
          · cases found
            exact Nat.lt_succ_self _
          · split at found
            · cases found
              simp only [List.length_tail, List.length_cons]
              omega
            · cases found

/-- The tokens of a text, if it consists of tokens and blanks. -/
def tokens? (text : List Char) : Option (List Token) :=
  match _found : token? text with
  | some (token, after) => (tokens? after).map fun rest => token :: rest
  | none =>
      match text with
      | [] => some []
      | c :: rest => if isSpace c then tokens? rest else none
termination_by text.length
decreasing_by
  · exact token?_length _found
  · exact Nat.lt_succ_self _

theorem tokens?_of_token
    {text after : List Char} {token : Token} (first : token? text = some (token, after)) :
    tokens? text = (tokens? after).map fun rest => token :: rest := by
  rw [tokens?]
  split
  · rename_i found
    rw [first] at found
    cases found
    rfl
  · rename_i found
    rw [first] at found
    cases found

theorem tokens?_nil : tokens? [] = some [] := by
  rw [tokens?]
  split
  · rename_i found
    cases found
  · rfl

theorem tokens?_of_none {c : Char} {rest : List Char} (last : token? (c :: rest) = none) :
    tokens? (c :: rest) = if isSpace c then tokens? rest else none := by
  rw [tokens?]
  split
  · rename_i found
    rw [last] at found
    cases found
  · rfl

theorem tokens?_of_space
    {c : Char} {rest : List Char} (last : token? (c :: rest) = none) (space : isSpace c = true) :
    tokens? (c :: rest) = tokens? rest := by
  rw [tokens?_of_none last, if_pos space]

end Phrasebook.Script
