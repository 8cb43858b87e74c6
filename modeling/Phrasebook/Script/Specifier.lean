import Phrasebook.Script.Token

/-!
# Module specifiers of emitted code

The modules that a text of code refers to, in the order of their mention: the string literals
right behind `from` or `import`, where a call of `import` has a bracket between. Code with
declarations has more marks than object literals, so here every character that is neither a
blank nor the quote of a literal can be one.
-/

namespace Phrasebook.Script

/-- The character at the front of a text as a mark, if it can be one. -/
def anyMark? : List Char → Option (Token × List Char)
  | [] => none
  | c :: rest => if isSpace c || c = '"' then none else some (.mark c, rest)

/-- The token at the very front of a text of code, and what follows it. -/
def codeToken? (text : List Char) : Option (Token × List Char) :=
  (token? text).or (anyMark? text)

theorem codeToken?_length {text after : List Char} {token : Token}
    (found : codeToken? text = some (token, after)) : after.length < text.length := by
  rw [codeToken?, Option.or_eq_some_iff] at found
  rcases found with first | ⟨_, mark⟩
  · exact token?_length first
  · cases text with
    | nil => cases mark
    | cons c rest =>
        rw [anyMark?] at mark
        split at mark
        · cases mark
        · cases mark
          exact Nat.lt_succ_self _

/-- The tokens of a text of code. Only a literal that does not end has none. -/
def codeTokens? (text : List Char) : Option (List Token) :=
  match _found : codeToken? text with
  | some (token, after) => (codeTokens? after).map fun rest => token :: rest
  | none =>
      match text with
      | [] => some []
      | c :: rest => if isSpace c then codeTokens? rest else none
termination_by text.length
decreasing_by
  · exact codeToken?_length _found
  · exact Nat.lt_succ_self _

theorem codeTokens?_of_token
    {text after : List Char} {token : Token} (first : codeToken? text = some (token, after)) :
    codeTokens? text = (codeTokens? after).map fun rest => token :: rest := by
  rw [codeTokens?]
  split
  · rename_i found
    rw [first] at found
    cases found
    rfl
  · rename_i found
    rw [first] at found
    cases found

theorem codeTokens?_nil : codeTokens? [] = some [] := by
  rw [codeTokens?]
  split
  · rename_i found
    cases found
  · rfl

theorem codeTokens?_of_none {c : Char} {rest : List Char} (last : codeToken? (c :: rest) = none) :
    codeTokens? (c :: rest) = if isSpace c then codeTokens? rest else none := by
  rw [codeTokens?]
  split
  · rename_i found
    rw [last] at found
    cases found
  · rfl

/-- The module that the very front of a list of tokens refers to, if it refers to one. -/
def specifier? : List Token → Option String
  | .word "import" :: .mark '(' :: .text module :: _ => some module
  | .word "import" :: .text module :: _ => some module
  | .word "from" :: .text module :: _ => some module
  | _ => none

/-- The modules that tokens refer to, in the order of their mention. -/
def specifiersOf : List Token → List String
  | [] => []
  | first :: rest => (specifier? (first :: rest)).toList ++ specifiersOf rest

def specifiersIn? (text : List Char) : Option (List String) :=
  (codeTokens? text).map specifiersOf

/-- The modules that code refers to, in the order of their mention. -/
def specifiers? (code : String) : Option (List String) :=
  specifiersIn? code.toList

end Phrasebook.Script
