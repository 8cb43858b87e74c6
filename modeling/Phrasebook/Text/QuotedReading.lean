import Phrasebook.Text.Hex
import Phrasebook.Text.Quoted

/-!
# Reading string literals

The text that the inside of a double-quoted literal denotes. Escapes are those that
literals are written with; a bare line break cannot stand in a literal.
-/

namespace Phrasebook.Text.Quoted

/-- What one character behind a backslash stands for. -/
def meant? (c : Char) : Option Char :=
  if c = '"' then some '"'
  else if c = '\\' then some '\\'
  else if c = 'n' then some '\n'
  else if c = 'r' then some '\r'
  else if c = 't' then some '\t'
  else none

/-- The character that an escape stands for, from behind its backslash, and what follows. -/
def escaped? : List Char → Option (Char × List Char)
  | [] => none
  | c :: rest => if c = 'u' then takeCode? 4 rest else (meant? c).map fun meant => (meant, rest)

/-- The first character of the text that goes on in a literal, and what follows. -/
def front? : List Char → Option (Char × List Char)
  | [] => none
  | c :: rest =>
      if c = '\\' then escaped? rest
      else if c = '"' || c = '\n' || c = '\r' then none
      else some (c, rest)

theorem takeHex?_length {count start code : Nat} {text after : List Char}
    (found : takeHex? count start text = some (code, after)) : after.length ≤ text.length := by
  induction text generalizing count start with
  | nil =>
      cases count with
      | zero =>
          cases found
          exact Nat.le_refl _
      | succ count => cases found
  | cons c rest ih =>
      cases count with
      | zero =>
          cases found
          exact Nat.le_refl _
      | succ count =>
          rw [takeHex?] at found
          split at found
          · exact Nat.le_succ_of_le (ih found)
          · cases found

theorem front?_length {text after : List Char} {c : Char} (found : front? text = some (c, after)) :
    after.length < text.length := by
  cases text with
  | nil => cases found
  | cons first rest =>
      rw [front?] at found
      split at found
      · cases rest with
        | nil => cases found
        | cons letter digits =>
            rw [escaped?] at found
            split at found
            · rw [takeCode?] at found
              split at found
              · rename_i taken
                split at found
                · cases found
                  exact Nat.lt_succ_of_lt (Nat.lt_succ_of_le (takeHex?_length taken))
                · cases found
              · cases found
            · obtain ⟨meant, _, same⟩ := Option.map_eq_some_iff.mp found
              cases same
              simp only [List.length_cons]
              omega
      · split at found
        · cases found
        · cases found
          exact Nat.lt_succ_self _

/-- The text up to the closing quote of a literal, and what follows the quote. -/
def inside? (text : List Char) : Option (List Char × List Char) :=
  match _found : front? text with
  | some (c, after) => (inside? after).map fun (rest, behind) => (c :: rest, behind)
  | none => if text.head? = some '"' then some ([], text.tail) else none
termination_by text.length
decreasing_by exact front?_length _found

theorem inside?_of_front
    {text after : List Char} {c : Char} (first : front? text = some (c, after)) :
    inside? text = (inside? after).map fun (rest, behind) => (c :: rest, behind) := by
  rw [inside?]
  split
  · rename_i found
    rw [first] at found
    cases found
    rfl
  · rename_i found
    rw [first] at found
    cases found

theorem inside?_of_end {text : List Char} (last : front? text = none) :
    inside? text = if text.head? = some '"' then some ([], text.tail) else none := by
  rw [inside?]
  split
  · rename_i found
    rw [last] at found
    cases found
  · rfl

theorem inside?_length {text inner after : List Char}
    (found : inside? text = some (inner, after)) : after.length < text.length := by
  induction text using inside?.induct generalizing inner with
  | case1 text c behind first ih =>
      rw [inside?_of_front first] at found
      obtain ⟨⟨rest, restAfter⟩, restFound, same⟩ := Option.map_eq_some_iff.mp found
      cases same
      exact Nat.lt_trans (ih restFound) (front?_length first)
  | case2 text last closes =>
      rw [inside?_of_end last, if_pos closes] at found
      cases found
      cases text with
      | nil => cases closes
      | cons c rest => exact Nat.lt_succ_self _
  | case3 text last opens =>
      rw [inside?_of_end last, if_neg opens] at found
      cases found

/-- The text that the literal at the front of a text denotes, and what follows the literal. -/
def literal? : List Char → Option (List Char × List Char)
  | [] => none
  | c :: rest => if c = '"' then inside? rest else none

end Phrasebook.Text.Quoted
