import Phrasebook.Message.Segment

/-!
# Placeholders

A placeholder is two opening braces, one space, a name of ASCII letters and digits, one
space and two closing braces. Everything else, with fewer or more blanks for instance, is
ordinary text. `Body.ofText?` cuts a text at its placeholders, from left to right.
-/

namespace Phrasebook

namespace Placeholder

/-- The rest of a name and what follows the placeholder, when the text goes on with
letters or digits, a space and two closing braces. -/
def nameThen : List Char → Option (List Char × List Char)
  | [] => none
  | c :: rest =>
      if c.isAlphanum then (nameThen rest).map fun (name, after) => (c :: name, after)
      else match c, rest with
        | ' ', '}' :: '}' :: after => some ([], after)
        | _, _ => none

/-- The name of the placeholder at the very front of a text, and what follows it. -/
def front? : List Char → Option (List Char × List Char)
  | '{' :: '{' :: ' ' :: c :: rest =>
      if c.isAlphanum then (nameThen rest).map fun (name, after) => (c :: name, after)
      else none
  | _ => none

theorem nameThen_length {text name after : List Char} (found : nameThen text = some (name, after)) :
    after.length < text.length := by
  induction text generalizing name after with
  | nil => simp [nameThen] at found
  | cons c rest ih =>
      unfold nameThen at found
      split at found
      · obtain ⟨inner, innerFound, same⟩ := Option.map_eq_some_iff.mp found
        cases same
        exact Nat.lt_succ_of_lt (ih innerFound)
      · split at found
        · cases found
          simp only [List.length_cons]
          omega
        · cases found

theorem front?_length {text name after : List Char} (found : front? text = some (name, after)) :
    after.length < text.length := by
  unfold front? at found
  split at found
  · split at found
    · obtain ⟨inner, innerFound, same⟩ := Option.map_eq_some_iff.mp found
      cases same
      have := nameThen_length innerFound
      simp only [List.length_cons]
      omega
    · cases found
  · cases found

/-- A stretch of a text: plain characters, or the name of a placeholder. -/
inductive Piece where
  | plain (text : List Char)
  | name (text : List Char)
deriving DecidableEq, Repr

/-- Puts one character before a list of pieces, into the plain piece that opens it if
there is one. -/
def Piece.push (c : Char) : List Piece → List Piece
  | .plain text :: rest => .plain (c :: text) :: rest
  | pieces => .plain [c] :: pieces

/-- The pieces of a text, cut at its placeholders. -/
def pieces (text : List Char) : List Piece :=
  match _found : front? text with
  | some (name, after) => .name name :: pieces after
  | none =>
      match text with
      | [] => []
      | c :: rest => Piece.push c (pieces rest)
termination_by text.length
decreasing_by
  · exact front?_length _found
  · simp

def Piece.segment : Piece → Segment
  | .plain text => .literal (String.ofList text)
  | .name text => .param (String.ofList text)

def Piece.isName : Piece → Bool
  | .plain _ => false
  | .name _ => true

end Placeholder

/-- The segments of a text that holds a placeholder, and `none` for any other text. -/
def Body.ofText? (text : String) : Option Body :=
  let pieces := Placeholder.pieces text.toList
  if pieces.any Placeholder.Piece.isName then some (pieces.map Placeholder.Piece.segment)
  else none

end Phrasebook
