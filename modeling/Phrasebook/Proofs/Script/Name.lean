import Phrasebook.Proofs.Script.Token
import Phrasebook.Script.Reader

/-!
# Keys and members in emitted code

The tokens of property keys and member accesses, and what a reader makes of them. No key is
written so that it sets the prototype.
-/

namespace Phrasebook.Script

open Text

/-- The tokens of a property key. -/
def keyTokens (key : String) : List Token :=
  if key = "__proto__" then [.mark '[', .text key, .mark ']']
  else if isIdentifier key then [.word key]
  else [.text key]

/-- The tokens of an access to a member of an object with a plain name. -/
def accessTokens (object member : String) : List Token :=
  if isIdentifier member then [.word object, .mark '.', .word member]
  else [.word object, .mark '[', .text member, .mark ']']

theorem scans_colon : Scans [':', ' '] [.mark ':'] :=
  .mark_cons (by decide) .space

/-- A key is cut into its tokens before the colon. -/
theorem scans_propertyKey (key : String) :
    Scans (propertyKey key ++ ": ").toList (keyTokens key ++ [.mark ':']) := by
  rw [propertyKey, keyTokens, String.toList_append]
  split
  · rw [String.toList_append, String.toList_append]
    exact (((Scans.mark (by decide)).append (Scans.literal key)).append
      (Scans.mark (by decide))).append scans_colon
  · split
    · rename_i identifier
      exact ScansApart.word identifier _ _ _ (by decide) scans_colon
    · exact (Scans.literal key).append scans_colon

theorem scansApart_memberAccess {object : String} (plain : isIdentifier object = true)
    (member : String) :
    ScansApart (memberAccess object member).toList (accessTokens object member) := by
  have opened (c : Char) (isMark : c ∈ marks) (ends : isNameRest c = false) :
      Scans (object.toList ++ [c]) [.word object, .mark c] :=
    ScansApart.word plain c [] _ ends (Scans.mark isMark)
  rw [memberAccess, accessTokens]
  split
  · rename_i identifier
    rw [String.toList_append, String.toList_append]
    exact ScansApart.append (opened '.' (by decide) (by decide)) (ScansApart.word identifier)
  · rw [String.toList_append, String.toList_append, String.toList_append]
    have closed := (Scans.literal member).append (Scans.mark (show ']' ∈ marks by decide))
    have whole := (opened '[' (by decide) (by decide)).append closed
    rw [← List.append_assoc] at whole
    exact whole.apart

namespace Reader

/-- A key is read back. It is written as a computed one only where it must be. -/
theorem key_keyTokens (name : String) (rest : List Token) :
    key (keyTokens name ++ .mark ':' :: rest) =
      some (⟨name, name = "__proto__"⟩, .mark ':' :: rest) := by
  rw [keyTokens]
  split
  · rename_i same
    subst same
    rfl
  · rename_i differs
    split
    · simp [key, differs]
    · simp [key, differs]

/-- What stands behind a key is read with the key. -/
theorem keyed_keyTokens
    {α : Type} {behind : Reader α} {text rest : List Token} {value : α}
    (reads : behind text = some (value, rest)) (name : String) :
    keyed behind (keyTokens name ++ .mark ':' :: text) =
      some ((⟨name, name = "__proto__"⟩, value), rest) := by
  rw [keyed, key_keyTokens]
  change Option.map _ (behind text) = _
  rw [reads]
  rfl

/-- A key does not close what it stands in. -/
theorem keyTokens_opens (name : String) (rest : List Token) :
    (keyTokens name ++ rest).head? ≠ some (.mark '\x7d') := by
  rw [keyTokens]
  split
  · rintro ⟨⟩
  · split
    · rintro ⟨⟩
    · rintro ⟨⟩

/-- No written key sets the prototype. -/
theorem setsPrototype_written (name : String) :
    Key.setsPrototype ⟨name, name = "__proto__"⟩ = false := by
  simp [Key.setsPrototype]

end Reader

end Phrasebook.Script
