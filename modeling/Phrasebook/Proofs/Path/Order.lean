import Mathlib.Data.String.Basic
import Phrasebook.Proofs.Path

/-!
# Paths in order

Paths are ordered component by component, not by their texts: a separator that is written twice
changes the text of a path but not its place. In one directory both orders are that of the names.
-/

namespace Phrasebook.Path

/-- The kinds of components in their order. -/
def Component.rank : Component → Nat
  | .root => 0
  | .here => 1
  | .up => 2
  | .name _ => 3

/-- Whether a component comes before another one: by its kind, and names by their characters. -/
inductive Component.Before : Component → Component → Prop
  | kind {one other : Component} (lower : one.rank < other.rank) : Before one other
  | name {one other : String} (less : one < other) : Before (.name one) (.name other)

/-- Whether a path comes before another one. -/
def Before (one other : Path) : Prop :=
  List.Lex Component.Before one.components other.components

/-- What is joined to a directory comes behind the same text, whatever it is. -/
theorem exists_text_join (directory : Path) :
    ∃ front, ∀ rest, rest.toList.head? ≠ some '/' → (directory.join rest).text = front ++ rest := by
  cases found : directory.text.toList.getLast? with
  | none =>
      refine ⟨"", fun rest relative => ?_⟩
      rw [join, if_neg relative, found, String.empty_append]
  | some last =>
      refine ⟨if last = '/' then directory.text else directory.text ++ "/", fun rest relative => ?_⟩
      rw [join, if_neg relative, found]
      by_cases trailing : last = '/'
      · rw [if_pos trailing]
        exact if_pos trailing
      · rw [if_neg trailing]
        exact if_neg trailing

section

variable {directory : Path} {one other : String} (isOne : IsFileName one)

include isOne

/-- A name in a directory is one more component. -/
theorem components_join (directory : Path) :
    (directory.join one).components = directory.components ++ [.name one] := by
  obtain ⟨start, names⟩ := join_name directory isOne
  have component : Component.ofPiece one.toList = .name one := by
    rw [Component.ofPiece, if_neg isOne.notUp, String.ofList_toList]
  rw [components_eq, components_eq, start, names, List.map_append, List.map_singleton, component,
    List.append_assoc]

theorem join_injective (isOther : IsFileName other)
    (same : directory.join one = directory.join other) : one = other := by
  have components := congrArg Path.components same
  rw [components_join isOne, components_join isOther] at components
  exact Component.name.inj (List.cons.inj (List.append_cancel_left components)).1

/-- The names in a directory come in their own order. -/
theorem before_join (isOther : IsFileName other) (less : one < other) :
    (directory.join one).Before (directory.join other) := by
  rw [Before, components_join isOne, components_join isOther]
  exact List.Lex.append_left _ (List.Lex.rel (.name less)) _

/-- The texts of paths in one directory are in the order of the names. -/
theorem text_join_lt (isOther : IsFileName other) (less : one < other) :
    (directory.join one).text < (directory.join other).text := by
  obtain ⟨front, behind⟩ := exists_text_join directory
  rw [behind one isOne.relative, behind other isOther.relative, String.lt_iff_toList_lt,
    String.toList_append, String.toList_append]
  exact List.append_left_lt (String.lt_iff_toList_lt.mp less)

/-- In one directory the path with the smaller text comes before the other one. -/
theorem before_of_text_le (isOther : IsFileName other) (differ : one ≠ other)
    (atMost : (directory.join one).text ≤ (directory.join other).text) :
    (directory.join one).Before (directory.join other) := by
  apply before_join isOne isOther
  refine lt_of_le_of_ne ?_ differ
  rw [← String.not_lt]
  intro less
  exact String.not_lt.mpr atMost (text_join_lt isOther isOne less)

end

end Phrasebook.Path
