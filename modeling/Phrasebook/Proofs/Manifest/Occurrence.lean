import Phrasebook.Manifest.Span
import Phrasebook.Proofs.Text.Label

/-!
# Occurrences of a pattern

A search goes on from one character to the next while the pattern is not there. So a part of the text
that does not have the first character of the pattern is passed at once. The place that is found has
the shortest front before it.
-/

namespace Phrasebook.Manifest

open Text (byteSize byteSize_cons)

theorem find?_cons_of_here {pattern : List Char} {c : Char} {rest : List Char}
    (here : pattern <+: c :: rest) (offset : Nat) :
    find? pattern offset (c :: rest) = some offset := by
  refine if_pos ?_
  exact List.isPrefixOf_iff_prefix.mpr here

theorem find?_cons_of_elsewhere {pattern : List Char} {c : Char} {rest : List Char}
    (elsewhere : ¬ pattern <+: c :: rest) (offset : Nat) :
    find? pattern offset (c :: rest) = find? pattern (offset + c.utf8Size) rest := by
  refine if_neg fun here => elsewhere ?_
  exact List.isPrefixOf_iff_prefix.mp here

/-- An occurrence does not start with a character that the pattern does not start with. -/
theorem find?_append_of_not_mem {pattern front : List Char} {c : Char} (absent : c ∉ front)
    (offset : Nat) (rest : List Char) :
    find? (c :: pattern) offset (front ++ rest) =
      find? (c :: pattern) (offset + byteSize front) rest := by
  induction front generalizing offset with
  | nil => rfl
  | cons d front ih =>
      rw [List.mem_cons, not_or] at absent
      have elsewhere : ¬ c :: pattern <+: d :: (front ++ rest) := fun here =>
        absent.1 (List.cons_prefix_cons.mp here).1
      rw [List.cons_append, find?_cons_of_elsewhere elsewhere, ih absent.2, byteSize_cons,
        Nat.add_assoc]

/-! ## First places -/

/-- A front is the shortest one of those that a search looks for. -/
def IsFirst (holds : List Char → Prop) (front : List Char) : Prop :=
  holds front ∧ ∀ other, holds other → front.length ≤ other.length

theorem isFirst_nil {holds : List Char → Prop} (here : holds []) : IsFirst holds [] :=
  ⟨here, fun other _ => Nat.zero_le other.length⟩

/-- When all places are behind a part that is passed, the first one is the first one there. -/
theorem IsFirst.append {holds below : List Char → Prop} {front : List Char}
    (first : IsFirst below front) {passed : List Char}
    (shift : ∀ other, holds other ↔ ∃ more, other = passed ++ more ∧ below more) :
    IsFirst holds (passed ++ front) := by
  refine ⟨(shift _).mpr ⟨front, rfl, first.1⟩, fun other there => ?_⟩
  obtain ⟨more, rfl, inside⟩ := (shift other).mp there
  rw [List.length_append, List.length_append]
  exact Nat.add_le_add_left (first.2 more inside) _

/-! ## Occurrences -/

/-- A pattern stands in a text behind a front of it. -/
def OccursBehind (pattern text front : List Char) : Prop :=
  ∃ back, text = front ++ (pattern ++ back)

theorem occursBehind_cons {pattern text : List Char} {c : Char}
    (elsewhere : ¬ OccursBehind pattern (c :: text) []) (front : List Char) :
    OccursBehind pattern (c :: text) front ↔
      ∃ more, front = [c] ++ more ∧ OccursBehind pattern text more := by
  constructor
  · rintro ⟨back, whole⟩
    cases front with
    | nil => exact absurd ⟨back, whole⟩ elsewhere
    | cons d more =>
        obtain ⟨rfl, rest⟩ := List.cons.inj whole
        exact ⟨more, rfl, back, rest⟩
  · rintro ⟨more, rfl, back, rfl⟩
    exact ⟨back, rfl⟩

/-- The search finds the first occurrence, or there is none. -/
theorem find?_cases (pattern text : List Char) (offset : Nat) :
    (∃ front, IsFirst (OccursBehind pattern text) front ∧
        find? pattern offset text = some (offset + byteSize front)) ∨
      (∀ front, ¬ OccursBehind pattern text front) ∧ find? pattern offset text = none := by
  induction text generalizing offset with
  | nil =>
      cases pattern with
      | nil => exact Or.inl ⟨[], isFirst_nil ⟨[], rfl⟩, rfl⟩
      | cons c pattern =>
          refine Or.inr ⟨?_, rfl⟩
          rintro front ⟨back, whole⟩
          exact absurd whole.symm (by simp)
  | cons c text ih =>
      by_cases here : pattern <+: c :: text
      · obtain ⟨back, whole⟩ := here
        exact Or.inl ⟨[], isFirst_nil ⟨back, whole.symm⟩, find?_cons_of_here ⟨back, whole⟩ offset⟩
      · have elsewhere : ¬ OccursBehind pattern (c :: text) [] := fun ⟨back, whole⟩ =>
          here ⟨back, whole.symm⟩
        rw [find?_cons_of_elsewhere here]
        rcases ih (offset + c.utf8Size) with ⟨front, first, found⟩ | ⟨nowhere, found⟩
        · refine Or.inl ⟨[c] ++ front, first.append (occursBehind_cons elsewhere), ?_⟩
          rw [found, List.singleton_append, byteSize_cons, Nat.add_assoc]
        · refine Or.inr ⟨fun front there => ?_, found⟩
          obtain ⟨more, _, inside⟩ := (occursBehind_cons elsewhere front).mp there
          exact nowhere more inside

end Phrasebook.Manifest
