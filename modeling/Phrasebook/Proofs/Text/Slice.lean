import Phrasebook.Proofs.Text.Position

/-!
# Parts of a text

A span is the place of a part when so many bytes stand before the part and so many belong to it.
The text can then be cut at both ends of the span, and what is cut out is the part. A text can be cut
at every offset up to its end, unless the offset is inside a character.
-/

namespace Phrasebook.Text

/-! ## Cutting out a span -/

/-- The front of a text with a number of bytes, if a character ends there. -/
def takeBytes? : Nat → List Char → Option (List Char)
  | 0, _ => some []
  | _ + 1, [] => none
  | count + 1, c :: rest =>
      if c.utf8Size ≤ count + 1 then (takeBytes? (count + 1 - c.utf8Size) rest).map (c :: ·) else none

/-- The part of a text that a span covers, if the text can be cut at both ends. -/
def Span.slice? (text : List Char) (span : Span) : Option (List Char) :=
  (dropBytes? span.offset text).bind (takeBytes? span.length)

theorem takeBytes?_eq_some_iff {text part : List Char} {count : Nat} :
    takeBytes? count text = some part ↔ ∃ back, text = part ++ back ∧ count = byteSize part := by
  constructor
  · intro cut
    induction text generalizing count part with
    | nil =>
        cases count with
        | zero =>
            cases cut
            exact ⟨[], rfl, rfl⟩
        | succ count => cases cut
    | cons c rest ih =>
        cases count with
        | zero =>
            cases cut
            exact ⟨c :: rest, rfl, rfl⟩
        | succ count =>
            rw [takeBytes?] at cut
            split at cut
            · rename_i fits
              obtain ⟨others, taken, rfl⟩ := Option.map_eq_some_iff.mp cut
              obtain ⟨back, rfl, size⟩ := ih taken
              refine ⟨back, rfl, ?_⟩
              rw [byteSize_cons]
              omega
            · cases cut
  · rintro ⟨back, rfl, rfl⟩
    induction part with
    | nil => rw [byteSize_nil, takeBytes?]
    | cons c part ih =>
        have bytes := c.utf8Size_pos
        obtain ⟨count, size⟩ : ∃ count, byteSize (c :: part) = count + 1 :=
          Nat.exists_eq_succ_of_ne_zero (by rw [byteSize_cons]; omega)
        have fits : c.utf8Size ≤ count + 1 := by rw [← size, byteSize_cons]; omega
        have left : count + 1 - c.utf8Size = byteSize part := by rw [← size, byteSize_cons]; omega
        rw [size, List.cons_append, takeBytes?, if_pos fits, left, ih, Option.map_some]

theorem slice?_eq_some_iff {text part : List Char} {span : Span} :
    span.slice? text = some part ↔
      ∃ front back, text = front ++ (part ++ back) ∧ span = ⟨byteSize front, byteSize part⟩ := by
  unfold Span.slice?
  rw [Option.bind_eq_some_iff]
  constructor
  · rintro ⟨rest, dropped, taken⟩
    obtain ⟨front, rfl, offset⟩ := dropBytes?_eq_some_iff.mp dropped
    obtain ⟨back, rfl, length⟩ := takeBytes?_eq_some_iff.mp taken
    exact ⟨front, back, rfl, by rw [← offset, ← length]⟩
  · rintro ⟨front, back, rfl, rfl⟩
    exact ⟨part ++ back, dropBytes?_append front _, takeBytes?_eq_some_iff.mpr ⟨back, rfl, rfl⟩⟩

/-! ## Offsets inside characters -/

/-- An offset that some bytes of a character stand before and others behind. -/
def IsWithinChar (text : List Char) (offset : Nat) : Prop :=
  ∃ front c back, text = front ++ c :: back ∧
    byteSize front < offset ∧ offset < byteSize front + c.utf8Size

theorem IsWithinChar.cons {text : List Char} {offset : Nat} (inside : IsWithinChar text offset)
    (c : Char) : IsWithinChar (c :: text) (c.utf8Size + offset) := by
  obtain ⟨front, d, back, rfl, behind, before⟩ := inside
  refine ⟨c :: front, d, back, rfl, ?_, ?_⟩
  · rw [byteSize_cons]
    omega
  · rw [byteSize_cons]
    omega

end Phrasebook.Text
