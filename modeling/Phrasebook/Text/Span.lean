import Phrasebook.Text.Lines

/-!
# Positions and spans in a text

Offsets and lengths count the bytes of the text in UTF-8, lines count from one. A span
labels the part of a source that a message is about.
-/

namespace Phrasebook.Text

/-- The number of bytes of a list of characters. -/
def byteSize : List Char → Nat
  | [] => 0
  | c :: rest => c.utf8Size + byteSize rest

/-- A part of a source: its first byte, and how many bytes it has. -/
structure Span where
  offset : Nat
  length : Nat
deriving DecidableEq, Repr

/-- The rest of a text from a byte offset on, if a character starts or the text ends there. -/
def dropBytes? : Nat → List Char → Option (List Char)
  | 0, text => some text
  | _ + 1, [] => none
  | count + 1, c :: rest =>
      if c.utf8Size ≤ count + 1 then dropBytes? (count + 1 - c.utf8Size) rest else none

@[simp]
theorem byteSize_nil : byteSize [] = 0 := rfl

@[simp]
theorem byteSize_cons (c : Char) (rest : List Char) :
    byteSize (c :: rest) = c.utf8Size + byteSize rest := rfl

@[simp]
theorem byteSize_append (front back : List Char) :
    byteSize (front ++ back) = byteSize front + byteSize back := by
  induction front with
  | nil => simp
  | cons c front ih => simp [ih, Nat.add_assoc]

theorem dropBytes?_cons (c : Char) (rest : List Char) (count : Nat) :
    dropBytes? (c.utf8Size + count) (c :: rest) = dropBytes? count rest := by
  have bytes := c.utf8Size_pos
  obtain ⟨fewer, size⟩ : ∃ fewer, c.utf8Size + count = fewer + 1 :=
    ⟨c.utf8Size + count - 1, by omega⟩
  rw [size, dropBytes?, ← size, if_pos (Nat.le_add_right _ _), Nat.add_sub_cancel_left]

theorem dropBytes?_append (front rest : List Char) :
    dropBytes? (byteSize front) (front ++ rest) = some rest := by
  induction front with
  | nil => rw [byteSize_nil, List.nil_append, dropBytes?]
  | cons c front ih => rw [List.cons_append, byteSize_cons, dropBytes?_cons, ih]

/-- A text can be cut at an offset when so many bytes are those of a front of it. -/
theorem dropBytes?_eq_some_iff {text rest : List Char} {count : Nat} :
    dropBytes? count text = some rest ↔
      ∃ front, text = front ++ rest ∧ count = byteSize front := by
  constructor
  · intro cut
    induction text generalizing count with
    | nil =>
        cases count with
        | zero => exact ⟨[], Option.some.inj cut, rfl⟩
        | succ count => cases cut
    | cons c text ih =>
        cases count with
        | zero => exact ⟨[], Option.some.inj cut, rfl⟩
        | succ count =>
            rw [dropBytes?] at cut
            split at cut
            · rename_i fits
              obtain ⟨front, rfl, size⟩ := ih cut
              refine ⟨c :: front, rfl, ?_⟩
              rw [byteSize_cons]
              omega
            · cases cut
  · rintro ⟨front, rfl, rfl⟩
    exact dropBytes?_append front rest

/-- Behind a cut a text can be cut again after any number of characters. -/
theorem dropBytes?_drop {text rest : List Char} {offset : Nat}
    (cut : dropBytes? offset text = some rest) (count : Nat) :
    dropBytes? (offset + byteSize (rest.take count)) text = some (rest.drop count) := by
  obtain ⟨front, rfl, rfl⟩ := dropBytes?_eq_some_iff.mp cut
  refine dropBytes?_eq_some_iff.mpr ⟨front ++ rest.take count, ?_, (byteSize_append _ _).symm⟩
  rw [List.append_assoc, List.take_append_drop]

/-- The span of the character at an offset, empty at the end of the text. Offsets beyond
the end stand for the end; one inside a character has no span. -/
def pointSpan? (text : List Char) (offset : Nat) : Option Span :=
  let start := min offset (byteSize text)
  (dropBytes? start text).map fun rest => ⟨start, (rest.head?.map Char.utf8Size).getD 0⟩

/-- A text without its first lines, and the number of bytes of those. -/
def dropLines : Nat → List Char → Nat × List Char
  | 0, text => (0, text)
  | _ + 1, [] => (0, [])
  | lines + 1, c :: rest =>
      let (size, after) := dropLines (if c = '\n' then lines else lines + 1) rest
      (c.utf8Size + size, after)

/-- The offset of a character, given by its line and its number in the line. A number
beyond the line stands for the end of the line, and there is no line zero. -/
def lineColumnOffset? (text : List Char) (line column : Nat) : Option Nat :=
  if line = 0 then none
  else
    let (start, rest) := dropLines (line - 1) text
    let content := (splitLines rest).head?.getD []
    some (start + byteSize (content.take (column - 1)))

/-- The line of a byte offset, and the number of bytes from the start of that line. -/
def lineColumn (text : List Char) (index : Nat) : Nat × Nat :=
  go text index 1 0
where
  /-- Goes on from a line and the number of its bytes that have been passed. -/
  go : List Char → Nat → Nat → Nat → Nat × Nat
    | [], index, line, column => (line, column + index)
    | c :: rest, index, line, column =>
        if index = 0 then (line, column)
        else if c = '\n' then go rest (index - 1) (line + 1) 0
        else go rest (index - c.utf8Size) line (column + min index c.utf8Size)

end Phrasebook.Text
