import Phrasebook.Locale.Document

/-!
# Labels of faults in JSON texts

The reader of a JSON text gives the place of a fault as a line and a number of bytes on that line,
up to the fault. The label is put behind as many characters. Where the characters before the fault
have one byte each, this is the place of the fault. Otherwise the label stands too far right, by one
character for each further byte of the characters before, as long as the line has any.
-/

namespace Phrasebook.Text

/-! ## Bytes -/

theorem length_le_byteSize (text : List Char) : text.length ≤ byteSize text := by
  induction text with
  | nil => exact Nat.le_refl 0
  | cons c rest ih =>
      have bytes := c.utf8Size_pos
      simp only [List.length_cons, byteSize_cons]
      omega

/-- A text has as many bytes as characters when each of its characters has one byte. -/
theorem byteSize_eq_length_iff {text : List Char} :
    byteSize text = text.length ↔ ∀ c ∈ text, c.utf8Size = 1 := by
  induction text with
  | nil => exact iff_of_true rfl nofun
  | cons c rest ih =>
      have bytes := c.utf8Size_pos
      have bound := length_le_byteSize rest
      rw [List.forall_mem_cons, ← ih]
      simp only [List.length_cons, byteSize_cons]
      omega

theorem byteSize_eq_zero_iff {text : List Char} : byteSize text = 0 ↔ text = [] := by
  cases text with
  | nil => simp
  | cons c rest =>
      have bytes := c.utf8Size_pos
      simp only [byteSize_cons, reduceCtorEq, iff_false]
      omega

/-- The span of a character is the one at the offset of the character. -/
theorem pointSpan?_eq_iff {front rest : List Char} {c : Char} {offset : Nat} :
    pointSpan? (front ++ c :: rest) offset = some ⟨byteSize front, c.utf8Size⟩ ↔
      offset = byteSize front := by
  have bytes := c.utf8Size_pos
  have size : byteSize (front ++ c :: rest) = byteSize front + (c.utf8Size + byteSize rest) := by
    simp
  unfold pointSpan?
  constructor
  · intro labelled
    obtain ⟨after, _, same⟩ := Option.map_eq_some_iff.mp labelled
    have start := congrArg Span.offset same
    dsimp only at start
    omega
  · rintro rfl
    have start : min (byteSize front) (byteSize (front ++ c :: rest)) = byteSize front := by omega
    simp only [start, dropBytes?_append]
    rfl

/-! ## Lines -/

/-- The first line of a text, without its ending. -/
def firstLine (text : List Char) : List Char :=
  (splitLines text).head?.getD []

theorem firstLine_cons {c : Char} {rest : List Char} (noFeed : c ≠ '\n')
    (noReturn : ¬ (c = '\r' ∧ rest.head? = some '\n')) :
    firstLine (c :: rest) = c :: firstLine rest := by
  unfold firstLine
  rw [splitLines, if_neg noFeed, if_neg noReturn]
  cases splitLines rest with
  | nil => rfl
  | cons first others => rfl

/-- A carriage return is no part of the line whose line feed follows it. -/
theorem firstLine_return (rest : List Char) : firstLine ('\r' :: '\n' :: rest) = [] := by
  simp [firstLine, splitLines]

/-- What stands on a line before a character is the front of the line. -/
theorem firstLine_append {before : List Char} {c : Char} (inside : '\n' ∉ before)
    (noFeed : c ≠ '\n') (behind : List Char) :
    firstLine (before ++ c :: behind) = before ++ firstLine (c :: behind) := by
  induction before with
  | nil => rfl
  | cons first before ih =>
      rw [List.mem_cons, not_or] at inside
      have next : ¬ (first = '\r' ∧ (before ++ c :: behind).head? = some '\n') := by
        rintro ⟨_, feed⟩
        cases before with
        | nil => exact noFeed (Option.some.inj feed)
        | cons second before =>
            apply inside.2
            rw [← Option.some.inj feed]
            exact List.mem_cons_self
      rw [List.cons_append, firstLine_cons (Ne.symm inside.1) next, ih inside.2, List.cons_append]

/-- Lines, each with the line feed that ends it. -/
def ended (lines : List (List Char)) : List Char :=
  lines.flatMap fun line => line ++ ['\n']

theorem ended_cons (line : List Char) (lines : List (List Char)) (rest : List Char) :
    ended (line :: lines) ++ rest = line ++ '\n' :: (ended lines ++ rest) := by
  simp [ended]

theorem byteSize_ended_cons (line : List Char) (lines : List (List Char)) :
    byteSize (ended (line :: lines)) = byteSize line + 1 + byteSize (ended lines) := by
  have feed : '\n'.utf8Size = 1 := rfl
  simp [ended, feed, Nat.add_assoc]

theorem dropLines_line {line : List Char} (inside : '\n' ∉ line) (count : Nat)
    (rest : List Char) :
    dropLines (count + 1) (line ++ '\n' :: rest) =
      (byteSize line + 1 + (dropLines count rest).1, (dropLines count rest).2) := by
  induction line with
  | nil =>
      rw [List.nil_append, dropLines, if_pos rfl]
      rfl
  | cons c line ih =>
      rw [List.mem_cons, not_or] at inside
      rw [List.cons_append, dropLines, if_neg (Ne.symm inside.1), ih inside.2]
      simp [Nat.add_assoc]

theorem dropLines_ended {lines : List (List Char)} (inside : ∀ line ∈ lines, '\n' ∉ line)
    (rest : List Char) :
    dropLines lines.length (ended lines ++ rest) = (byteSize (ended lines), rest) := by
  induction lines with
  | nil => rw [List.length_nil, dropLines]; rfl
  | cons line lines ih =>
      rw [List.forall_mem_cons] at inside
      rw [ended_cons, List.length_cons, dropLines_line inside.1, ih inside.2, byteSize_ended_cons]

/-- Within a line the columns go up by the bytes passed. -/
theorem lineColumn_line {line : List Char} (inside : '\n' ∉ line) (rest : List Char)
    (index number column : Nat) :
    lineColumn.go (line ++ rest) (byteSize line + index) number column =
      lineColumn.go rest index number (column + byteSize line) := by
  induction line generalizing column with
  | nil => simp
  | cons c line ih =>
      have bytes := c.utf8Size_pos
      rw [List.mem_cons, not_or] at inside
      have there : byteSize (c :: line) + index ≠ 0 := by rw [byteSize_cons]; omega
      have passed : byteSize (c :: line) + index - c.utf8Size = byteSize line + index := by
        rw [byteSize_cons]; omega
      have counted : min (byteSize (c :: line) + index) c.utf8Size = c.utf8Size := by
        rw [byteSize_cons]; omega
      rw [List.cons_append, lineColumn.go, if_neg there, if_neg (Ne.symm inside.1), passed, counted,
        ih inside.2, byteSize_cons, Nat.add_assoc]

theorem lineColumn_ended {lines : List (List Char)} (inside : ∀ line ∈ lines, '\n' ∉ line)
    (rest : List Char) (index number : Nat) :
    lineColumn.go (ended lines ++ rest) (byteSize (ended lines) + index) number 0 =
      lineColumn.go rest index (number + lines.length) 0 := by
  induction lines generalizing number with
  | nil => simp [ended]
  | cons line lines ih =>
      rw [List.forall_mem_cons] at inside
      have bytes : byteSize (ended (line :: lines)) + index =
          byteSize line + (byteSize (ended lines) + index + 1) := by
        rw [byteSize_ended_cons]; omega
      rw [ended_cons, bytes, lineColumn_line inside.1, lineColumn.go, if_neg (Nat.succ_ne_zero _),
        if_pos rfl, Nat.add_sub_cancel, ih inside.2, List.length_cons, Nat.add_assoc,
        Nat.add_comm 1]

/-! ## Places -/

/-- A character on a line of a text. -/
structure Place where
  /-- The lines before. -/
  past : List (List Char)
  /-- What stands before the character on its line. -/
  before : List Char
  character : Char
  /-- All that stands behind the character. -/
  behind : List Char
  past_inside : ∀ line ∈ past, '\n' ∉ line
  before_inside : '\n' ∉ before
  character_inside : character ≠ '\n'

namespace Place

def text (place : Place) : List Char :=
  (ended place.past ++ place.before) ++ place.character :: place.behind

/-- The number of bytes before the character. -/
def offset (place : Place) : Nat := byteSize (ended place.past ++ place.before)

/-- The number of the line, counted from one. -/
def line (place : Place) : Nat := place.past.length + 1

/-- The number of bytes on the line up to the first one of the character. -/
def column (place : Place) : Nat := byteSize place.before + 1

/-- What the line has from the character on. -/
def onward (place : Place) : List Char := firstLine (place.character :: place.behind)

/-- How many bytes there are before the character on its line that no character starts with. -/
def further (place : Place) : Nat := byteSize place.before - place.before.length

/-- The carriage return of a line that ends with both a carriage return and a line feed. -/
def EndsLine (place : Place) : Prop :=
  place.character = '\r' ∧ place.behind.head? = some '\n'

theorem onward_eq_nil_iff (place : Place) : place.onward = [] ↔ place.EndsLine := by
  unfold onward EndsLine
  by_cases ends : place.character = '\r' ∧ place.behind.head? = some '\n'
  · obtain ⟨rest, behind⟩ := List.head?_eq_some_iff.mp ends.2
    rw [ends.1, behind, firstLine_return]
    exact iff_of_true rfl ⟨rfl, rfl⟩
  · rw [firstLine_cons place.character_inside ends]
    exact iff_of_false (List.cons_ne_nil _ _) ends

theorem further_eq_zero_iff (place : Place) :
    place.further = 0 ↔ ∀ c ∈ place.before, c.utf8Size = 1 := by
  have bound := length_le_byteSize place.before
  rw [← byteSize_eq_length_iff]
  unfold further
  omega

/-- A reader that has come to the first byte of the character gives its line and its column. -/
theorem lineColumn_eq (place : Place) :
    lineColumn place.text (place.offset + 1) = (place.line, place.column) := by
  have bytes := place.character.utf8Size_pos
  have first : min 1 place.character.utf8Size = 1 := by omega
  have passed : 1 - place.character.utf8Size = 0 := by omega
  unfold lineColumn text offset
  rw [List.append_assoc, byteSize_append, Nat.add_assoc, lineColumn_ended place.past_inside,
    lineColumn_line place.before_inside, lineColumn.go, if_neg Nat.one_ne_zero,
    if_neg place.character_inside, first, passed, Nat.zero_add, Nat.add_comm 1]
  cases place.behind with
  | nil => rfl
  | cons c rest => rfl

/-- The offset that is found for the line and the column is right of the character, by as many
characters of the line as there are further bytes. -/
theorem lineColumnOffset?_eq (place : Place) :
    lineColumnOffset? place.text place.line place.column =
      some (place.offset + byteSize (place.onward.take place.further)) := by
  have lines : dropLines (place.line - 1) place.text =
      (byteSize (ended place.past), place.before ++ place.character :: place.behind) := by
    unfold line text
    rw [List.append_assoc]
    exact dropLines_ended place.past_inside _
  have content : (splitLines (place.before ++ place.character :: place.behind)).head?.getD [] =
      place.before ++ place.onward :=
    firstLine_append place.before_inside place.character_inside place.behind
  have counted : place.column - 1 = byteSize place.before := rfl
  have whole : place.before.take (byteSize place.before) = place.before :=
    List.take_of_length_le (length_le_byteSize place.before)
  have counts : place.line ≠ 0 := Nat.succ_ne_zero _
  unfold lineColumnOffset?
  rw [if_neg counts, lines]
  dsimp only
  rw [content, counted, List.take_append, whole]
  simp [offset, further, Nat.add_assoc]

theorem lineColumnOffset?_eq_offset_iff (place : Place) :
    lineColumnOffset? place.text place.line place.column = some place.offset ↔
      (∀ c ∈ place.before, c.utf8Size = 1) ∨ place.EndsLine := by
  rw [lineColumnOffset?_eq, Option.some.injEq, Nat.add_eq_left, byteSize_eq_zero_iff,
    List.take_eq_nil_iff, further_eq_zero_iff, onward_eq_nil_iff]

/-- The label of a fault that was found by looking at the character. -/
theorem span?_eq (place : Place) :
    (Json.Fault.at (place.character :: place.behind)).span? place.text =
      pointSpan? place.text (place.offset + byteSize (place.onward.take place.further)) := by
  have bytes := place.character.utf8Size_pos
  have read : byteSize place.text - (Json.Fault.at (place.character :: place.behind)).left =
      place.offset + 1 := by
    unfold text offset Json.Fault.at
    dsimp only
    rw [byteSize_append (_ ++ _) (_ :: _), byteSize_cons]
    omega
  unfold Json.Fault.span?
  rw [read, lineColumn_eq]
  dsimp only
  rw [lineColumnOffset?_eq, Option.bind_some]

theorem span?_eq_character_iff (place : Place) :
    (Json.Fault.at (place.character :: place.behind)).span? place.text =
        some ⟨place.offset, place.character.utf8Size⟩ ↔
      lineColumnOffset? place.text place.line place.column = some place.offset := by
  rw [span?_eq, lineColumnOffset?_eq, Option.some.injEq]
  exact pointSpan?_eq_iff

/-- A JSON reader that finds a fault at a character gives the line and the number of bytes up to it.
From these the offset of the character comes out, and the label is that character, when all
characters before it on the line have one byte, or when it is the carriage return that ends the line.
Otherwise the offset is right of it, by as many characters as there are further bytes. -/
theorem label_exact_iff (place : Place) :
    lineColumn place.text (place.offset + 1) = (place.line, place.column) ∧
      lineColumnOffset? place.text place.line place.column =
        some (place.offset + byteSize (place.onward.take place.further)) ∧
      (lineColumnOffset? place.text place.line place.column = some place.offset ↔
        (∀ c ∈ place.before, c.utf8Size = 1) ∨ place.EndsLine) ∧
      ((Json.Fault.at (place.character :: place.behind)).span? place.text =
          some ⟨place.offset, place.character.utf8Size⟩ ↔
        (∀ c ∈ place.before, c.utf8Size = 1) ∨ place.EndsLine) :=
  ⟨place.lineColumn_eq, place.lineColumnOffset?_eq, place.lineColumnOffset?_eq_offset_iff,
    place.span?_eq_character_iff.trans place.lineColumnOffset?_eq_offset_iff⟩

/-- A value that cannot be read, behind a key with a letter of two bytes. -/
def behindAccent : Place where
  past := []
  before := ['{', '"', 'é', '"', ':']
  character := 'x'
  behind := ['}']
  past_inside := nofun
  before_inside := by decide
  character_inside := by decide

/-- Behind a letter of two bytes the offset is that of the next character. -/
theorem label_not_always_exact :
    ¬ ∀ place : Place, lineColumnOffset? place.text place.line place.column = some place.offset := by
  intro always
  have exact := always behindAccent
  revert exact
  decide

end Place

end Phrasebook.Text
