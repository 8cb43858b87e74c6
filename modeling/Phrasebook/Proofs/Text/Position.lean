import Mathlib.Data.List.Basic
import Phrasebook.Manifest.Span
import Phrasebook.Proofs.Text.Label

/-!
# Positions stay inside the text

A line and a column may point anywhere, also where a text has nothing. The offset that is found for
them starts a character or is the end of the text, and it is one of the requested line: not before
its start, and not behind its text, to which neither the line feed nor a carriage return right before
it belongs. Where a text has no such line, the offset is its end.
-/

namespace Phrasebook.Text

open Manifest (linesWithEnds)

/-! ## Slices -/

theorem byteSize_take_le (text : List Char) (count : Nat) :
    byteSize (text.take count) ≤ byteSize text := by
  have whole := byteSize_append (text.take count) (text.drop count)
  rw [List.take_append_drop] at whole
  exact Nat.le.intro whole.symm

/-! ## Lines with their ends -/

/-- The lines with their ends make up the text. -/
theorem flatten_linesWithEnds (text : List Char) : (linesWithEnds text).flatten = text := by
  induction text with
  | nil => rfl
  | cons c rest ih =>
      rw [linesWithEnds]
      split
      · rw [List.flatten_cons, ih, List.singleton_append]
      · split
        · rename_i none
          rw [none, List.flatten_nil] at ih
          rw [List.flatten_singleton, ih]
        · rename_i first others more
          rw [more, List.flatten_cons] at ih
          rw [List.flatten_cons, List.cons_append, ih]

/-- A line has at least one character. -/
theorem ne_nil_of_mem_linesWithEnds {text line : List Char} (member : line ∈ linesWithEnds text) :
    line ≠ [] := by
  induction text generalizing line with
  | nil => cases member
  | cons c rest ih =>
      rw [linesWithEnds] at member
      split at member
      · rcases List.mem_cons.mp member with rfl | later
        · exact List.cons_ne_nil _ _
        · exact ih later
      · split at member
        · rw [List.mem_singleton.mp member]
          exact List.cons_ne_nil _ _
        · rename_i first others more
          rcases List.mem_cons.mp member with rfl | later
          · exact List.cons_ne_nil _ _
          · exact ih (more ▸ List.mem_cons_of_mem first later)

/-- Dropping lines leaves the other lines and counts the bytes of those that were dropped. -/
theorem dropLines_eq (count : Nat) (text : List Char) :
    dropLines count text =
      (byteSize ((linesWithEnds text).take count).flatten,
        ((linesWithEnds text).drop count).flatten) := by
  induction text generalizing count with
  | nil =>
      cases count with
      | zero => rfl
      | succ count => rfl
  | cons c rest ih =>
      cases count with
      | zero => rw [dropLines, List.take_zero, List.drop_zero, flatten_linesWithEnds]; rfl
      | succ count =>
          rw [dropLines, ih, linesWithEnds]
          by_cases feed : c = '\n'
          · simp [feed]
          · rw [if_neg feed, if_neg feed]
            cases linesWithEnds rest with
            | nil => simp
            | cons first others => simp

/-- The lines that are left are the lines of the text that is left. -/
theorem linesWithEnds_flatten_drop (count : Nat) (text : List Char) :
    linesWithEnds ((linesWithEnds text).drop count).flatten = (linesWithEnds text).drop count := by
  induction text generalizing count with
  | nil =>
      rw [linesWithEnds, List.drop_nil]
      rfl
  | cons c rest ih =>
      cases count with
      | zero => rw [List.drop_zero, flatten_linesWithEnds]
      | succ count =>
          rw [linesWithEnds]
          split
          · exact ih count
          · split
            · rw [List.drop_succ_cons, List.drop_nil]
              rfl
            · rename_i first others more
              have later := ih (count + 1)
              rw [more] at later
              exact later

/-- The text of a line: without the line feed that ends it, and a carriage return right before. -/
def lineText (line : List Char) : List Char :=
  if line.getLast? = some '\n' then
    if line.dropLast.getLast? = some '\r' then line.dropLast.dropLast else line.dropLast
  else line

/-- A further character in front stays in the text of a line, if it is no carriage return right
before the line feed. -/
theorem lineText_cons {c : Char} {line : List Char} (there : line ≠ [])
    (inside : ¬ (c = '\r' ∧ line = ['\n'])) : lineText (c :: line) = c :: lineText line := by
  have sameLast : (c :: line).getLast? = line.getLast? := by
    rw [List.getLast?_cons, List.getLast?_eq_some_getLast there, Option.getD_some]
  unfold lineText
  rw [sameLast, List.dropLast_cons_of_ne_nil there]
  split
  · rename_i feed
    by_cases short : line.dropLast = []
    · have only : line = ['\n'] := by
        rw [← List.dropLast_append_getLast? '\n' feed, short, List.nil_append]
      have noReturn : c ≠ '\r' := fun isReturn => inside ⟨isReturn, only⟩
      rw [only]
      simp [noReturn]
    · have sameBefore : (c :: line.dropLast).getLast? = line.dropLast.getLast? := by
        rw [List.getLast?_cons, List.getLast?_eq_some_getLast short, Option.getD_some]
      rw [sameBefore, List.dropLast_cons_of_ne_nil short]
      split
      · rfl
      · rfl
  · rfl

/-- The lines without their endings are the texts of the lines with their ends. -/
theorem splitLines_eq (text : List Char) : splitLines text = (linesWithEnds text).map lineText := by
  induction text with
  | nil => rfl
  | cons c rest ih =>
      rw [splitLines, linesWithEnds]
      by_cases feed : c = '\n'
      · rw [if_pos feed, if_pos feed, feed, ih]
        rfl
      · rw [if_neg feed, if_neg feed]
        by_cases ending : c = '\r' ∧ rest.head? = some '\n'
        · obtain ⟨behind, rfl⟩ := List.head?_eq_some_iff.mp ending.2
          rw [if_pos ending, ih, linesWithEnds, if_pos rfl, ending.1]
          rfl
        · rw [if_neg ending, ih]
          cases lines : linesWithEnds rest with
          | nil =>
              rw [List.map_nil, List.map_singleton, lineText, if_neg]
              rw [List.getLast?_singleton, Option.some.injEq]
              exact feed
          | cons first others =>
              have there : first ≠ [] :=
                ne_nil_of_mem_linesWithEnds (lines ▸ List.mem_cons_self)
              have inside : ¬ (c = '\r' ∧ first = ['\n']) := by
                rintro ⟨isReturn, isFeed⟩
                have whole := flatten_linesWithEnds rest
                rw [lines, isFeed] at whole
                exact ending ⟨isReturn, by rw [← whole]; rfl⟩
              rw [List.map_cons, List.map_cons, lineText_cons there inside]

/-! ## Offsets of lines and columns -/

/-- The offset at which a line starts: the bytes of all lines before it. -/
def lineStart (text : List Char) (line : Nat) : Nat :=
  byteSize ((linesWithEnds text).take (line - 1)).flatten

/-- The offset of a line and a column, found in what is cut off at the start of the line. The outer
option is empty when the text cannot be cut there. -/
def slicedOffset? (text : List Char) (line column : Nat) : Option (Option Nat) :=
  if line = 0 then some none
  else (dropBytes? (lineStart text line) text).map fun rest =>
    some (lineStart text line + byteSize (((splitLines rest).head?.getD []).take (column - 1)))

/-- An offset that belongs to a line of a text, or is the end of the text when there is no such
line. -/
structure OnLine (text : List Char) (line offset : Nat) : Prop where
  /-- The offset is not beyond the end of the text. -/
  bounded : offset ≤ byteSize text
  /-- The text can be cut at the offset: a character starts there, or the text ends. -/
  boundary : ∃ rest, dropBytes? offset text = some rest
  /-- The offset is not before the start of the line. -/
  notBefore : lineStart text line ≤ offset
  /-- The offset is not behind the text of the line. -/
  notBehind : ∀ whole, (linesWithEnds text)[line - 1]? = some whole →
    offset ≤ lineStart text line + byteSize (lineText whole)
  /-- Without such a line it is the end of the text. -/
  atEnd : (linesWithEnds text)[line - 1]? = none → offset = byteSize text

/-- The text can be cut where a line starts, and what is cut off are the lines from there on. -/
theorem dropBytes?_lineStart (text : List Char) (line : Nat) :
    dropBytes? (lineStart text line) text =
      some ((linesWithEnds text).drop (line - 1)).flatten := by
  refine dropBytes?_eq_some_iff.mpr ⟨((linesWithEnds text).take (line - 1)).flatten, ?_, rfl⟩
  rw [← List.flatten_append, List.take_append_drop, flatten_linesWithEnds]

/-- What is cut off where a line starts has the text of that line as its first one. -/
theorem head?_splitLines_drop (text : List Char) (count : Nat) :
    (splitLines ((linesWithEnds text).drop count).flatten).head? =
      (linesWithEnds text)[count]?.map lineText := by
  rw [splitLines_eq, linesWithEnds_flatten_drop, List.head?_map, List.head?_drop]

theorem lineColumnOffset?_eq_of_ne_zero {line : Nat} (counts : line ≠ 0) (text : List Char)
    (column : Nat) :
    lineColumnOffset? text line column = some (lineStart text line +
      byteSize ((((linesWithEnds text)[line - 1]?.map lineText).getD []).take (column - 1))) := by
  rw [lineColumnOffset?, if_neg counts, dropLines_eq]
  dsimp only
  rw [head?_splitLines_drop]
  rfl

theorem lineText_isPrefix (line : List Char) : lineText line <+: line := by
  unfold lineText
  split
  · split
    · exact (List.dropLast_prefix _).trans (List.dropLast_prefix line)
    · exact List.dropLast_prefix line
  · exact List.prefix_rfl

/-- An offset at which a text can be cut is not beyond its end. -/
theorem le_byteSize_of_dropBytes? {text rest : List Char} {offset : Nat}
    (cut : dropBytes? offset text = some rest) : offset ≤ byteSize text := by
  obtain ⟨front, rfl, rfl⟩ := dropBytes?_eq_some_iff.mp cut
  rw [byteSize_append]
  exact Nat.le_add_right _ _

/-- Behind the start of a line, each character of its text begins at an offset of that line. -/
theorem onLine_of_line {text whole : List Char} {line : Nat}
    (there : (linesWithEnds text)[line - 1]? = some whole) (count : Nat) :
    OnLine text line (lineStart text line + byteSize ((lineText whole).take count)) := by
  have cut : ∃ rest, dropBytes? (lineStart text line + byteSize ((lineText whole).take count)) text =
      some rest := by
    obtain ⟨behind, split⟩ := (List.take_prefix count (lineText whole)).trans (lineText_isPrefix whole)
    obtain ⟨short, same⟩ := List.getElem?_eq_some_iff.mp there
    refine ⟨behind ++ ((linesWithEnds text).drop (line - 1 + 1)).flatten,
      dropBytes?_eq_some_iff.mpr
        ⟨((linesWithEnds text).take (line - 1)).flatten ++ (lineText whole).take count, ?_, ?_⟩⟩
    · calc text
          = ((linesWithEnds text).take (line - 1) ++ (linesWithEnds text).drop (line - 1)).flatten := by
            rw [List.take_append_drop, flatten_linesWithEnds]
        _ = ((linesWithEnds text).take (line - 1)).flatten ++
              (whole ++ ((linesWithEnds text).drop (line - 1 + 1)).flatten) := by
            rw [List.flatten_append, List.drop_eq_getElem_cons short, same, List.flatten_cons]
        _ = _ := by
            rw [List.append_assoc, ← List.append_assoc (List.take count _) behind, split]
    · rw [byteSize_append, lineStart]
  obtain ⟨rest, boundary⟩ := cut
  refine ⟨le_byteSize_of_dropBytes? boundary, ⟨rest, boundary⟩, Nat.le_add_right _ _, ?_, ?_⟩
  · intro other same
    rw [there] at same
    cases same
    exact Nat.add_le_add_left (byteSize_take_le _ _) _
  · intro absent
    rw [there] at absent
    cases absent

/-- A line that the text does not have starts at the end of the text. -/
theorem onLine_of_no_line {text : List Char} {line : Nat}
    (absent : (linesWithEnds text)[line - 1]? = none) : OnLine text line (lineStart text line) := by
  have atEnd : lineStart text line = byteSize text := by
    rw [lineStart, List.take_of_length_le (List.getElem?_eq_none_iff.mp absent),
      flatten_linesWithEnds]
  refine ⟨Nat.le_of_eq atEnd, ⟨_, dropBytes?_lineStart text line⟩, Nat.le_refl _, ?_, fun _ => atEnd⟩
  intro whole there
  rw [absent] at there
  cases there

/-- The offset of any column belongs to the line that was asked for. -/
theorem exists_onLine {line : Nat} (counts : line ≠ 0) (text : List Char) (column : Nat) :
    ∃ offset, lineColumnOffset? text line column = some offset ∧ OnLine text line offset := by
  refine ⟨_, lineColumnOffset?_eq_of_ne_zero counts text column, ?_⟩
  cases there : (linesWithEnds text)[line - 1]? with
  | none =>
      rw [Option.map_none, Option.getD_none, List.take_nil, byteSize_nil, Nat.add_zero]
      exact onLine_of_no_line there
  | some whole => exact onLine_of_line there (column - 1)

/-- Only line zero has no offset, and for every other line and any column the offset is one of that
line. To find it the text is cut once, at the start of the line, where it can be cut. -/
theorem lineColumnOffset?_inside (text : List Char) (line column : Nat) :
    slicedOffset? text line column = some (lineColumnOffset? text line column) ∧
      (lineColumnOffset? text line column = none ↔ line = 0) ∧
      (line = 0 ∨
        ∃ offset, lineColumnOffset? text line column = some offset ∧ OnLine text line offset) := by
  by_cases counts : line = 0
  · simp [slicedOffset?, lineColumnOffset?, counts]
  · have found := lineColumnOffset?_eq_of_ne_zero counts text column
    refine ⟨?_, ?_, Or.inr (exists_onLine counts text column)⟩
    · rw [slicedOffset?, if_neg counts, dropBytes?_lineStart, Option.map_some,
        head?_splitLines_drop, found]
    · rw [found]
      exact iff_of_false (Option.some_ne_none _) counts

/-- A column behind the line stands for its end, and a line behind the text for the end of the text. -/
example : lineColumnOffset? ['é', '\r', '\n', 'b'] 1 9 = some 2 ∧
    lineColumnOffset? ['é', '\r', '\n', 'b'] 2 0 = some 4 ∧
    lineColumnOffset? ['é', '\r', '\n', 'b'] 7 7 = some 5 := by
  decide

end Phrasebook.Text
