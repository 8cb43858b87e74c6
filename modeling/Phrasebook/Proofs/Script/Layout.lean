import Phrasebook.Code.Fragment
import Phrasebook.Proofs.Script.Token

/-!
# Laid out code is cut like its lines

Indentation and line ends are blanks to a reader, so laid out code is cut into the tokens of
its lines, whatever the indentation.
-/

namespace Phrasebook.Script

open Code

theorem unit_all_isSpace (indent : Indent) : indent.unit.toList.all isSpace = true := by
  unfold Indent.unit
  split
  · decide
  · decide
  · decide
  · decide

/-- The margin of a line is blank. -/
theorem margin_all_isSpace (indent : Indent) (depth : Nat) :
    (String.join (List.replicate depth indent.unit)).toList.all isSpace = true := by
  refine List.all_eq_true.mpr fun c member => ?_
  rw [String.toList_join, List.mem_flatMap] at member
  obtain ⟨unit, copy, inside⟩ := member
  rw [List.eq_of_mem_replicate copy] at inside
  exact List.all_eq_true.mp (unit_all_isSpace indent) c inside

theorem scans_line
    {text : String} {tokens : List Token} (scans : Scans text.toList tokens) (indent : Indent)
    (depth : Nat) : Scans (Line.render indent ⟨depth, text⟩).toList tokens := by
  have margin : Scans (String.join (List.replicate depth indent.unit)).toList [] :=
    .spaces (margin_all_isSpace indent depth)
  have lineEnd : Scans "\n".toList [] := .spaces (by decide)
  rw [Line.render, String.toList_append, String.toList_append]
  have whole := (margin.append scans).append lineEnd
  rw [List.nil_append, List.append_nil] at whole
  exact whole

theorem scans_render_cons
    {indent : Indent} {line : Line} {lines : List Line} {front behind : List Token}
    (first : Scans (line.render indent).toList front)
    (rest : Scans (render indent lines).toList behind) :
    Scans (render indent (line :: lines)).toList (front ++ behind) := by
  rw [render, String.toList_join] at rest ⊢
  exact first.append rest

theorem scans_render_nil (indent : Indent) : Scans (render indent []).toList [] :=
  Scans.nil

theorem scans_render_append
    {indent : Indent} {lines more : List Line} {front behind : List Token}
    (first : Scans (render indent lines).toList front)
    (second : Scans (render indent more).toList behind) :
    Scans (render indent (lines ++ more)).toList (front ++ behind) := by
  rw [render, String.toList_join] at first second ⊢
  rw [List.map_append, List.flatMap_append]
  exact first.append second

end Phrasebook.Script
