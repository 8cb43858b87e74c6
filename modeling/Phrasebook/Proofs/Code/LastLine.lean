import Phrasebook.Code.Writer
import Phrasebook.Proofs.Code.Tidy

/-!
# The last line of a fragment

A text that is put at the end of a fragment goes down to the last fragment of a block that is not
closed, and so on, to the last line. It comes to stand there when the last line is a single line or
closes a block. It is lost when the last line is empty, and also when it is the header of a block
without a body.
-/

namespace Phrasebook.Code

/-- What a line of laid out code comes from. -/
inductive LineSource where
  | line
  | blank
  | header
  | close
deriving DecidableEq, Repr

/-- A line of laid out code with what it comes from. -/
structure LaidLine where
  source : LineSource
  line : Line
deriving DecidableEq, Repr

namespace LaidLine

/-- The line with a text at its end, if it takes any. -/
def extended (text : String) (laid : LaidLine) : LaidLine :=
  match laid.source with
  | .line | .close => { laid with line := { laid.line with text := laid.line.text ++ text } }
  | .blank | .header => laid

theorem extended_of_taken {laid : LaidLine} (takes : laid.source = .line ∨ laid.source = .close)
    (text : String) : (laid.extended text).line = ⟨laid.line.depth, laid.line.text ++ text⟩ := by
  rcases takes with source | source <;> simp [extended, source]

theorem extended_of_refused {laid : LaidLine} (refuses : ¬ (laid.source = .line ∨ laid.source = .close))
    (text : String) : laid.extended text = laid := by
  unfold extended
  split
  · exact absurd (Or.inl ‹_›) refuses
  · exact absurd (Or.inr ‹_›) refuses
  · rfl
  · rfl

end LaidLine

namespace Fragment

mutual

/-- The lines of a fragment that starts at a given depth, each with what it comes from. -/
def laidLines (depth : Nat) : Fragment → List LaidLine
  | .line text => [⟨.line, ⟨depth, text⟩⟩]
  | .blank => [⟨.blank, emptyLine⟩]
  | .block header body close =>
      ⟨.header, ⟨depth, header⟩⟩ :: laidLinesOfAll (depth + 1) body ++
        match close with
        | some text => [⟨.close, ⟨depth, text⟩⟩]
        | none => []

def laidLinesOfAll (depth : Nat) : List Fragment → List LaidLine
  | [] => []
  | first :: rest => first.laidLines depth ++ laidLinesOfAll depth rest

end

mutual

/-- Without what they come from, these are the lines of the fragment. -/
theorem map_laidLines (depth : Nat) :
    ∀ fragment : Fragment, (fragment.laidLines depth).map LaidLine.line = fragment.lines depth
  | .line _ => by simp [laidLines, lines]
  | .blank => by simp [laidLines, lines]
  | .block _ body none => by simp [laidLines, lines, map_laidLinesOfAll (depth + 1) body]
  | .block _ body (some _) => by simp [laidLines, lines, map_laidLinesOfAll (depth + 1) body]

theorem map_laidLinesOfAll (depth : Nat) :
    ∀ fragments : List Fragment,
      (laidLinesOfAll depth fragments).map LaidLine.line = linesOfAll depth fragments
  | [] => by simp [laidLinesOfAll, linesOfAll]
  | first :: rest => by
      rw [laidLinesOfAll, linesOfAll, List.map_append, map_laidLines depth first,
        map_laidLinesOfAll depth rest]

end

/-- Lines with a last one, before and after a text was put at the end. -/
def Extends (text : String) (before after : List LaidLine) : Prop :=
  ∃ front last, before = front ++ [last] ∧ after = front ++ [last.extended text]

theorem Extends.behind {text : String} {before after : List LaidLine}
    (extended : Extends text before after) (front : List LaidLine) :
    Extends text (front ++ before) (front ++ after) := by
  obtain ⟨middle, last, rfl, rfl⟩ := extended
  exact ⟨front ++ middle, last, (List.append_assoc _ _ _).symm, (List.append_assoc _ _ _).symm⟩

mutual

/-- By induction on the fragment: its last line is its own, or that of the last fragment of its
body, which is the one that `append` goes down to. -/
theorem laidLines_append (text : String) (depth : Nat) :
    ∀ fragment : Fragment,
      Extends text (fragment.laidLines depth) ((fragment.append text).laidLines depth)
  | .line content => ⟨[], ⟨.line, ⟨depth, content⟩⟩, rfl, rfl⟩
  | .blank => ⟨[], ⟨.blank, emptyLine⟩, rfl, rfl⟩
  | .block header body (some close) =>
      ⟨⟨.header, ⟨depth, header⟩⟩ :: laidLinesOfAll (depth + 1) body, ⟨.close, ⟨depth, close⟩⟩,
        rfl, rfl⟩
  | .block header [] none => ⟨[], ⟨.header, ⟨depth, header⟩⟩, rfl, rfl⟩
  | .block header (first :: rest) none => by
      have inner := laidLinesOfAll_append text (depth + 1) (first :: rest) (List.cons_ne_nil _ _)
      simp only [append, laidLines, List.append_nil]
      exact inner.behind [⟨.header, ⟨depth, header⟩⟩]

theorem laidLinesOfAll_append (text : String) (depth : Nat) :
    ∀ body : List Fragment, body ≠ [] →
      Extends text (laidLinesOfAll depth body) (laidLinesOfAll depth (appendToLast text body))
  | [], nonempty => absurd rfl nonempty
  | [last], _ => by
      simp only [appendToLast, laidLinesOfAll, List.append_nil]
      exact laidLines_append text depth last
  | first :: second :: rest, _ => by
      have behind := laidLinesOfAll_append text depth (second :: rest) (List.cons_ne_nil _ _)
      rw [appendToLast, laidLinesOfAll, laidLinesOfAll]
      exact behind.behind _

end

end Fragment

theorem render_concat (indent : Indent) (front : List Line) (last : Line) :
    render indent (front ++ [last]) =
      render indent front ++ String.join (List.replicate last.depth indent.unit) ++ last.text ++
        "\n" := by
  simp [render, Line.render, String.append_assoc]

namespace Writer

/-- A text that is put at the end of a fragment stands right before the last line feed of what the
fragment writes, at any depth, when the last line is a single line or closes a block. Otherwise the
same is written without the text as with it. -/
theorem append_at_end_iff (fragment : Fragment) (text : String) (indent : Indent)
    (writer : Writer) :
    ∃ last front, (fragment.laidLines writer.depth).getLast? = some last ∧
      (writer.fragment fragment).render indent = front ++ "\n" ∧
      ((writer.fragment (fragment.append text)).render indent = front ++ text ++ "\n" ↔
        last.source = .line ∨ last.source = .close ∨ text = "") ∧
      (last.source = .blank ∨ last.source = .header →
        writer.fragment (fragment.append text) = writer.fragment fragment) := by
  obtain ⟨front, last, before, after⟩ := fragment.laidLines_append text writer.depth
  have written : (writer.fragment fragment).lines =
      (writer.lines ++ front.map LaidLine.line) ++ [last.line] := by
    simp [Writer.fragment, ← Fragment.map_laidLines, before]
  have extended : (writer.fragment (fragment.append text)).lines =
      (writer.lines ++ front.map LaidLine.line) ++ [(last.extended text).line] := by
    simp [Writer.fragment, ← Fragment.map_laidLines, after]
  let opening := Code.render indent (writer.lines ++ front.map LaidLine.line) ++
    String.join (List.replicate last.line.depth indent.unit) ++ last.line.text
  have plain : (writer.fragment fragment).render indent = opening ++ "\n" := by
    rw [render, written, render_concat]
  refine ⟨last, opening, by rw [before, List.getLast?_concat], plain, ?_, ?_⟩
  · by_cases takes : last.source = .line ∨ last.source = .close
    · refine iff_of_true ?_ (or_assoc.mp (Or.inl takes))
      rw [render, extended, LaidLine.extended_of_taken takes, render_concat]
      simp only [opening, String.append_assoc]
    · rw [LaidLine.extended_of_refused takes, ← written] at extended
      rw [render, extended, ← render, plain, ← or_assoc, or_iff_right takes, String.append_left_inj,
        eq_comm, String.append_eq_left_iff]
  · intro refuses
    have untaken : ¬ (last.source = .line ∨ last.source = .close) := by
      rcases refuses with source | source <;> simp [source]
    rw [LaidLine.extended_of_refused untaken, ← written] at extended
    exact congrArg (Writer.mk writer.depth) extended

/-- A header without a body is a last line too, and takes no text. -/
theorem append_not_always_at_end :
    ¬ ∀ (fragment : Fragment) (text : String) (indent : Indent) (writer : Writer) (last : LaidLine),
      (fragment.laidLines writer.depth).getLast? = some last → last.source ≠ .blank →
      Text.OneLine text → ∃ front, (writer.fragment fragment).render indent = front ++ "\n" ∧
        (writer.fragment (fragment.append text)).render indent = front ++ text ++ "\n" := by
  intro always
  obtain ⟨front, written, extended⟩ :=
    always (.block "if (ok) \x7b" [] none) "," (.spaces 2) {} ⟨.header, ⟨0, "if (ok) \x7b"⟩⟩ rfl
      (by decide) (by decide)
  have same : front ++ "\n" = front ++ "," ++ "\n" := written.symm.trans extended
  rw [String.append_left_inj, eq_comm, String.append_eq_left_iff] at same
  exact absurd same (by decide)

end Writer

end Phrasebook.Code
