import Mathlib.Data.List.Forall2
import Phrasebook.Proofs.Script.Layout
import Phrasebook.Proofs.Script.Specifier
import Phrasebook.Script.SourceFile

/-!
# Which modules a file refers to

Indentation plays no part, so laid out code refers to the modules of its lines. A file refers to
those of its imports, its declarations and its exports.
-/

namespace Phrasebook.Script

open Code Text

/-! ## Laid out code -/

/-- A line of code, with its end, that refers to the modules of a list. -/
def LineRefers (text : String) (found : List String) : Prop :=
  Refers (text.toList ++ ['\n']) found

/-- Lines that refer to the modules of a list, with any indentation. -/
def LinesRefer (lines : List Line) (found : List String) : Prop :=
  ∀ indent, Refers (render indent lines).toList found

/-- Fragments that refer to the modules of a list, at any depth. -/
def FragmentsRefer (fragments : List Fragment) (found : List String) : Prop :=
  ∀ depth, LinesRefer (Fragment.linesOfAll depth fragments) found

theorem lineRefers_blank : LineRefers "" [] :=
  Refers.space (by decide)

theorem Plain.line {text : String} (plain : Plain text) : LineRefers text [] :=
  plain.refers (by decide)

theorem Plain.space {text : String} (plain : Plain text) : Refers (text.toList ++ [' ']) [] :=
  plain.refers (by decide)

namespace LinesRefer

theorem nil : LinesRefer [] [] :=
  fun _ => Refers.nil

theorem append {lines more : List Line} {found behind : List String}
    (first : LinesRefer lines found) (second : LinesRefer more behind) :
    LinesRefer (lines ++ more) (found ++ behind) := by
  intro indent
  have whole := (first indent).append (second indent)
  rw [render, render, String.toList_join, String.toList_join] at whole
  rw [render, String.toList_join, List.map_append, List.flatMap_append]
  exact whole

/-- The margin of a line plays no part. -/
theorem line {text : String} {found : List String} (refers : LineRefers text found) (depth : Nat) :
    LinesRefer [⟨depth, text⟩] found := by
  intro indent
  have whole := (Refers.spaces (margin_all_isSpace indent depth)).append refers
  have code : (render indent [⟨depth, text⟩]).toList =
      (String.join (List.replicate depth indent.unit)).toList ++ (text.toList ++ ['\n']) := by
    simp [render, Line.render]
  rw [code]
  exact whole

theorem cons {text : String} {lines : List Line} {found behind : List String}
    (first : LineRefers text found) (depth : Nat) (rest : LinesRefer lines behind) :
    LinesRefer (⟨depth, text⟩ :: lines) (found ++ behind) :=
  (line first depth).append rest

/-- Laid out code ends in the end of a line. -/
theorem apart_render (indent : Indent) (lines : List Line) (rest : List Char) :
    Apart (render indent lines).toList rest := by
  rcases List.eq_nil_or_concat lines with rfl | ⟨front, last, rfl⟩
  · exact apart_nil rest
  · have code : (render indent (front.concat last)).toList =
        (render indent front).toList ++
          ((String.join (List.replicate last.depth indent.unit)).toList ++ last.text.toList) ++
          ['\n'] := by
      simp [render, Line.render]
    rw [code]
    exact apart_concat (by decide) (by decide) rest

theorem of_scans {lines : List Line} {tokens : List Token} {found : List String}
    (scans : ∀ indent, Scans (render indent lines).toList tokens) (yields : Yields tokens found) :
    LinesRefer lines found :=
  fun indent => .of_scans (scans indent) (apart_render indent lines) yields

/-- A declaration of one fragment refers to what the fragment refers to. -/
theorem fragment {fragment : Fragment} {found : List String} {depth : Nat}
    (refers : LinesRefer (fragment.lines depth) found) :
    LinesRefer (Fragment.linesOfAll depth [fragment]) found := by
  rw [Fragment.linesOfAll, Fragment.linesOfAll, List.append_nil]
  exact refers

end LinesRefer

namespace FragmentsRefer

theorem nil : FragmentsRefer [] [] :=
  fun _ => LinesRefer.nil

theorem cons {first : Fragment} {rest : List Fragment} {found behind : List String}
    (here : ∀ depth, LinesRefer (first.lines depth) found) (later : FragmentsRefer rest behind) :
    FragmentsRefer (first :: rest) (found ++ behind) :=
  fun depth => (here depth).append (later depth)

/-- A fragment that refers to nothing can be left out. -/
theorem cons_quiet {first : Fragment} {rest : List Fragment} {found : List String}
    (here : ∀ depth, LinesRefer (first.lines depth) []) (later : FragmentsRefer rest found) :
    FragmentsRefer (first :: rest) found :=
  cons here later

/-- A line that refers to nothing can be left out. -/
theorem line_cons {text : String} {rest : List Fragment} {found : List String} (plain : Plain text)
    (later : FragmentsRefer rest found) : FragmentsRefer (.line text :: rest) found :=
  cons_quiet (fun depth => .line plain.line depth) later

/-- A block refers to what its body refers to, if its ends refer to nothing. -/
theorem block {header close : String} {body : List Fragment} {found : List String}
    (opening : LineRefers header []) (inner : FragmentsRefer body found)
    (closing : LineRefers close []) (depth : Nat) :
    LinesRefer ((Fragment.block header body (some close)).lines depth) found := by
  have whole := LinesRefer.cons opening depth
    ((inner (depth + 1)).append (LinesRefer.line closing depth))
  rw [List.nil_append, List.append_nil] at whole
  exact whole

end FragmentsRefer

namespace SourceFile

/-- Declarations refer to the modules of each of them in turn. -/
theorem bodyLines_refer {body : List (List Fragment)} {founds : List (List String)}
    (each : List.Forall₂
      (fun declaration found => LinesRefer (Fragment.linesOfAll 0 declaration) found) body founds) :
    LinesRefer (bodyLines body) founds.flatten := by
  induction each with
  | nil => exact .nil
  | @cons declaration found body founds first rest ih =>
      cases rest with
      | nil =>
          rw [List.flatten_singleton]
          exact first
      | cons second rest => exact first.append (.cons lineRefers_blank 0 ih)

/-- A file refers to the modules of its imports, its declarations and its exports. -/
theorem lines_refer {file : SourceFile} {imported exported found : List String}
    {declared : List (List String)}
    (imports : LinesRefer (Fragment.linesOfAll 0 (file.imports.map Import.fragment)) imported)
    (body : List.Forall₂
      (fun declaration found => LinesRefer (Fragment.linesOfAll 0 declaration) found)
      file.body declared)
    (exports : LinesRefer (Fragment.linesOfAll 0 (file.exports.flatMap Export.fragments)) exported)
    (all : imported ++ declared.flatten ++ exported = found) : LinesRefer file.lines found := by
  have separation (condition : Bool) : LinesRefer (if condition then [] else [emptyLine]) [] := by
    cases condition with
    | true => exact .nil
    | false => exact .line lineRefers_blank 0
  have behindImports :=
    separation (file.imports.isEmpty || (file.body.isEmpty && file.exports.isEmpty))
  have beforeExports := separation (file.body.isEmpty || file.exports.isEmpty)
  have whole := (((imports.append behindImports).append (bodyLines_refer body)).append
    beforeExports).append exports
  rw [List.append_nil, List.append_nil, all] at whole
  exact whole

end SourceFile

end Phrasebook.Script
