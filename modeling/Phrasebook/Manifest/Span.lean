import Phrasebook.Text.Blank
import Phrasebook.Text.Span

/-!
# Labels in a manifest

Which part of the text of a manifest an error is about, found by looking for the setting or
for the quoted value.
-/

namespace Phrasebook.Manifest

open Text (Span byteSize trimStart)

def linesWithEnds : List Char → List (List Char)
  | [] => []
  | c :: rest =>
      if c = '\n' then [c] :: linesWithEnds rest
      else match linesWithEnds rest with
        | [] => [[c]]
        | first :: others => (c :: first) :: others

/-- Whether a line without the blanks in front of it assigns a key. -/
def assigns (key line : List Char) : Bool :=
  match key.isPrefixOf? line with
  | some rest => (trimStart rest).head? = some '='
  | none => false

/-- The span of a key in the first of some lines that assigns it. The lines start at a
byte offset. -/
def keySpanIn? (key : List Char) : Nat → List (List Char) → Option Span
  | _, [] => none
  | offset, line :: rest =>
      let trimmed := trimStart line
      if assigns key trimmed then some ⟨offset + (byteSize line - byteSize trimmed), byteSize key⟩
      else keySpanIn? key (offset + byteSize line) rest

/-- The span of a key at the start of a line, before an equals sign. -/
def keySpan? (text : String) (key : String) : Option Span :=
  keySpanIn? key.toList 0 (linesWithEnds text.toList)

/-- The byte offset of the first occurrence of a text in another one, which starts at a
byte offset itself. -/
def find? (pattern : List Char) : Nat → List Char → Option Nat
  | offset, [] => if pattern.isEmpty then some offset else none
  | offset, c :: rest =>
      if pattern.isPrefixOf (c :: rest) then some offset
      else find? pattern (offset + c.utf8Size) rest

/-- The span of a value between two quotes of a kind. -/
def quotedSpan? (text value : List Char) (quote : Char) : Option Span :=
  (find? (quote :: value ++ [quote]) 0 text).map fun offset => ⟨offset + 1, byteSize value⟩

/-- The span of a value between double quotes, or else between single ones. -/
def valueSpan? (text value : String) : Option Span :=
  (quotedSpan? text.toList value.toList '"').or (quotedSpan? text.toList value.toList '\'')

end Phrasebook.Manifest
