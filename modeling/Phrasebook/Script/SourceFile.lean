import Phrasebook.Script.Declaration

/-!
# Source files

A file has imports, declarations and exports, in this order. An empty line stands after
the imports, between two declarations, and before the exports of a file that declares
something.
-/

namespace Phrasebook.Script

open Code

/-- A source file. Each declaration of the body is a list of fragments. -/
structure SourceFile where
  imports : List Import := []
  body : List (List Fragment) := []
  exports : List Export := []

namespace SourceFile

/-- The lines of the declarations, with an empty line between each two. -/
def bodyLines : List (List Fragment) → List Line
  | [] => []
  | [last] => Fragment.linesOfAll 0 last
  | first :: second :: rest =>
      Fragment.linesOfAll 0 first ++ emptyLine :: bodyLines (second :: rest)

def lines (file : SourceFile) : List Line :=
  Fragment.linesOfAll 0 (file.imports.map Import.fragment) ++
    (if file.imports.isEmpty || (file.body.isEmpty && file.exports.isEmpty) then [] else [emptyLine]) ++
    bodyLines file.body ++
    (if file.body.isEmpty || file.exports.isEmpty then [] else [emptyLine]) ++
    Fragment.linesOfAll 0 (file.exports.flatMap Export.fragments)

def render (indent : Indent) (file : SourceFile) : String :=
  Code.render indent file.lines

end SourceFile

end Phrasebook.Script
