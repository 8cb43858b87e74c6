import Phrasebook.Code.Fragment

/-!
# Writing code step by step

A writer holds the lines written so far and the depth of the next one.
-/

namespace Phrasebook.Code

structure Writer where
  depth : Nat := 0
  lines : List Line := []
deriving DecidableEq, Repr

namespace Writer

def line (text : String) (writer : Writer) : Writer :=
  { writer with lines := writer.lines ++ [⟨writer.depth, text⟩] }

def blank (writer : Writer) : Writer :=
  { writer with lines := writer.lines ++ [emptyLine] }

def deeper (writer : Writer) : Writer :=
  { writer with depth := writer.depth + 1 }

/-- Goes back one level; at the outermost level nothing changes. -/
def shallower (writer : Writer) : Writer :=
  { writer with depth := writer.depth - 1 }

def fragment (fragment : Fragment) (writer : Writer) : Writer :=
  { writer with lines := writer.lines ++ fragment.lines writer.depth }

def fragments (all : List Fragment) (writer : Writer) : Writer :=
  { writer with lines := writer.lines ++ Fragment.linesOfAll writer.depth all }

def render (indent : Indent) (writer : Writer) : String :=
  Code.render indent writer.lines

end Writer

end Phrasebook.Code
