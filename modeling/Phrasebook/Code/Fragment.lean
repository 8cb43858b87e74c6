/-!
# Code fragments

Code before it is laid out: single lines, empty lines, and blocks whose body stands one
level deeper. Layout turns a fragment into lines with their depth; the text of a line does
not depend on how a level is indented.
-/

namespace Phrasebook.Code

inductive Fragment where
  | line (text : String)
  | blank
  | block (header : String) (body : List Fragment) (close : Option String)
deriving Inhabited

inductive Indent where
  | spaces (width : Nat)
  | tab
deriving DecidableEq, Repr

/-- The text of one level: two, four or eight spaces, or a tab. Other widths count as two. -/
def Indent.unit : Indent → String
  | .spaces 4 => "    "
  | .spaces 8 => "        "
  | .spaces _ => "  "
  | .tab => "\t"

/-- A line of laid out code. An empty line has depth zero and no text. -/
structure Line where
  depth : Nat
  text : String
deriving DecidableEq, Repr

def Line.render (indent : Indent) (line : Line) : String :=
  String.join (List.replicate line.depth indent.unit) ++ line.text ++ "\n"

def render (indent : Indent) (lines : List Line) : String :=
  String.join (lines.map (Line.render indent))

/-- The line that separates two pieces of code. -/
def emptyLine : Line := ⟨0, ""⟩

namespace Fragment

/-- Puts a text at the front of the first line. A blank becomes a line of that text. -/
def prepend (text : String) : Fragment → Fragment
  | .line rest => .line (text ++ rest)
  | .block header body close => .block (text ++ header) body close
  | .blank => .line text

mutual

/-- Puts a text at the end of the last line. A blank takes no text. -/
def append (text : String) : Fragment → Fragment
  | .line rest => .line (rest ++ text)
  | .block header body (some close) => .block header body (some (close ++ text))
  | .block header body none => .block header (appendToLast text body) none
  | .blank => .blank

def appendToLast (text : String) : List Fragment → List Fragment
  | [] => []
  | [last] => [last.append text]
  | first :: second :: rest => first :: appendToLast text (second :: rest)

end

mutual

/-- The lines of a fragment that starts at a given depth. -/
def lines (depth : Nat) : Fragment → List Line
  | .line text => [⟨depth, text⟩]
  | .blank => [emptyLine]
  | .block header body close =>
      ⟨depth, header⟩ :: linesOfAll (depth + 1) body ++
        match close with
        | some text => [⟨depth, text⟩]
        | none => []

def linesOfAll (depth : Nat) : List Fragment → List Line
  | [] => []
  | first :: rest => first.lines depth ++ linesOfAll depth rest

end

end Fragment

end Phrasebook.Code
