import Phrasebook.Tree

/-!
# Outlines of a message tree

A tree drawn with one line for each key, either indented by depth or with box-drawing
branches. Messages with parameters show them behind their key.
-/

namespace Phrasebook.Tree

def label (key : String) : Node → String
  | .call body => key ++ "(" ++ ", ".intercalate (Body.params body) ++ ")"
  | .text _ => key
  | .record _ _ => key

mutual

/-- The indented outline of a list of entries, each line after `margin`. -/
def indentedEntries (step margin : String) : List (String × Node) → String
  | [] => ""
  | (key, node) :: rest =>
      margin ++ label key node ++ "\n" ++ indentedBelow step margin node ++
        indentedEntries step margin rest

def indentedBelow (step margin : String) : Node → String
  | .record _ entries => indentedEntries step (margin ++ step) entries
  | .text _ => ""
  | .call _ => ""

end

mutual

/-- The branches of a list of entries. The last one bends, and nothing is drawn below it. -/
def branchesOfEntries (margin : String) : List (String × Node) → String
  | [] => ""
  | (key, node) :: rest =>
      let isLast := rest.isEmpty
      margin ++ (if isLast then "└─ " else "├─ ") ++ label key node ++ "\n" ++
        branchesBelow (margin ++ if isLast then "   " else "│  ") node ++
        branchesOfEntries margin rest

def branchesBelow (margin : String) : Node → String
  | .record _ entries => branchesOfEntries margin entries
  | .text _ => ""
  | .call _ => ""

end

/-- The outline in which each level is indented by one more `step`. -/
def indented (step : String) (tree : Tree) : String :=
  indentedEntries step "" tree.entries

def branches (tree : Tree) : String :=
  branchesOfEntries "" tree.entries

end Phrasebook.Tree
