import Phrasebook.Json
import Phrasebook.Tree

/-!
# Message trees as JSON

Every node names its kind, and records keep the order of their keys. The mark of an open
record is not written.
-/

namespace Phrasebook

def Segment.toJson : Segment → Json
  | .literal text => .object [("kind", .text "literal"), ("value", .text text)]
  | .param name => .object [("kind", .text "param"), ("name", .text name)]

namespace Node

mutual

def toJson : Node → Json
  | .text value => .object [("kind", .text "string"), ("value", .text value)]
  | .call body => .object [("kind", .text "call"), ("body", .array (body.map Segment.toJson))]
  | .record _ entries => .object [("kind", .text "record"), ("value", .object (entriesToJson entries))]

def entriesToJson : List (String × Node) → List (String × Json)
  | [] => []
  | (key, node) :: rest => (key, node.toJson) :: entriesToJson rest

end

end Node

/-- The keys of the root with their nodes. -/
def Tree.toJson (tree : Tree) : Json :=
  .object (Node.entriesToJson tree.entries)

end Phrasebook
