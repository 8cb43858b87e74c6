/-!
# Key paths

The keys that lead from the root of a tree to a node. A path is displayed with its keys
joined by dots; since keys may hold dots themselves, the displayed form does not always
tell the path.
-/

namespace Phrasebook

/-- The keys from the root to a node. -/
abbrev KeyPath := List String

namespace KeyPath

def dotted (path : KeyPath) : String :=
  ".".intercalate path

/-- The last key, or the empty text for the root. -/
def lastKey (path : KeyPath) : String :=
  path.getLast?.getD ""

def ofDotted (text : String) : KeyPath :=
  (text.toList.splitOn '.').map String.ofList

end KeyPath

end Phrasebook
