/-!
# Paths

A path is kept as it was written and compared by its components: separators may be
repeated or trail, and a single dot counts only at the very front. `..` is a component of
its own and is never resolved here.
-/

namespace Phrasebook

/-- A path as it was written. -/
structure Path where
  text : String
deriving DecidableEq, Repr

namespace Path

def glue (pieces : List (List Char)) : List Char :=
  ['/'].intercalate pieces

/-- Whether a piece between separators is no component. -/
def isIdle (piece : List Char) : Bool :=
  piece = [] || piece = ['.']

/-- How a path starts: at the root, at the current directory by a dot, or just so. -/
inductive Start where
  | root
  | here
  | plain
deriving DecidableEq, Repr

/-- A path taken apart: its start, and the pieces between separators after it. -/
def split (path : Path) : Start × List (List Char) :=
  match path.text.toList with
  | '/' :: rest => (.root, rest.splitOn '/')
  | ['.'] => (.here, [])
  | '.' :: '/' :: rest => (.here, ('/' :: rest).splitOn '/')
  | rest => (.plain, rest.splitOn '/')

/-- The pieces without those at the end that are no components. -/
def trim (pieces : List (List Char)) : List (List Char) :=
  (pieces.reverse.dropWhile isIdle).reverse

inductive Component where
  | root
  | here
  | up
  | name (text : String)
deriving DecidableEq, Repr

def Component.ofPiece (piece : List Char) : Component :=
  if piece = ['.', '.'] then .up else .name (String.ofList piece)

def Start.components : Start → List Component
  | .root => [.root]
  | .here => [.here]
  | .plain => []

def components (path : Path) : List Component :=
  let (start, pieces) := path.split
  start.components ++ (pieces.filter fun piece => !isIdle piece).map Component.ofPiece

/-- Whether two paths have the same components. -/
def same (first second : Path) : Bool :=
  first.components = second.components

def Start.chars : Start → List Char
  | .root => ['/']
  | .here => ['.']
  | .plain => []

/-- The path without its last component; the root and the empty path have none. -/
def parent? (path : Path) : Option Path :=
  let (start, pieces) := path.split
  match (trim pieces).getLast? with
  | some _ => some ⟨String.ofList (start.chars ++ glue (trim (trim pieces).dropLast))⟩
  | none =>
      match start with
      | .here => some ⟨""⟩
      | .root => none
      | .plain => none

/-- The last component, if it is a name. -/
def fileName? (path : Path) : Option (List Char) :=
  match (trim path.split.2).getLast? with
  | some piece => if piece = ['.', '.'] then none else some piece
  | none => none

/-- What stands before and after the last dot of a name, if there is one. -/
def cutAtLastDot : List Char → Option (List Char × List Char)
  | [] => none
  | c :: rest =>
      match cutAtLastDot rest with
      | some (before, after) => some (c :: before, after)
      | none => if c = '.' then some ([], rest) else none

/-- The stem and the extension of a file name. A dot at the front starts no extension. -/
def stemAndExtension (name : List Char) : List Char × Option (List Char) :=
  match cutAtLastDot name with
  | some ([], _) => (name, none)
  | some (first :: before, after) => (first :: before, some after)
  | none => (name, none)

def stem? (path : Path) : Option String :=
  path.fileName?.map fun name => String.ofList (stemAndExtension name).1

def extension? (path : Path) : Option String :=
  path.fileName?.bind fun name => (stemAndExtension name).2.map String.ofList

/-- A path below a directory. A path that starts at the root stands for itself. -/
def join (directory : Path) (rest : String) : Path :=
  if rest.toList.head? = some '/' then ⟨rest⟩
  else match directory.text.toList.getLast? with
    | none => ⟨rest⟩
    | some last => ⟨if last = '/' then directory.text ++ rest else directory.text ++ "/" ++ rest⟩

end Path

end Phrasebook
