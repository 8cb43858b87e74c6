import Phrasebook.FileSystem

/-!
# A file system as a value

Directories and files without links. Everything has a location, the names that lead to it
from the root; a path is followed from the root or from the working directory, and `..`
leads to the directory above. Writing changes what is at one location, and what is read
there afterwards is what was written.
-/

namespace Phrasebook

/-- What a file holds: a text, or bytes that are none. -/
inductive FileContent where
  | text (text : String)
  | binary (bytes : List UInt8)
deriving DecidableEq, Repr

/-- The names that lead to a place, from the innermost one to the root. -/
abbrev Location := List FileName

inductive DiskEntry where
  | directory
  | file (content : FileContent)
deriving DecidableEq, Repr

/-- A file system, and the directory that relative paths start from. -/
structure Disk where
  entries : List (Location × DiskEntry)
  workdir : Location
deriving DecidableEq, Repr

namespace Disk

/-- A disk with an empty working directory of a name, right below the root. -/
def ofWorkdir (name : String) : Disk where
  entries := [([.text name], .directory)]
  workdir := [.text name]

/-- What is at a location. The root is always a directory. -/
def entryAt (disk : Disk) (location : Location) : Option DiskEntry :=
  if location.isEmpty then some .directory else disk.entries.lookup location

def isDirectory (disk : Disk) (location : Location) : Bool :=
  disk.entryAt location = some .directory

def put (location : Location) (entry : DiskEntry) (disk : Disk) : Disk :=
  { disk with
    entries := (location, entry) :: disk.entries.filter fun other => other.1 ≠ location }

/-- Puts something at the end of a list of names below a location, and directories on the
way. -/
def addBelow (entry : DiskEntry) : Location → List FileName → Disk → Disk
  | _, [], disk => disk
  | location, [name], disk => disk.put (name :: location) entry
  | location, name :: second :: rest, disk =>
      let next := name :: location
      addBelow entry next (second :: rest)
        (if disk.isDirectory next then disk else disk.put next .directory)

/-- Puts something into the working directory, under a list of names. -/
def add (names : List FileName) (entry : DiskEntry) (disk : Disk) : Disk :=
  addBelow entry disk.workdir names disk

def contentAt (disk : Disk) (location : Location) : Option FileContent :=
  match disk.entryAt location with
  | some (.file content) => some content
  | _ => none

/-! ### Following paths -/

def start (disk : Disk) : Path.Start → Location
  | .root => []
  | .here => disk.workdir
  | .plain => disk.workdir

/-- Whether a piece of a path leads to the directory above. -/
def isUp (piece : List Char) : Bool :=
  piece = ['.', '.']

/-- Whether a piece can name a file: it is not too long, and has no null character. -/
def isNameable (piece : List Char) : Bool :=
  (String.ofList piece).utf8ByteSize ≤ 255 && !piece.contains (Char.ofNat 0)

def below (location : Location) (piece : List Char) : Location :=
  .text (String.ofList piece) :: location

/-- Follows a piece of a path from a location, which has to be a directory. -/
def step (disk : Disk) (location : Location) (piece : List Char) : Option Location :=
  if !disk.isDirectory location then none
  else if Path.isIdle piece then some location
  else if isUp piece then some location.tail
  else if (disk.entryAt (below location piece)).isSome then some (below location piece)
  else none

/-- The location that a path leads to. The empty path leads nowhere. -/
def locate? (disk : Disk) (path : Path) : Option Location :=
  if path.text.isEmpty then none
  else
    let (from_, pieces) := path.split
    pieces.foldlM disk.step (disk.start from_)

/-- The location of the file that a path names, which need not exist: a name in a directory
that does. -/
def target? (disk : Disk) (path : Path) : Option Location :=
  let (from_, pieces) := path.split
  match pieces.getLast?, pieces.dropLast.foldlM disk.step (disk.start from_) with
  | some last, some location =>
      if disk.isDirectory location && !Path.isIdle last && !isUp last && isNameable last then
        some (below location last)
      else none
  | _, _ => none

/-! ### Reading and writing -/

def isThere (path : Path) (disk : Disk) : Bool :=
  ((disk.locate? path).bind disk.entryAt).isSome

def readText? (path : Path) (disk : Disk) : Option String :=
  match (disk.locate? path).bind disk.contentAt with
  | some (.text text) => some text
  | _ => none

/-- The name of a location and what is there, if it lies right in a directory. -/
def childOf (directory : Location) : Location × DiskEntry → Option DirectoryEntry
  | (name :: location, entry) =>
      if location = directory then some ⟨name, entry ≠ .directory⟩ else none
  | ([], _) => none

def list? (path : Path) (disk : Disk) : Option (List DirectoryEntry) :=
  match disk.locate? path with
  | some location =>
      if disk.isDirectory location then some (disk.entries.filterMap (childOf location)) else none
  | none => none

/-- Follows pieces from a location, and makes the directories that are missing. What has
been made stays, also when a file is in the way. -/
def makePieces : List (List Char) → Location → Disk → Bool × Disk
  | [], location, disk => (disk.isDirectory location, disk)
  | piece :: rest, location, disk =>
      if !disk.isDirectory location then (false, disk)
      else if Path.isIdle piece then makePieces rest location disk
      else if isUp piece then makePieces rest location.tail disk
      else if (disk.entryAt (below location piece)).isSome then
        makePieces rest (below location piece) disk
      else if isNameable piece then
        makePieces rest (below location piece) (disk.put (below location piece) .directory)
      else (false, disk)

/-- Makes a directory with all that are missing on the way. A path with a null character
is refused as a whole. -/
def makeDirectory (path : Path) (disk : Disk) : Bool × Disk :=
  let (from_, pieces) := path.split
  if path.text.isEmpty then (true, disk)
  else if path.text.toList.contains (Char.ofNat 0) then (false, disk)
  else makePieces pieces (disk.start from_) disk

/-- Gives a file a text. Directories cannot be written. -/
def writeText (path : Path) (text : String) (disk : Disk) : Bool × Disk :=
  match disk.target? path with
  | some location =>
      if disk.isDirectory location then (false, disk)
      else (true, disk.put location (.file (.text text)))
  | none => (false, disk)

def files (disk : Disk) : List (Location × FileContent) :=
  disk.entries.filterMap fun (location, entry) =>
    match entry with
    | .file content => some (location, content)
    | .directory => none

end Disk

instance : FileSystem (StateM Disk) where
  isThere path := fun disk => (disk.isThere path, disk)
  readText? path := fun disk => (disk.readText? path, disk)
  list? path := fun disk => (disk.list? path, disk)
  makeDirectory := Disk.makeDirectory
  writeText := Disk.writeText

end Phrasebook
