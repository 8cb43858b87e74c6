import Phrasebook.Path

/-!
# Access to files

What the operations on projects need of a file system. They are written for any monad that
offers it, so that they run on real files and on a file system that is a value.
-/

namespace Phrasebook

/-- The name of a file: a text, or bytes that are none. -/
inductive FileName where
  | text (name : String)
  | undecodable (bytes : List UInt8)
deriving DecidableEq, Repr

/-- What a directory lists: a name, and whether it is that of a regular file. -/
structure DirectoryEntry where
  name : FileName
  isFile : Bool
deriving DecidableEq, Repr

class FileSystem (m : Type → Type) where
  /-- Whether a path leads to anything. -/
  isThere : Path → m Bool
  /-- The text of a file, if it can be read as text. -/
  readText? : Path → m (Option String)
  /-- What a directory holds, in any order, if it can be listed. -/
  list? : Path → m (Option (List DirectoryEntry))
  /-- Makes a directory with all that are missing on the way, and says whether it is there. -/
  makeDirectory : Path → m Bool
  /-- Gives a file a text, and says whether that succeeded. -/
  writeText : Path → String → m Bool

end Phrasebook
