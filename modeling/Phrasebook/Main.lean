import Phrasebook.CommandLine.Run

/-!
# The program

Runs a command on real files.
-/

namespace Phrasebook

/-- What an action gives, unless it fails. -/
def attempt {α : Type} (action : IO α) : IO (Option α) := do
  try
    return some (← action)
  catch _ => return none

def listReal (path : Path) : IO (List DirectoryEntry) := do
  let found ← (← IO.FS.realPath path.text).readDir
  found.toList.mapM fun entry => do
    let info ← attempt entry.path.metadata
    return ⟨.text entry.fileName, (info.map fun known => known.type == .file).getD false⟩

instance : FileSystem IO where
  isThere path := do
    if path.text.isEmpty then return false
    return (← attempt (IO.FS.realPath path.text)).isSome
  readText? path := attempt (IO.FS.readFile path.text)
  list? path := if path.text.isEmpty then return none else attempt (listReal path)
  makeDirectory path := do
    if path.text.isEmpty then return true
    return (← attempt (IO.FS.createDirAll path.text)).isSome
  writeText path text := return (← attempt (IO.FS.writeFile path.text text)).isSome

end Phrasebook

def main (arguments : List String) : IO UInt32 := do
  let ran : Phrasebook.CommandLine.Run ← Phrasebook.CommandLine.run arguments
  IO.print ran.output
  IO.eprint ran.errors
  return UInt32.ofNat ran.exitCode
