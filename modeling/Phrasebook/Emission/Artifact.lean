import Phrasebook.Failure
import Phrasebook.Path
import Phrasebook.Value

/-!
# Artifacts and their files

Generated code is one unit, or a main unit with one more unit for each of some languages.
The other units lie beside the main one, each named after its language.
-/

namespace Phrasebook

/-- Generated code before it has paths. -/
inductive Artifact where
  | single (main : String)
  | split (main : String) (others : List (Named String))
deriving DecidableEq, Repr

structure OutputFile where
  path : Path
  content : String
deriving DecidableEq, Repr

namespace Artifact

def main : Artifact → String
  | .single main => main
  | .split main _ => main

def others : Artifact → List (Named String)
  | .single _ => []
  | .split _ others => others

def unitPath (directory : Path) (extension : String) (unit : Named String) : Path :=
  directory.join (unit.name ++ "." ++ extension)

/-- The files of the other units; none may lie at the path of the main one. -/
def unitFiles (mainPath directory : Path) (extension : String) :
    List (Named String) → Except Failure (List OutputFile)
  | [] => .ok []
  | unit :: rest =>
      let path := unitPath directory extension unit
      if path.same mainPath then .error (.unitCollision unit.name path.text)
      else (unitFiles mainPath directory extension rest).map fun files => ⟨path, unit.value⟩ :: files

/-- The files of an artifact, the main one first. -/
def files (mainPath : Path) (extension : String) : Artifact → Except Failure (List OutputFile)
  | .single main => .ok [⟨mainPath, main⟩]
  | .split main others =>
      let directory := mainPath.parent?.getD ⟨""⟩
      (unitFiles mainPath directory extension others).map fun files => ⟨mainPath, main⟩ :: files

end Artifact

end Phrasebook
