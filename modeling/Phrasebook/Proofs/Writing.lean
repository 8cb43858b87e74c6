import Phrasebook.Disk
import Phrasebook.Generation
import Phrasebook.Proofs.Disk

/-!
# Writing files

A file that was written, or left alone, is there with its content, and nothing else has changed. When
no two files ever lie at the same place, none of them is touched again by the others, so in the end
all are there.
-/

namespace Phrasebook

/-! ## Operations on a disk -/

section

variable {α β : Type} (disk : Disk)

theorem run_andThen (first : StateM Disk α) (next : α → StateM Disk β) :
    (first >>= next).run disk = (next (first.run disk).1).run (first.run disk).2 :=
  rfl

theorem run_readText? (path : Path) :
    (FileSystem.readText? path : StateM Disk (Option String)).run disk = (disk.readText? path, disk) :=
  rfl

theorem run_makeDirectory (path : Path) :
    (FileSystem.makeDirectory path : StateM Disk Bool).run disk = disk.makeDirectory path :=
  rfl

theorem run_writeText (path : Path) (text : String) :
    (FileSystem.writeText path text : StateM Disk Bool).run disk = disk.writeText path text :=
  rfl

end

/-- Whether a failure is one of the disk: a directory could not be made, or a file not be written. -/
def Failure.IsOfDisk : Failure → Prop
  | .directoryNotCreated _ => True
  | .fileNotWritten _ => True
  | _ => False

namespace OutputFile

/-- What becomes of a file on a disk, and what becomes of the disk. -/
def writeOn (file : OutputFile) (disk : Disk) : Except Failure WriteResult × Disk :=
  (file.write : StateM Disk (Except Failure WriteResult)).run disk

/-- What becomes of files on a disk, and what becomes of the disk. -/
def writeAllOn (files : List OutputFile) (disk : Disk) :
    Except Failure (List (Path × WriteResult)) × Disk :=
  (writeAll files : StateM Disk (Except Failure (List (Path × WriteResult)))).run disk

/-- Writes a file whose directory is there. -/
def putOn (file : OutputFile) (disk : Disk) : Except Failure WriteResult × Disk :=
  match disk.writeText file.path file.content with
  | (true, after) => (.ok .written, after)
  | (false, after) => (.error (.fileNotWritten file.path.text), after)

theorem writeOn_eq (file : OutputFile) (disk : Disk) :
    file.writeOn disk =
      if disk.readText? file.path = some file.content then (.ok .unchanged, disk)
      else match file.path.parent? with
        | none => file.putOn disk
        | some parent =>
            match disk.makeDirectory parent with
            | (true, made) => file.putOn made
            | (false, made) => (.error (.directoryNotCreated parent.text), made) := by
  have puts (made : Disk) :
      (do
        if ← FileSystem.writeText file.path file.content then return .ok .written
        else return .error (.fileNotWritten file.path.text) :
          StateM Disk (Except Failure WriteResult)).run made = file.putOn made := by
    rw [run_andThen, run_writeText, putOn]
    rcases made.writeText file.path file.content with ⟨_ | _, after⟩
    · rfl
    · rfl
  rw [writeOn, write, run_andThen, run_readText?]
  dsimp only
  split
  · rfl
  · rw [makeDirectory]
    cases file.path.parent? with
    | none => exact puts disk
    | some parent =>
        dsimp only
        rw [run_andThen, run_andThen, run_makeDirectory]
        rcases disk.makeDirectory parent with ⟨_ | _, made⟩
        · rfl
        · exact puts made

theorem writeAllOn_cons (first : OutputFile) (rest : List OutputFile) (disk : Disk) :
    writeAllOn (first :: rest) disk =
      match first.writeOn disk with
      | (.error failure, after) => (.error failure, after)
      | (.ok result, between) =>
          match writeAllOn rest between with
          | (.error failure, after) => (.error failure, after)
          | (.ok others, after) => (.ok ((first.path, result) :: others), after) := by
  have firstRun : (first.write : StateM Disk (Except Failure WriteResult)).run disk = first.writeOn disk :=
    rfl
  rw [writeAllOn, writeAll, run_andThen, firstRun]
  rcases first.writeOn disk with ⟨_ | result, between⟩
  · rfl
  · have restRun : (writeAll rest : StateM Disk (Except Failure (List (Path × WriteResult)))).run between =
        writeAllOn rest between :=
      rfl
    dsimp only
    rw [run_andThen, restRun]
    rcases writeAllOn rest between with ⟨_ | others, after⟩
    · rfl
    · rfl

/-! ## What writing comes to -/

section

variable {file : OutputFile} {files : List OutputFile} {disk after : Disk} {failure : Failure}

theorem putOn_eq_error (outcome : file.putOn disk = (.error failure, after)) : failure.IsOfDisk := by
  rw [putOn] at outcome
  split at outcome
  · cases outcome
  · cases outcome
    trivial

/-- A file that is put is there afterwards, and nothing else has changed. -/
theorem putOn_eq_ok {result : WriteResult} (outcome : file.putOn disk = (.ok result, after)) :
    ∃ location, after.Has file.path file.content location ∧ Disk.Keeps (· = location) disk after := by
  rw [putOn] at outcome
  split at outcome
  · rename_i written
    cases outcome
    exact Disk.writeText_eq_true written
  · cases outcome

/-- Only the disk keeps a file from being written. -/
theorem writeOn_eq_error (outcome : file.writeOn disk = (.error failure, after)) :
    failure.IsOfDisk := by
  rw [writeOn_eq] at outcome
  split at outcome
  · cases outcome
  · split at outcome
    · exact putOn_eq_error outcome
    · split at outcome
      · exact putOn_eq_error outcome
      · cases outcome
        trivial

/-- A written file is there afterwards, and nothing else has changed. -/
theorem writeOn_eq_ok {result : WriteResult} (outcome : file.writeOn disk = (.ok result, after)) :
    ∃ location, after.Has file.path file.content location ∧ Disk.Keeps (· = location) disk after := by
  rw [writeOn_eq] at outcome
  split at outcome
  · rename_i same
    cases outcome
    obtain ⟨location, has⟩ := Disk.readText?_eq_some_iff.mp same
    exact ⟨location, has, .refl disk⟩
  · split at outcome
    · exact putOn_eq_ok outcome
    · rename_i parent _
      split at outcome
      · rename_i made directory
        obtain ⟨location, has, keeps⟩ := putOn_eq_ok outcome
        have madeKeeps := Disk.makeDirectory_keeps parent disk
        rw [directory] at madeKeeps
        exact ⟨location, has, (madeKeeps.mono fun _ => False.elim).trans keeps⟩
      · cases outcome

/-- A file that is there with its content is left alone. -/
theorem writeOn_of_same (same : disk.readText? file.path = some file.content) :
    file.writeOn disk = (.ok .unchanged, disk) := by
  rw [writeOn_eq, if_pos same]

/-- A file that is missing is put into the directory made for it. -/
theorem writeOn_of_missing {path parent : Path} {content : String} {made : Disk}
    (missing : disk.readText? path = none) (inside : path.parent? = some parent)
    (makes : disk.makeDirectory parent = (true, made))
    (puts : made.writeText path content = (true, after)) :
    writeOn ⟨path, content⟩ disk = (.ok .written, after) := by
  rw [writeOn_eq, missing, if_neg nofun, inside]
  dsimp only
  rw [makes]
  dsimp only
  rw [putOn, puts]

/-- Only the disk keeps files from being written. -/
theorem writeAllOn_eq_error (outcome : writeAllOn files disk = (.error failure, after)) :
    failure.IsOfDisk := by
  induction files generalizing disk with
  | nil => cases outcome
  | cons first rest ih =>
      rw [writeAllOn_cons] at outcome
      split at outcome
      · rename_i wrote
        cases outcome
        exact writeOn_eq_error wrote
      · split at outcome
        · rename_i others
          cases outcome
          exact ih others
        · cases outcome

/-- The places that the paths of files lead to. -/
def PlacesOf (files : List OutputFile) (disk : Disk) (location : Location) : Prop :=
  ∃ file ∈ files, disk.locate? file.path = some location

/-- Files that never lie at the same place are all there after they have been written, each with its
content, and nothing else has changed. What is reported are their paths, in order. -/
theorem writeAllOn_eq_ok {results : List (Path × WriteResult)}
    (apart : (files.map OutputFile.path).Pairwise Disk.Apart)
    (outcome : writeAllOn files disk = (.ok results, after)) :
    results.map Prod.fst = files.map OutputFile.path ∧
      (∀ file ∈ files, after.readText? file.path = some file.content) ∧
      Disk.Keeps (PlacesOf files after) disk after := by
  induction files generalizing disk results with
  | nil =>
      cases outcome
      exact ⟨rfl, nofun, .refl after⟩
  | cons first rest ih =>
      rw [writeAllOn_cons] at outcome
      split at outcome
      · cases outcome
      · rename_i result between wrote
        split at outcome
        · cases outcome
        · rename_i others _ behind
          cases outcome
          rw [List.map_cons, List.pairwise_cons, List.forall_mem_map] at apart
          obtain ⟨location, ⟨leads, holds⟩, keeps⟩ := writeOn_eq_ok wrote
          obtain ⟨paths, there, keepsRest⟩ := ih apart.2 behind
          -- the first file is still where it was put, and none of the others lies there
          have leadsAfter := keepsRest.locate? leads
          have untouched : ¬PlacesOf rest after location := by
            rintro ⟨other, member, otherLeads⟩
            exact apart.1 other member after location leadsAfter otherLeads
          have has : after.Has first.path first.content location :=
            ⟨leadsAfter, (keepsRest.content location untouched).trans holds⟩
          refine ⟨by rw [List.map_cons, List.map_cons, paths], ?_, ?_⟩
          · rw [List.forall_mem_cons]
            exact ⟨Disk.readText?_eq_some_iff.mpr ⟨location, has⟩, there⟩
          · refine (keeps.mono ?_).trans (keepsRest.mono ?_)
            · rintro _ rfl
              exact ⟨first, List.mem_cons_self, leadsAfter⟩
            · rintro place ⟨other, member, otherLeads⟩
              exact ⟨other, List.mem_cons_of_mem _ member, otherLeads⟩

/-- Files that are all there with their contents are left alone. -/
theorem writeAllOn_of_same (same : ∀ file ∈ files, disk.readText? file.path = some file.content) :
    writeAllOn files disk = (.ok (files.map fun file => (file.path, .unchanged)), disk) := by
  induction files with
  | nil => rfl
  | cons first rest ih =>
      rw [List.forall_mem_cons] at same
      rw [writeAllOn_cons, writeOn_of_same same.1]
      dsimp only
      rw [ih same.2]
      rfl

end

end OutputFile

end Phrasebook
