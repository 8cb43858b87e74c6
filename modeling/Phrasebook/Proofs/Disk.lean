import Phrasebook.Disk
import Phrasebook.Proofs.Path

/-!
# Writing to a disk

What is written goes to one place: directories are made where nothing was, and the file is put
where no directory is. So every path leads where it led before, and the other files keep what they
hold. Two paths that differ in their last name only never lead to the same place.
-/

namespace Phrasebook.Disk

open Phrasebook.Path

/-! ## Entries -/

theorem entryAt_of_ne_nil {location : Location} (below : location ≠ []) (disk : Disk) :
    disk.entryAt location = disk.entries.lookup location := by
  rw [entryAt, if_neg (by simpa using below)]

theorem lookup_filter_ne {entries : List (Location × DiskEntry)} {location other : Location}
    (different : other ≠ location) :
    (entries.filter fun entry => entry.1 ≠ location).lookup other = entries.lookup other := by
  induction entries with
  | nil => rfl
  | cons entry rest ih =>
      obtain ⟨place, content⟩ := entry
      by_cases here : place = location
      · have elsewhere : (other == place) = false := by simpa [here] using different
        rw [List.filter_cons_of_neg (by simp [here]), ih, List.lookup_cons, elsewhere]
      · rw [List.filter_cons_of_pos (by simp [here]), List.lookup_cons, List.lookup_cons, ih]

/-- Putting something at a location changes nothing else. -/
theorem entryAt_put_of_ne {location other : Location} (different : other ≠ location)
    (entry : DiskEntry) (disk : Disk) :
    (disk.put location entry).entryAt other = disk.entryAt other := by
  have elsewhere : (other == location) = false := by simpa using different
  rw [entryAt, entryAt, put, List.lookup_cons, elsewhere]
  dsimp only
  rw [lookup_filter_ne different]

theorem entryAt_put {location : Location} (below : location ≠ []) (entry : DiskEntry) (disk : Disk) :
    (disk.put location entry).entryAt location = some entry := by
  rw [entryAt_of_ne_nil below, put, List.lookup_cons, beq_self_eq_true]

theorem isDirectory_iff {disk : Disk} {location : Location} :
    disk.isDirectory location = true ↔ disk.entryAt location = some .directory :=
  decide_eq_true_iff

/-! ## Following paths -/

/-- The three ways in which a piece leads on from a directory. -/
inductive Leads (disk : Disk) (location : Location) (piece : List Char) : Location → Prop where
  | stay (idle : isIdle piece = true) : Leads disk location piece location
  | up (notIdle : isIdle piece = false) (isUp : isUp piece = true) :
      Leads disk location piece location.tail
  | down (notIdle : isIdle piece = false) (notUp : isUp piece = false)
      (isThere : (disk.entryAt (below location piece)).isSome = true) :
      Leads disk location piece (below location piece)

theorem step_eq_some_iff {disk : Disk} {location reached : Location} {piece : List Char} :
    disk.step location piece = some reached ↔
      disk.isDirectory location = true ∧ disk.Leads location piece reached := by
  constructor
  · intro leads
    rw [step] at leads
    split at leads
    · cases leads
    · rename_i directory
      refine ⟨by simpa using directory, ?_⟩
      split at leads
      · rename_i idle
        cases leads
        exact .stay idle
      · rename_i notIdle
        rw [Bool.not_eq_true] at notIdle
        split at leads
        · rename_i isUp
          cases leads
          exact .up notIdle isUp
        · rename_i notUp
          rw [Bool.not_eq_true] at notUp
          split at leads
          · rename_i isThere
            cases leads
            exact .down notIdle notUp isThere
          · cases leads
  · rintro ⟨directory, leads⟩
    cases leads with
    | stay idle => simp [step, directory, idle]
    | up notIdle isUp => simp [step, directory, notIdle, isUp]
    | down notIdle notUp isThere => simp [step, directory, notIdle, notUp, isThere]

/-- Idle pieces lead nowhere else. -/
theorem walk_proper {disk : Disk} {pieces : List (List Char)} {location reached : Location}
    (leads : pieces.foldlM disk.step location = some reached) :
    (proper pieces).foldlM disk.step location = some reached := by
  induction pieces generalizing location with
  | nil => exact leads
  | cons piece rest ih =>
      rw [List.foldlM_cons, Option.bind_eq_bind, Option.bind_eq_some_iff] at leads
      obtain ⟨next, first, others⟩ := leads
      obtain ⟨_, way⟩ := step_eq_some_iff.mp first
      by_cases idle : isIdle piece = true
      · cases way with
        | stay _ =>
            rw [proper_cons_idle idle]
            exact ih others
        | up notIdle _ => exact absurd idle (by simp [notIdle])
        | down notIdle _ _ => exact absurd idle (by simp [notIdle])
      · have split : proper (piece :: rest) = piece :: proper rest :=
          List.filter_cons_of_pos (by simp [idle])
        rw [split, List.foldlM_cons, first]
        exact ih others

/-- The pieces of a path lead from its start to its location. -/
theorem locate?_eq_some_iff {disk : Disk} {path : Path} {location : Location} :
    disk.locate? path = some location ↔
      path.text.isEmpty = false ∧
        path.split.2.foldlM disk.step (disk.start path.split.1) = some location := by
  rw [locate?]
  split
  · rename_i empty
    exact ⟨nofun, fun leads => absurd empty (by simp [leads.1])⟩
  · rename_i text
    exact ⟨fun leads => ⟨Bool.not_eq_true _ ▸ text, leads⟩, fun leads => leads.2⟩

/-- A path leads where its names lead. -/
theorem walk_names {disk : Disk} {path : Path} {location : Location}
    (leads : disk.locate? path = some location) :
    path.names.foldlM disk.step (disk.start path.split.1) = some location :=
  walk_proper (locate?_eq_some_iff.mp leads).2

/-! ## Paths that never meet -/

/-- A name leads from a directory to the one above or to what lies in it. -/
theorem step_name {disk : Disk} {directory location : Location} {name : List Char}
    (leads : disk.step directory name = some location) (notIdle : isIdle name = false) :
    (isUp name = true ∧ location = directory.tail) ∨
      (isUp name = false ∧ location = below directory name) := by
  obtain ⟨_, way⟩ := step_eq_some_iff.mp leads
  cases way with
  | stay idle => exact absurd idle (by simp [notIdle])
  | up _ isUp => exact Or.inl ⟨isUp, rfl⟩
  | down _ notUp _ => exact Or.inr ⟨notUp, rfl⟩

/-- What lies in a directory has more names than what lies above it. -/
theorem tail_ne_below (directory : Location) (name : List Char) :
    directory.tail ≠ below directory name := by
  intro same
  have lengths := congrArg List.length same
  rw [List.length_tail, below, List.length_cons] at lengths
  omega

/-- Two names lead from a directory to different places. -/
theorem eq_of_step {disk : Disk} {directory location : Location} {one other : List Char}
    (oneLeads : disk.step directory one = some location)
    (otherLeads : disk.step directory other = some location)
    (oneName : isIdle one = false) (otherName : isIdle other = false) : one = other := by
  rcases step_name oneLeads oneName with ⟨oneUp, rfl⟩ | ⟨_, rfl⟩
  · rcases step_name otherLeads otherName with ⟨otherUp, _⟩ | ⟨_, same⟩
    · exact (decide_eq_true_eq.mp oneUp).trans (decide_eq_true_eq.mp otherUp).symm
    · exact absurd same (tail_ne_below directory other)
  · rcases step_name otherLeads otherName with ⟨_, same⟩ | ⟨_, same⟩
    · exact absurd same.symm (tail_ne_below directory one)
    · exact String.ofList_injective (FileName.text.inj (List.cons.inj same).1)

/-- Two paths that lead to different places on every disk, if they lead anywhere. -/
def Apart (one other : Path) : Prop :=
  ∀ (disk : Disk) (location : Location),
    disk.locate? one = some location → disk.locate? other ≠ some location

/-- A path with names leads to the directory of its last one, and from there by that name. -/
theorem walk_concat {disk : Disk} {path : Path} {location : Location} {front : List (List Char)}
    {last : List Char} (names : path.names = front ++ [last])
    (leads : disk.locate? path = some location) :
    ∃ directory, front.foldlM disk.step (disk.start path.split.1) = some directory ∧
      disk.step directory last = some location := by
  have walk := walk_names leads
  rw [names, List.foldlM_append, Option.bind_eq_bind, Option.bind_eq_some_iff] at walk
  obtain ⟨directory, before, behind⟩ := walk
  rw [List.foldlM_cons, Option.bind_eq_bind, Option.bind_eq_some_iff] at behind
  obtain ⟨reached, step, rest⟩ := behind
  cases rest
  exact ⟨directory, before, step⟩

/-- Paths that differ in their last name never meet. -/
theorem apart_of_last_name {one other : Path} {front : List (List Char)} {oneLast otherLast : List Char}
    (start : one.split.1 = other.split.1) (oneNames : one.names = front ++ [oneLast])
    (otherNames : other.names = front ++ [otherLast]) (different : oneLast ≠ otherLast) :
    Apart one other := by
  intro disk location oneLeads otherLeads
  obtain ⟨directory, before, oneStep⟩ := walk_concat oneNames oneLeads
  obtain ⟨otherDirectory, otherBefore, otherStep⟩ := walk_concat otherNames otherLeads
  rw [start, otherBefore] at before
  cases before
  have name {path : Path} {last : List Char} (names : path.names = front ++ [last]) :
      isIdle last = false :=
    notIdle_of_mem_names (names ▸ List.mem_append_right _ List.mem_cons_self)
  exact different (eq_of_step oneStep otherStep (name oneNames) (name otherNames))

/-- A path without names never meets a name in the working directory. -/
theorem apart_of_no_names {one other : Path} {name : List Char} (oneNames : one.names = [])
    (start : other.split.1 = .plain) (otherNames : other.names = [name]) (notUp : isUp name = false) :
    Apart one other := by
  intro disk location oneLeads otherLeads
  have here := walk_names oneLeads
  rw [oneNames] at here
  have there : other.names = [] ++ [name] := otherNames
  obtain ⟨directory, before, otherStep⟩ := walk_concat there otherLeads
  rw [start] at before
  cases here
  cases before
  have notIdle : isIdle name = false :=
    notIdle_of_mem_names (otherNames ▸ List.mem_cons_self)
  rcases step_name otherStep notIdle with ⟨up, _⟩ | ⟨_, same⟩
  · rw [notUp] at up
    cases up
  · -- the root and the working directory do not lie in the working directory
    revert same
    cases one.split.1 with
    | root => nofun
    | here => exact fun same => List.cons_ne_self _ _ same.symm
    | plain => exact fun same => List.cons_ne_self _ _ same.symm

section

variable {path : Path} {name other : String} (isName : IsFileName name)

include isName

/-- A path never meets what lies beside it, unless that is the same path. -/
theorem apart_beside (notSame : (path.beside name).same path = false) :
    Apart path (path.beside name) := by
  have names : (path.beside name).names = path.names.dropLast ++ [name.toList] := names_beside isName
  rcases List.eq_nil_or_concat path.names with absent | ⟨front, last, split⟩
  · rw [absent] at names
    exact apart_of_no_names absent (start_beside_of_no_names isName absent) names
      (decide_eq_false isName.notUp)
  · rw [List.concat_eq_append] at split
    have present : path.names ≠ [] := by
      rw [split]
      exact List.append_ne_nil_of_right_ne_nil _ (List.cons_ne_nil _ _)
    rw [split, List.dropLast_concat] at names
    refine apart_of_last_name (start_beside isName present).symm split names ?_
    rintro rfl
    rw [same_beside isName (by rw [split, List.dropLast_concat])] at notSame
    cases notSame

/-- Two names beside a path never meet. -/
theorem beside_apart (otherIsName : IsFileName other) (different : name ≠ other) :
    Apart (path.beside name) (path.beside other) := by
  have start : (path.beside name).split.1 = (path.beside other).split.1 := by
    by_cases absent : path.names = []
    · rw [start_beside_of_no_names isName absent, start_beside_of_no_names otherIsName absent]
    · rw [start_beside isName absent, start_beside otherIsName absent]
  exact apart_of_last_name start (names_beside isName) (names_beside otherIsName)
    fun same => different (String.toList_injective same)

end

/-! ## What writing keeps -/

/-- What a disk can become when files are written at some places: every directory stays one, what is
there stays there, and the files at other places hold what they held. -/
structure Keeps (written : Location → Prop) (before after : Disk) : Prop where
  workdir : after.workdir = before.workdir
  directory : ∀ location, before.isDirectory location = true → after.isDirectory location = true
  present : ∀ location, (before.entryAt location).isSome → (after.entryAt location).isSome
  content : ∀ location, ¬written location → after.contentAt location = before.contentAt location

namespace Keeps

variable {written : Location → Prop} {before between after : Disk}

theorem refl (disk : Disk) : Keeps written disk disk :=
  ⟨rfl, fun _ => id, fun _ => id, fun _ _ => rfl⟩

theorem trans (first : Keeps written before between) (second : Keeps written between after) :
    Keeps written before after where
  workdir := second.workdir.trans first.workdir
  directory location stays := second.directory location (first.directory location stays)
  present location stays := second.present location (first.present location stays)
  content location elsewhere :=
    (second.content location elsewhere).trans (first.content location elsewhere)

theorem mono {more : Location → Prop} (keeps : Keeps written before after)
    (included : ∀ location, written location → more location) : Keeps more before after where
  workdir := keeps.workdir
  directory := keeps.directory
  present := keeps.present
  content location elsewhere := keeps.content location fun inside => elsewhere (included location inside)

/-- Putting something at a location keeps the rest, if a directory there stays one and the content
there may change or does not. -/
theorem put {disk : Disk} {location : Location} {entry : DiskEntry} (below : location ≠ [])
    (stays : disk.isDirectory location = true → entry = .directory)
    (covered : ¬written location →
      (disk.put location entry).contentAt location = disk.contentAt location) :
    Keeps written disk (disk.put location entry) := by
  have there := entryAt_put below entry disk
  refine ⟨rfl, fun other directory => ?_, fun other isThere => ?_, fun other elsewhere => ?_⟩
  · rw [isDirectory_iff]
    by_cases here : other = location
    · subst here
      rw [there, stays directory]
    · rw [entryAt_put_of_ne here]
      exact isDirectory_iff.mp directory
  · by_cases here : other = location
    · rw [here, there]
      rfl
    · rwa [entryAt_put_of_ne here]
  · by_cases here : other = location
    · subst here
      exact covered elsewhere
    · rw [contentAt, contentAt, entryAt_put_of_ne here]

/-- A directory that is made where nothing was changes no file. -/
theorem putDirectory {disk : Disk} {location : Location} (below : location ≠ [])
    (absent : (disk.entryAt location).isSome = false) :
    Keeps written disk (disk.put location .directory) := by
  refine put below (fun _ => rfl) fun _ => ?_
  have nothing : disk.entryAt location = none :=
    Option.isNone_iff_eq_none.mp (Option.isSome_eq_false_iff.mp absent)
  rw [contentAt, contentAt, entryAt_put below, nothing]

/-- A file that is put where no directory is changes no other file. -/
theorem putFile {disk : Disk} {location : Location} (below : location ≠ [])
    (noDirectory : disk.isDirectory location = false) (content : FileContent) :
    Keeps (· = location) disk (disk.put location (.file content)) := by
  refine put below (fun directory => ?_) fun elsewhere => absurd rfl elsewhere
  rw [noDirectory] at directory
  cases directory

/-- A step leads where it led before. -/
theorem step (keeps : Keeps written before after) {location reached : Location} {piece : List Char}
    (leads : before.step location piece = some reached) :
    after.step location piece = some reached := by
  obtain ⟨directory, way⟩ := step_eq_some_iff.mp leads
  refine step_eq_some_iff.mpr ⟨keeps.directory location directory, ?_⟩
  cases way with
  | stay idle => exact .stay idle
  | up notIdle isUp => exact .up notIdle isUp
  | down notIdle notUp isThere => exact .down notIdle notUp (keeps.present _ isThere)

/-- So do many steps. -/
theorem walk (keeps : Keeps written before after) {pieces : List (List Char)} {location reached : Location}
    (leads : pieces.foldlM before.step location = some reached) :
    pieces.foldlM after.step location = some reached := by
  induction pieces generalizing location with
  | nil => exact leads
  | cons piece rest ih =>
      rw [List.foldlM_cons, Option.bind_eq_bind, Option.bind_eq_some_iff] at leads
      obtain ⟨next, first, others⟩ := leads
      rw [List.foldlM_cons, keeps.step first]
      exact ih others

theorem start (keeps : Keeps written before after) (from_ : Path.Start) :
    after.start from_ = before.start from_ := by
  cases from_ with
  | root => rfl
  | here => exact keeps.workdir
  | plain => exact keeps.workdir

/-- Every path leads where it led before. -/
theorem locate? (keeps : Keeps written before after) {path : Path} {location : Location}
    (leads : before.locate? path = some location) : after.locate? path = some location := by
  obtain ⟨text, leads⟩ := locate?_eq_some_iff.mp leads
  refine locate?_eq_some_iff.mpr ⟨text, ?_⟩
  rw [keeps.start]
  exact keeps.walk leads

end Keeps

/-! ## Writing -/

theorem below_ne_nil (location : Location) (piece : List Char) : below location piece ≠ [] :=
  List.cons_ne_nil _ _

/-- Making directories changes no file, however far it gets. -/
theorem makePieces_keeps (pieces : List (List Char)) (location : Location) (disk : Disk) :
    Keeps (fun _ => False) disk (makePieces pieces location disk).2 := by
  induction pieces generalizing location disk with
  | nil => exact .refl disk
  | cons piece rest ih =>
      rw [makePieces]
      split
      · exact .refl disk
      · split
        · exact ih location disk
        · split
          · exact ih location.tail disk
          · split
            · exact ih (below location piece) disk
            · rename_i absent
              split
              · exact (Keeps.putDirectory (below_ne_nil location piece)
                  (Bool.not_eq_true _ ▸ absent)).trans (ih _ _)
              · exact .refl disk

theorem makeDirectory_keeps (path : Path) (disk : Disk) :
    Keeps (fun _ => False) disk (disk.makeDirectory path).2 := by
  rw [makeDirectory]
  dsimp only
  split
  · exact .refl disk
  · split
    · exact .refl disk
    · exact makePieces_keeps _ _ disk

/-- The location that is written is that of a name in a directory. -/
theorem target?_eq_some {disk : Disk} {path : Path} {location : Location}
    (target : disk.target? path = some location) :
    ∃ front last directory, path.split.2 = front ++ [last] ∧
      front.foldlM disk.step (disk.start path.split.1) = some directory ∧
      disk.isDirectory directory = true ∧ isIdle last = false ∧ isUp last = false ∧
      location = below directory last := by
  rw [target?] at target
  dsimp only at target
  split at target
  · rename_i last directory isLast walk
    split at target
    · rename_i nameable
      simp only [Bool.and_eq_true, Bool.not_eq_true'] at nameable
      obtain ⟨⟨⟨isDirectory, notIdle⟩, notUp⟩, _⟩ := nameable
      cases target
      have split : path.split.2 = path.split.2.dropLast ++ [last] := by
        rw [List.getLast?_eq_some_iff] at isLast
        obtain ⟨front, pieces⟩ := isLast
        rw [pieces, List.dropLast_concat]
      exact ⟨_, last, directory, split, walk, isDirectory, notIdle, notUp, rfl⟩
    · cases target
  · cases target

/-- Whether a path leads to a place where a disk has a file with a text. -/
def Has (disk : Disk) (path : Path) (text : String) (location : Location) : Prop :=
  disk.locate? path = some location ∧ disk.contentAt location = some (.text text)

theorem readText?_eq_some_iff {disk : Disk} {path : Path} {text : String} :
    disk.readText? path = some text ↔ ∃ location, disk.Has path text location := by
  rw [readText?]
  constructor
  · intro reads
    split at reads
    · rename_i content found
      cases reads
      exact Option.bind_eq_some_iff.mp found
    · cases reads
  · rintro ⟨location, leads, holds⟩
    rw [leads, Option.bind_some, holds]

/-- The path of a written file leads to it, and nothing else has changed. -/
theorem writeText_eq_true {disk after : Disk} {path : Path} {text : String}
    (written : disk.writeText path text = (true, after)) :
    ∃ location, after.Has path text location ∧ Keeps (· = location) disk after := by
  rw [writeText] at written
  split at written
  · rename_i location target
    split at written
    · cases written
    · rename_i noDirectory
      rw [Bool.not_eq_true] at noDirectory
      cases written
      obtain ⟨front, last, directory, pieces, walk, isDirectory, notIdle, notUp, rfl⟩ :=
        target?_eq_some target
      have keeps := Keeps.putFile (below_ne_nil directory last) noDirectory (.text text)
      have made := entryAt_put (below_ne_nil directory last) (.file (.text text)) disk
      refine ⟨_, ⟨locate?_eq_some_iff.mpr ⟨?_, ?_⟩, ?_⟩, keeps⟩
      · rw [Bool.eq_false_iff]
        intro empty
        have noPieces : path.split.2 = [[]] := by
          rw [Path.split, String.isEmpty_iff.mp empty]
          rfl
        exact concat_ne_empty notIdle (pieces.symm.trans noPieces)
      · have here : (disk.put (below directory last) (.file (.text text))).step directory last =
            some (below directory last) :=
          step_eq_some_iff.mpr ⟨keeps.directory directory isDirectory,
            .down notIdle notUp (by rw [made]; rfl)⟩
        rw [pieces, keeps.start, List.foldlM_append, keeps.walk walk, Option.bind_eq_bind,
          Option.bind_some, List.foldlM_cons, here]
        rfl
      · rw [contentAt, made]
  · cases written

end Phrasebook.Disk
