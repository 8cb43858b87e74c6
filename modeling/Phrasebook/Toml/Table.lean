import Phrasebook.Value

/-!
# Tables

A table grows line by line: a header opens a table, and an assignment puts a value at a
dotted key of it. Every table remembers how it came to be, because a table is opened once
at most, and dotted keys extend only tables that dotted keys have named. Values written
in place, inline tables among them, are closed and never extended.
-/

namespace Phrasebook.Toml

/-- A dotted key: the tables that it names on the way, and its last part. -/
structure Key where
  path : List String
  last : String
deriving DecidableEq, Repr

/-- How a table came to be. -/
inductive Origin where
  /-- It was opened by a header of its own. -/
  | opened
  /-- A header below it named it on the way. -/
  | passed
  /-- A dotted key named it on the way. -/
  | dotted
deriving DecidableEq, Repr

/-- What stands at a key of a table that still grows. Of the tables in a list only the
last one does. -/
inductive Item where
  | value (value : Value)
  | table (origin : Origin) (entries : List (String × Item))
  | tables (earlier : List Value) (entries : List (String × Item))

mutual

def Item.close : Item → Value
  | .value it => it
  | .table _ entries => .mapping (closeEntries entries)
  | .tables earlier entries => .sequence (earlier ++ [.mapping (closeEntries entries)])

/-- The values of a table that has stopped growing. -/
def closeEntries : List (String × Item) → List (String × Value)
  | [] => []
  | (key, item) :: rest => (key, item.close) :: closeEntries rest

end

/-- Puts a value at the end of a path, unless something is there. -/
def assignAt (last : String) (value : Value) : List String → Entries Item → Option (Entries Item)
  | [], table =>
      match table.lookup last with
      | some _ => none
      | none => some (table ++ [(last, .value value)])
  | first :: rest, table =>
      match table.lookup first with
      | none => (assignAt last value rest []).map fun inner => table ++ [(first, .table .dotted inner)]
      | some (.table origin inner) =>
          if origin = .opened ∨ (origin = .passed ∧ rest = []) then none
          else (assignAt last value rest inner).map fun changed =>
            Entries.put first (.table origin changed) table
      | some _ => none

def assign (key : Key) (value : Value) (table : Entries Item) : Option (Entries Item) :=
  assignAt key.last value key.path table

/-- Changes the table at the end of a path. Tables that are missing on the way are made,
and a list of tables stands for its last one. -/
def changeAt (change : Entries Item → Option (Entries Item)) :
    List String → Entries Item → Option (Entries Item)
  | [], table => change table
  | first :: rest, table =>
      match table.lookup first with
      | none => (changeAt change rest []).map fun inner => table ++ [(first, .table .passed inner)]
      | some (.table origin inner) => (changeAt change rest inner).map fun changed =>
          Entries.put first (.table origin changed) table
      | some (.tables earlier inner) => (changeAt change rest inner).map fun changed =>
          Entries.put first (.tables earlier changed) table
      | some (.value _) => none

inductive Line where
  /-- The header of a table, or of one more table of a list. -/
  | header (isListed : Bool) (key : Key)
  | assignment (key : Key) (value : Value)

/-- A header with the assignments up to the next one. -/
structure Section where
  isListed : Bool
  key : Key
  assignments : List (Key × Value)

/-- The assignments before the first header, and the sections. -/
def sections : List Line → List (Key × Value) × List Section
  | [] => ([], [])
  | .assignment key value :: rest =>
      let (own, later) := sections rest
      ((key, value) :: own, later)
  | .header isListed key :: rest =>
      let (own, later) := sections rest
      ([], ⟨isListed, key, own⟩ :: later)

def fill (assignments : List (Key × Value)) (table : Entries Item) : Option (Entries Item) :=
  assignments.foldlM (fun filled (key, value) => assign key value filled) table

/-- Adds a section to the table in which its key ends. A table that was only named on the
way is opened now, and takes its place after the entries that are there. -/
def Section.addTo (part : Section) (parent : Entries Item) : Option (Entries Item) :=
  let last := part.key.last
  match parent.lookup last, part.isListed with
  | none, false =>
      (fill part.assignments []).map fun table => parent ++ [(last, .table .opened table)]
  | some (.table .passed inner), false =>
      (fill part.assignments inner).map fun table =>
        parent.filter (fun entry => entry.1 ≠ last) ++ [(last, .table .opened table)]
  | none, true =>
      (fill part.assignments []).map fun table => parent ++ [(last, .tables [] table)]
  | some (.tables earlier inner), true =>
      (fill part.assignments []).map fun table =>
        Entries.put last (.tables (earlier ++ [.mapping (closeEntries inner)]) table) parent
  | _, _ => none

def documentOf? (lines : List Line) : Option (Entries Value) :=
  let (own, later) := sections lines
  match fill own [] with
  | none => none
  | some start =>
      (later.foldlM (fun root part => changeAt part.addTo part.key.path root) start).map closeEntries

end Phrasebook.Toml
