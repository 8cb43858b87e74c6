import Phrasebook.Yaml.Cursor

/-!
# Block texts

Texts that are marked off by their indentation. A literal text keeps its lines; in a
folded one a break between two lines that start with no blank stands for a space. The
header says what becomes of the breaks at the end, and may give the indentation, which
otherwise is that of the first line with content.
-/

namespace Phrasebook.Yaml

variable {source : List Char}

/-- What becomes of the breaks at the end of a block text. -/
inductive Chomping where
  /-- One of them is kept. -/
  | clip
  | strip
  | keep
deriving DecidableEq, Repr

/-- The indentation and the end of a block text. -/
structure BlockHeader where
  chomping : Chomping := .clip
  /-- By how much the text is indented more than what it belongs to, if that is said. -/
  increment : Option Nat := none
deriving DecidableEq, Repr

def chomping? (c : Char) : Option Chomping :=
  if c = '+' then some .keep else if c = '-' then some .strip else none

def takeChomping (cursor : Cursor source) : Option Chomping × Cursor source :=
  match cursor.rest.head?.bind chomping? with
  | some chomping => (some chomping, cursor.skip 1)
  | none => (none, cursor)

/-- Takes the digit for the indentation, if there is one. It must not be zero. -/
def takeIncrement (cursor : Cursor source) : Taking source (Option Nat × Cursor source) :=
  match cursor.rest.head?.filter Char.isDigit with
  | some digit =>
      if digit = '0' then .error cursor.toPlace
      else .ok (some (digit.toNat - '0'.toNat), cursor.skip 1)
  | none => .ok (none, cursor)

/-- Takes the two indicators of a header, in either order. -/
def takeHeader (cursor : Cursor source) : Taking source (BlockHeader × Cursor source) := do
  let (before, afterFirst) := takeChomping cursor
  let (increment, afterDigit) ← takeIncrement afterFirst
  let (behind, last) := if before.isSome then (none, afterDigit) else takeChomping afterDigit
  return (⟨(before.or behind).getD .clip, increment⟩, last)

/-- Takes the breaks of empty lines and the indentation of the line after them, with bounded
recursion. Also gives the widest indentation, `widest` included. Without a known
`indent` any number of spaces is indentation, and a tab must not be in it. -/
def takeIndentWithin (indent : Option Nat) :
    Nat → Nat → Cursor source → Taking source (List Char × Nat × Cursor source)
  | 0, _, cursor => .error cursor.toPlace
  | fuel + 1, widest, cursor =>
      let spaces := (cursor.rest.takeWhile (· = ' ')).length
      let count := match indent with
        | some column => min spaces (column - cursor.column)
        | none => spaces
      let next := cursor.skip count
      let widest := max widest next.column
      if next.isAt '\t' && indent.all (next.column < ·) then .error next.toPlace
      else if next.isAtBreak then do
        let (first, after) := next.takeBreak
        let (more, result) ← takeIndentWithin indent fuel widest after
        return (first ++ more, result)
      else .ok ([], widest, next)

def takeIndent (indent : Option Nat) (cursor : Cursor source) :
    Taking source (List Char × Nat × Cursor source) :=
  takeIndentWithin indent (cursor.rest.length + 1) 0 cursor

/-- What a folded text holds between two of its lines: the break at the end of the first,
and the breaks of the empty lines. -/
def joinLines (isFolded : Bool) (first more : List Char) : List Char :=
  if isFolded && first = ['\n'] then (if more.isEmpty then [' '] else more) else first ++ more

/-- Takes the lines of a block text, with bounded recursion. `broken` is the break before
the line, `empty` the breaks of empty lines after that, and `afterBlank` says whether the
line before started with a blank. Also gives the breaks at the end, the first apart. -/
def takeBlockLinesWithin (isFolded : Bool) (indent : Nat) :
    Nat → (broken empty : List Char) → Bool → Cursor source →
      Taking source (List Char × List Char × List Char × Cursor source)
  | 0, _, _, _, cursor => .error cursor.toPlace
  | fuel + 1, broken, empty, afterBlank, cursor =>
      if cursor.column = indent && !cursor.isAtEnd then do
        let startsBlank := cursor.isAtBlank
        let start := joinLines (isFolded && !afterBlank && !startsBlank) broken empty
        let (line, atBreak) := cursor.takeWhile fun c => !isBreak c
        let (nextBroken, after) := atBreak.takeBreak
        let (nextEmpty, _, next) ← takeIndent (some indent) after
        let (text, ending) ←
          takeBlockLinesWithin isFolded indent fuel nextBroken nextEmpty startsBlank next
        return (start ++ line ++ text, ending)
      else .ok ([], broken, empty, cursor)

/-- Takes a block text after its indicator. What it belongs to is indented by `base - 1`,
or `base` is zero at the root. -/
def takeBlockText (isFolded : Bool) (base : Nat) (cursor : Cursor source) :
    Taking source (List Char × Cursor source) := do
  let (header, afterHeader) ← takeHeader cursor
  let start ← afterHeader.endLine
  let known := header.increment.map fun increment => base - 1 + increment
  let (empty, widest, first) ← takeIndent known start
  let indent := known.getD (max widest (max base 1))
  let (text, broken, more, next) ←
    takeBlockLinesWithin isFolded indent (first.rest.length + 1) [] empty false first
  let ending := match header.chomping with
    | .clip => broken
    | .strip => []
    | .keep => broken ++ more
  return (text ++ ending, next)

end Phrasebook.Yaml
