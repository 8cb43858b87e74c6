import Phrasebook.Text.Span

/-!
# Places in a text

A place is told by the number of bytes before it. A text can only be cut between two of its
characters, and a place comes with what is left of the text there. Layout depends on lines
and columns, which a cursor adds. Every reader of this folder takes a cursor and returns the
one after what it read, or the place where the text turned out to be malformed.
-/

namespace Phrasebook.Yaml

def isBlank (c : Char) : Bool :=
  c = ' ' || c = '\t'

def isBreak (c : Char) : Bool :=
  c = '\n' || c = '\r' || c = '\u0085' || c = '\u2028' || c = '\u2029'

/-- Whether a text ends here, or its next character is a blank or a line break. -/
def isGapAhead : List Char → Bool
  | [] => true
  | c :: _ => isBlank c || isBreak c

/-- The characters of names: of anchors, directives and tag handles. -/
def isWord (c : Char) : Bool :=
  c.isAlphanum || c = '_' || c = '-'

/-- Whether a text may hold a character at all. -/
def isAllowed (c : Char) : Bool :=
  c = '\t' || c = '\n' || c = '\r' || c = '\u0085' ||
    (0x20 ≤ c.toNat && c.toNat ≤ 0x7E) || (0xA0 ≤ c.toNat && c.toNat ≤ 0xFFFD) ||
    0x10000 ≤ c.toNat

/-- A place where a text can be cut. -/
structure Place (source : List Char) where
  /-- The number of bytes before the place. -/
  offset : Nat
  rest : List Char
  cut : Text.dropBytes? offset source = some rest

/-- A place, and where it is among the lines. -/
structure Cursor (source : List Char) extends Place source where
  line : Nat := 0
  column : Nat := 0

/-- What is taken from a text, or the place where that turns out to be malformed. -/
abbrev Taking (source : List Char) := Except (Place source)

variable {source : List Char}

namespace Place

def start (source : List Char) : Place source :=
  ⟨0, source, Text.dropBytes?_append [] source⟩

/-- The place after `count` characters. -/
def skip (place : Place source) (count : Nat) : Place source where
  offset := place.offset + Text.byteSize (place.rest.take count)
  rest := place.rest.drop count
  cut := Text.dropBytes?_drop place.cut count

end Place

namespace Cursor

def isAt (cursor : Cursor source) (c : Char) : Bool :=
  cursor.rest.head? = some c

def isAtBlank (cursor : Cursor source) : Bool :=
  cursor.rest.head?.any isBlank

def isAtBreak (cursor : Cursor source) : Bool :=
  cursor.rest.head?.any isBreak

def isAtEnd (cursor : Cursor source) : Bool :=
  cursor.rest.isEmpty

def isAtGap (cursor : Cursor source) : Bool :=
  isGapAhead cursor.rest

/-- Whether a marker between documents stands here. -/
def isAtMarker (cursor : Cursor source) (c : Char) : Bool :=
  cursor.column = 0 && cursor.rest.take 3 = [c, c, c] && isGapAhead (cursor.rest.drop 3)

def isAtAnyMarker (cursor : Cursor source) : Bool :=
  cursor.isAtMarker '-' || cursor.isAtMarker '.'

/-- The cursor after `count` characters of the same line. -/
def skip (cursor : Cursor source) (count : Nat) : Cursor source :=
  { cursor with toPlace := cursor.toPlace.skip count, column := cursor.column + count }

/-- The characters in front that satisfy a condition, and the cursor after them. The
condition must not hold of a line break. -/
def takeWhile (cursor : Cursor source) (holds : Char → Bool) : List Char × Cursor source :=
  let taken := cursor.rest.takeWhile holds
  (taken, cursor.skip taken.length)

def skipWhile (cursor : Cursor source) (holds : Char → Bool) : Cursor source :=
  (cursor.takeWhile holds).2

def skipBlanks (cursor : Cursor source) : Cursor source :=
  cursor.skipWhile isBlank

/-- The cursor after a mark of the byte order, which a line may start with. -/
def skipMark (cursor : Cursor source) : Cursor source :=
  if cursor.column = 0 && cursor.isAt '\uFEFF' then cursor.skip 1 else cursor

/-- Takes a line break, if there is one, as what it means in a text: most breaks are line
feeds, and the two separators stand for themselves. -/
def takeBreak (cursor : Cursor source) : List Char × Cursor source :=
  let next := fun count =>
    { toPlace := cursor.toPlace.skip count, line := cursor.line + 1 : Cursor source }
  match cursor.rest with
  | '\r' :: '\n' :: _ => (['\n'], next 2)
  | c :: _ =>
      if c = '\u2028' ∨ c = '\u2029' then ([c], next 1)
      else if isBreak c then (['\n'], next 1)
      else ([], cursor)
  | [] => ([], cursor)

def skipBreak (cursor : Cursor source) : Cursor source :=
  cursor.takeBreak.2

/-- The cursor after the rest of a line: blanks, a comment, and the break. -/
def endLine (cursor : Cursor source) : Taking source (Cursor source) :=
  let afterBlanks := cursor.skipBlanks
  let atBreak :=
    if afterBlanks.isAt '#' then afterBlanks.skipWhile fun c => !isBreak c else afterBlanks
  if atBreak.isAtEnd || atBreak.isAtBreak then .ok atBreak.skipBreak else .error atBreak.toPlace

end Cursor

end Phrasebook.Yaml
