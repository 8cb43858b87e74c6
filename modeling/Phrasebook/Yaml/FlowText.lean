import Phrasebook.Text.Hex
import Phrasebook.Yaml.Cursor

/-!
# Plain and quoted texts

Texts that may go over several lines. A single line break stands for a space, and empty
lines stand for themselves. In double quotes a backslash starts an escape, or hides the
break behind it; in single quotes a quote is written twice.
-/

namespace Phrasebook.Yaml

open Text (takeCode?)

variable {source : List Char}

/-- What a line break and the breaks of the empty lines after it stand for. -/
def foldBreaks (first more : List Char) : List Char :=
  if first = ['\n'] then (if more.isEmpty then [' '] else more) else first ++ more

/-- Takes the breaks of empty lines and the blanks of the line after them, with bounded
recursion. A tab must not stand in front of a column. -/
def takeEmptyLinesWithin (column : Nat) :
    Nat → Cursor source → Taking source (List Char × Cursor source)
  | 0, cursor => .error cursor.toPlace
  | fuel + 1, cursor =>
      if cursor.isAtBlank then
        if cursor.isAt '\t' && cursor.column < column then .error cursor.toPlace
        else takeEmptyLinesWithin column fuel (cursor.skip 1)
      else if cursor.isAtBreak then do
        let (first, next) := cursor.takeBreak
        let (more, last) ← takeEmptyLinesWithin column fuel next
        return (first ++ more, last)
      else .ok ([], cursor)

/-- A run of blanks and breaks inside a text. -/
structure Gap (source : List Char) where
  /-- What the run stands for. -/
  text : List Char
  hasBreak : Bool
  next : Cursor source

def takeGap (column : Nat) (cursor : Cursor source) : Taking source (Gap source) :=
  let (blanks, atEnd) := cursor.takeWhile isBlank
  if atEnd.isAtBreak then do
    let (first, next) := atEnd.takeBreak
    let (more, last) ← takeEmptyLinesWithin column (next.rest.length + 1) next
    return ⟨foldBreaks first more, true, last⟩
  else .ok ⟨blanks, false, atEnd⟩

/-! ### Quoted texts -/

/-- The character that a short escape stands for. -/
def unescape? : Char → Option Char
  | '0' => some (Char.ofNat 0)
  | 'a' => some (Char.ofNat 7)
  | 'b' => some (Char.ofNat 8)
  | 't' => some '\t'
  | '\t' => some '\t'
  | 'n' => some '\n'
  | 'v' => some (Char.ofNat 11)
  | 'f' => some (Char.ofNat 12)
  | 'r' => some '\r'
  | 'e' => some (Char.ofNat 27)
  | ' ' => some ' '
  | '"' => some '"'
  | '/' => some '/'
  | '\\' => some '\\'
  | 'N' => some '\u0085'
  | '_' => some '\u00A0'
  | 'L' => some '\u2028'
  | 'P' => some '\u2029'
  | _ => none

/-- Takes an escape from its backslash on. An unknown one is at fault as a whole, a code
from its first digit on. -/
def takeEscape (cursor : Cursor source) : Taking source (Char × Cursor source) :=
  let letter := cursor.skip 1
  let code := fun count =>
    let digits := letter.skip 1
    match takeCode? count digits.rest with
    | some (c, _) => .ok (c, digits.skip count)
    | none => .error digits.toPlace
  match letter.rest with
  | 'x' :: _ => code 2
  | 'u' :: _ => code 4
  | 'U' :: _ => code 8
  | c :: _ =>
      match unescape? c with
      | some meant => .ok (meant, letter.skip 1)
      | none => .error cursor.toPlace
  | [] => .error cursor.toPlace

/-- Takes a quoted text after its opening quote, with bounded recursion. -/
def takeQuotedWithin (isDouble : Bool) :
    Nat → Cursor source → Taking source (List Char × Cursor source)
  | 0, cursor => .error cursor.toPlace
  | fuel + 1, cursor =>
      let more := fun (kept : List Char) (next : Cursor source) => do
        let (chars, last) ← takeQuotedWithin isDouble fuel next
        return (kept ++ chars, last)
      if cursor.isAtAnyMarker then .error cursor.toPlace
      else if cursor.isAtBlank || cursor.isAtBreak then do
        let gap ← takeGap 0 cursor
        more gap.text gap.next
      else match cursor.rest with
        | [] => .error cursor.toPlace
        | '\'' :: '\'' :: _ =>
            if isDouble then more ['\''] (cursor.skip 1) else more ['\''] (cursor.skip 2)
        | c :: rest =>
            if c = (if isDouble then '"' else '\'') then .ok ([], cursor.skip 1)
            else if c = '\\' ∧ isDouble then
              if rest.head?.any isBreak then do
                let (breaks, last) ←
                  takeEmptyLinesWithin 0 (rest.length + 1) (cursor.skip 1).skipBreak
                more breaks last
              else do
                let (meant, last) ← takeEscape cursor
                more [meant] last
            else more [c] (cursor.skip 1)

def takeQuoted (isDouble : Bool) (cursor : Cursor source) :
    Taking source (List Char × Cursor source) :=
  takeQuotedWithin isDouble (cursor.rest.length + 1) cursor

/-! ### Plain texts -/

/-- The brackets and the comma, which end a plain text inside of brackets. -/
def isBracket (c : Char) : Bool :=
  c = ',' || c = '[' || c = ']' || c = '{' || c = '}'

/-- Whether a text starts with a colon that no plain text may have: inside of brackets, and
right before an indicator. -/
def isStrayColon (inFlow : Bool) (text : List Char) : Bool :=
  inFlow && text.head? = some ':' &&
    (text.drop 1).head?.any fun next => isBracket next || next = '?'

/-- The characters of a plain text up to a blank, a break, an indicator, or a stray colon. -/
def plainRun (inFlow : Bool) : List Char → List Char
  | [] => []
  | c :: rest =>
      if isBlank c || isBreak c || isStrayColon inFlow (c :: rest) ||
          (c = ':' && isGapAhead rest) || (inFlow && isBracket c) then []
      else c :: plainRun inFlow rest

/-- A plain text, where it ends, and whether a line break stands right before that. -/
structure Plain (source : List Char) where
  text : List Char
  next : Cursor source
  afterBreak : Bool

/-- Takes a plain text that goes on after a gap, with bounded recursion. Outside of
brackets its lines have to be indented to `column`. -/
def takePlainWithin (inFlow : Bool) (column : Nat) :
    Nat → List Char → Bool → Cursor source → Taking source (Plain source)
  | 0, _, _, cursor => .error cursor.toPlace
  | fuel + 1, gap, afterBreak, cursor =>
      if cursor.isAtAnyMarker || cursor.isAt '#' then .ok ⟨[], cursor, afterBreak⟩
      else
        let run := plainRun inFlow cursor.rest
        let stop := cursor.skip run.length
        if isStrayColon inFlow stop.rest then .error stop.toPlace
        else if run.isEmpty then .ok ⟨[], cursor, afterBreak⟩
        else if !(stop.isAtBlank || stop.isAtBreak) then .ok ⟨gap ++ run, stop, false⟩
        else do
          let found ← takeGap column stop
          if !inFlow && found.next.column < column then
            return ⟨gap ++ run, found.next, found.hasBreak⟩
          let more ← takePlainWithin inFlow column fuel found.text found.hasBreak found.next
          return { more with text := gap ++ run ++ more.text }

def takePlain (inFlow : Bool) (column : Nat) (cursor : Cursor source) :
    Taking source (Plain source) :=
  takePlainWithin inFlow column (cursor.rest.length + 1) [] false cursor

end Phrasebook.Yaml
