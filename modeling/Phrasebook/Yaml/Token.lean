import Phrasebook.Yaml.BlockText
import Phrasebook.Yaml.FlowText

/-!
# Tokens

The tokens of a text, taken from it one by one. Indentation becomes tokens that open and
close blocks. Whether a text is a key shows only when its colon is found, so a token that
may be a key is held back until then; a key has to be on one line, and within 1024
bytes.
-/

namespace Phrasebook.Yaml

inductive Token where
  | streamEnd
  | version (major minor : Nat)
  /-- A tag handle, and what it stands for. -/
  | handle (name meaning : String)
  | documentStart
  | documentEnd
  | sequenceStart
  | mappingStart
  | blockEnd
  | flowSequenceStart
  | flowSequenceEnd
  | flowMappingStart
  | flowMappingEnd
  | flowEntry
  | blockEntry
  | key
  | value
  | alias (name : String)
  | anchor (name : String)
  /-- A tag: its handle, and what comes after. -/
  | tag (handle suffix : String)
  | scalar (isPlain : Bool) (text : String)
deriving DecidableEq, Repr, Inhabited

structure PlacedToken (source : List Char) where
  token : Token
  place : Place source

/-- A token that may turn out to be a key. -/
structure Candidate (source : List Char) where
  /-- The number of the token. -/
  number : Nat
  /-- Whether nothing but a key may stand there. -/
  isRequired : Bool
  start : Cursor source

/-- A text of which the tokens have been taken up to some place. -/
structure Tokens (source : List Char) where
  cursor : Cursor source
  /-- The tokens found so far that have not been taken. -/
  queue : List (PlacedToken source) := []
  /-- How many tokens have been taken. -/
  taken : Nat := 0
  /-- The columns of the open blocks, from the innermost on. -/
  blocks : List Nat := []
  /-- The candidates of the open brackets, from the innermost on. -/
  outer : List (Option (Candidate source)) := []
  candidate : Option (Candidate source) := none
  /-- Whether a key may start here. -/
  allowsKey : Bool := true

variable {source : List Char}

namespace Tokens

def start (source : List Char) : Tokens source where
  cursor := { toPlace := Place.start source }

def inFlow (tokens : Tokens source) : Bool :=
  !tokens.outer.isEmpty

/-- The least column of what belongs to the innermost block. -/
def base (tokens : Tokens source) : Nat :=
  match tokens.blocks with
  | [] => 0
  | column :: _ => column + 1

def place (tokens : Tokens source) : Place source :=
  tokens.cursor.toPlace

/-- Adds a token that starts at the cursor, and goes on from another one. -/
def push (token : Token) (cursor : Cursor source) (tokens : Tokens source) : Tokens source :=
  { tokens with queue := tokens.queue ++ [⟨token, tokens.place⟩], cursor := cursor }

/-- Adds a token of a few characters. -/
def pushSign (token : Token) (size : Nat) (tokens : Tokens source) : Tokens source :=
  tokens.push token (tokens.cursor.skip size)

/-- Adds a token in front of the one with a number. -/
def insertAt (number : Nat) (token : PlacedToken source) (tokens : Tokens source) : Tokens source :=
  let front := number - tokens.taken
  { tokens with queue := tokens.queue.take front ++ token :: tokens.queue.drop front }

/-! ### Candidates for keys -/

/-- Gives the innermost candidate up, unless it is required. -/
def dropCandidate (tokens : Tokens source) : Taking source (Tokens source) :=
  if tokens.candidate.any Candidate.isRequired then .error tokens.place
  else .ok { tokens with candidate := none }

/-- Makes the next token a candidate, where a key may start. -/
def markCandidate (tokens : Tokens source) : Taking source (Tokens source) :=
  if !tokens.allowsKey then .ok tokens
  else
    let cursor := tokens.cursor
    tokens.dropCandidate.map fun tokens =>
      { tokens with
        candidate := some
          { number := tokens.taken + tokens.queue.length
            isRequired := !tokens.inFlow && tokens.blocks.head? = some cursor.column
            start := cursor } }

/-- Whether a candidate is too far back to be a key. -/
def Candidate.isStale (candidate : Candidate source) (cursor : Cursor source) : Bool :=
  candidate.start.line < cursor.line || candidate.start.offset + 1024 < cursor.offset

/-- Gives the candidates up that are too far back, unless one of them is required. -/
def dropStale (tokens : Tokens source) : Taking source (Tokens source) :=
  let isStale := fun (candidate : Option (Candidate source)) =>
    candidate.any (Candidate.isStale · tokens.cursor)
  let isLost := fun (candidate : Option (Candidate source)) =>
    isStale candidate && candidate.any Candidate.isRequired
  let keep := fun (candidate : Option (Candidate source)) =>
    if isStale candidate then none else candidate
  if isLost tokens.candidate || tokens.outer.any isLost then .error tokens.place
  else .ok { tokens with candidate := keep tokens.candidate, outer := tokens.outer.map keep }

/-! ### Indentation -/

/-- Closes the blocks that are indented to a column or more. -/
def closeBlocks (column : Nat) (tokens : Tokens source) : Tokens source :=
  if tokens.inFlow then tokens
  else
    let closed := tokens.blocks.takeWhile (column ≤ ·)
    { tokens with
      queue := tokens.queue ++ closed.map fun _ => ⟨.blockEnd, tokens.place⟩
      blocks := tokens.blocks.drop closed.length }

/-- Whether a column is to the right of the innermost block. -/
def isDeeper (column : Nat) (tokens : Tokens source) : Bool :=
  !tokens.inFlow && tokens.blocks.head?.all (· < column)

/-- Opens a block at the cursor, if it stands to the right of the innermost one. -/
def openBlock (token : Token) (tokens : Tokens source) : Tokens source :=
  let column := tokens.cursor.column
  if tokens.isDeeper column then
    { tokens with
      blocks := column :: tokens.blocks
      queue := tokens.queue ++ [⟨token, tokens.place⟩] }
  else tokens

/-- Goes on behind blanks, comments and line breaks, with bounded recursion. Outside of
brackets a key may start on a new line, and tabs cannot indent one. -/
def skipGapWithin : Nat → Tokens source → Tokens source
  | 0, tokens => tokens
  | fuel + 1, tokens =>
      let allowsTab := tokens.inFlow || !tokens.allowsKey
      let afterBlanks :=
        tokens.cursor.skipMark.skipWhile fun c => c = ' ' || (allowsTab && c = '\t')
      let atBreak :=
        if afterBlanks.isAt '#' then afterBlanks.skipWhile fun c => !isBreak c else afterBlanks
      if atBreak.isAtBreak then
        skipGapWithin fuel
          { tokens with
            cursor := atBreak.skipBreak
            allowsKey := tokens.allowsKey || !tokens.inFlow }
      else { tokens with cursor := atBreak }

/-! ### Single tokens -/

def maxVersionDigits : Nat := 9

def takeVersionNumber (cursor : Cursor source) : Taking source (Nat × Cursor source) :=
  let (digits, next) := cursor.takeWhile Char.isDigit
  if digits.isEmpty then .error cursor.toPlace
  else if maxVersionDigits < digits.length then .error (cursor.skip maxVersionDigits).toPlace
  else .ok (digits.foldl (fun value c => 10 * value + (c.toNat - 48)) 0, next)

/-- Whether a character may stand in a tag. Brackets and commas may only stand in tags
that are written out or declared. -/
def isTagChar (isFull : Bool) (c : Char) : Bool :=
  isWord c || [';', '/', '?', ':', '@', '&', '=', '+', '$', '.', '!', '~', '*', '\'', '(', ')'].contains c ||
    (isFull && [',', '[', ']'].contains c)

/-- The byte of an escape: a percent sign and two hexadecimal digits. -/
def escapedByte? : List Char → Option Nat
  | '%' :: first :: second :: _ => (Text.takeHex? 2 0 [first, second]).map Prod.fst
  | _ => none

/-- How many bytes follow the first one of a character. -/
def furtherBytes? (first : Nat) : Option Nat :=
  if first < 0x80 then some 0
  else if 0xC0 ≤ first ∧ first < 0xE0 then some 1
  else if 0xE0 ≤ first ∧ first < 0xF0 then some 2
  else if 0xF0 ≤ first ∧ first < 0xF8 then some 3
  else none

/-- Takes a number of escaped bytes that are not the first of a character. -/
def takeFurtherBytes : Nat → Cursor source → Taking source (List Nat × Cursor source)
  | 0, cursor => .ok ([], cursor)
  | count + 1, cursor =>
      match escapedByte? cursor.rest with
      | some byte =>
          if 0x80 ≤ byte ∧ byte < 0xC0 then do
            let (others, last) ← takeFurtherBytes count (cursor.skip 3)
            return (byte :: others, last)
          else .error cursor.toPlace
      | none => .error cursor.toPlace

/-- Takes a character all bytes of which are escaped. -/
def takeEscapedChar (cursor : Cursor source) : Taking source (List Char × Cursor source) :=
  match escapedByte? cursor.rest with
  | none => .error cursor.toPlace
  | some first =>
      match furtherBytes? first with
      | none => .error cursor.toPlace
      | some count => do
          let (others, last) ← takeFurtherBytes count (cursor.skip 3)
          match String.fromUTF8? ⟨((first :: others).map UInt8.ofNat).toArray⟩ with
          | some decoded => return (decoded.toList, last)
          | none => .error cursor.toPlace

/-- Takes the characters of a tag, with bounded recursion. Escaped bytes must be UTF-8. -/
def takeTagCharsWithin (isFull : Bool) :
    Nat → Cursor source → Taking source (List Char × Cursor source)
  | 0, cursor => .error cursor.toPlace
  | fuel + 1, cursor =>
      let (plain, next) := cursor.takeWhile (isTagChar isFull)
      if next.isAt '%' then do
        let (decoded, afterChar) ← takeEscapedChar next
        let (more, last) ← takeTagCharsWithin isFull fuel afterChar
        return (plain ++ decoded ++ more, last)
      else .ok (plain, next)

/-- Takes the characters of a tag; `isEmptyAllowed` says whether there may be none. -/
def takeTagChars (isFull isEmptyAllowed : Bool) (cursor : Cursor source) :
    Taking source (List Char × Cursor source) := do
  let (chars, next) ← takeTagCharsWithin isFull (cursor.rest.length + 1) cursor
  if chars.isEmpty && !isEmptyAllowed then .error next.toPlace else return (chars, next)

/-- Takes a tag handle: an exclamation mark, or a name between two of them. The second one
is missing from the front of a tag without a handle of its own. -/
def takeHandle (cursor : Cursor source) : Taking source (List Char × Cursor source) :=
  if !cursor.isAt '!' then .error cursor.toPlace
  else
    let (name, next) := (cursor.skip 1).takeWhile isWord
    if next.isAt '!' then .ok ('!' :: name ++ ['!'], next.skip 1) else .ok ('!' :: name, next)

/-- Whether a handle has a name between two exclamation marks, which may be empty. -/
def isNamedHandle (handle : List Char) : Bool :=
  2 ≤ handle.length && handle.getLast? = some '!'

/-- Takes the directive that declares a tag handle, after its name. -/
def takeHandleDirective (cursor : Cursor source) : Taking source (Token × Cursor source) := do
  let (handle, next) ← takeHandle cursor.skipBlanks
  if handle ≠ ['!'] ∧ !isNamedHandle handle then .error next.toPlace
  if !next.isAtBlank then .error next.toPlace
  let (meaning, last) ← takeTagChars true false next.skipBlanks
  if !last.isAtGap then .error last.toPlace
  return (.handle (String.ofList handle) (String.ofList meaning), last)

def takeVersionDirective (cursor : Cursor source) : Taking source (Token × Cursor source) := do
  let (major, next) ← takeVersionNumber cursor.skipBlanks
  if !next.isAt '.' then .error next.toPlace
  let (minor, last) ← takeVersionNumber (next.skip 1)
  return (.version major minor, last)

def takeDirective (cursor : Cursor source) : Taking source (Token × Cursor source) := do
  let (name, next) := (cursor.skip 1).takeWhile isWord
  if !next.isAtGap then .error next.toPlace
  let (token, last) ←
    if name = "YAML".toList then takeVersionDirective next
    else if name = "TAG".toList then takeHandleDirective next
    else .error next.toPlace
  return (token, ← last.endLine)

/-- Takes the name of an anchor or alias after its sign. -/
def takeName (cursor : Cursor source) : Taking source (String × Cursor source) :=
  let (name, next) := cursor.takeWhile isWord
  let ends := next.isAtGap || ['?', ':', ',', ']', '}', '%', '@', '`'].any next.isAt
  if name.isEmpty || !ends then .error next.toPlace else .ok (String.ofList name, next)

/-- Takes a tag: written out between angle brackets, or by a handle and a suffix. A single
exclamation mark is a tag without a handle. -/
def takeTag (inFlow : Bool) (cursor : Cursor source) : Taking source (Token × Cursor source) := do
  let (token, next) : Token × Cursor source ←
    if (cursor.skip 1).isAt '<' then do
      let (suffix, next) ← takeTagChars true false (cursor.skip 2)
      if next.isAt '>' then pure (.tag "" (String.ofList suffix), next.skip 1)
      else .error next.toPlace
    else do
      let (handle, next) ← takeHandle cursor
      if isNamedHandle handle then
        let (suffix, last) ← takeTagChars false false next
        pure (.tag (String.ofList handle) (String.ofList suffix), last)
      else
        let (more, last) ← takeTagChars false true next
        let suffix := handle.drop 1 ++ more
        if suffix.isEmpty then pure (.tag "" "!", last)
        else pure (.tag "!" (String.ofList suffix), last)
  if next.isAtGap || (inFlow && next.isAt ',') then return (token, next) else .error next.toPlace

/-! ### Finding the next token -/

def findEnd (tokens : Tokens source) : Taking source (Tokens source) :=
  let cursor := tokens.cursor
  let atLineStart :=
    if cursor.column = 0 then cursor else { cursor with line := cursor.line + 1, column := 0 }
  (closeBlocks 0 { tokens with cursor := atLineStart }).dropCandidate.map fun tokens =>
    push .streamEnd tokens.cursor { tokens with allowsKey := false }

/-- A token that stands between documents. -/
def findMarker (take : Cursor source → Taking source (Token × Cursor source))
    (tokens : Tokens source) : Taking source (Tokens source) := do
  let free ← (tokens.closeBlocks 0).dropCandidate
  let (token, next) ← take tokens.cursor
  return push token next { free with allowsKey := false }

def findFlowStart (token : Token) (tokens : Tokens source) : Taking source (Tokens source) :=
  tokens.markCandidate.map fun tokens =>
    pushSign token 1
      { tokens with
        outer := tokens.candidate :: tokens.outer
        candidate := none
        allowsKey := true }

def findFlowEnd (token : Token) (tokens : Tokens source) : Taking source (Tokens source) :=
  tokens.dropCandidate.map fun tokens =>
    let (candidate, outer) := match tokens.outer with
      | [] => (none, [])
      | candidate :: outer => (candidate, outer)
    pushSign token 1 { tokens with candidate := candidate, outer := outer, allowsKey := false }

def findFlowEntry (tokens : Tokens source) : Taking source (Tokens source) :=
  tokens.dropCandidate.map fun tokens => pushSign .flowEntry 1 { tokens with allowsKey := true }

def findBlockEntry (tokens : Tokens source) : Taking source (Tokens source) :=
  if !tokens.inFlow && !tokens.allowsKey then .error tokens.place
  else
    (tokens.openBlock .sequenceStart).dropCandidate.map fun tokens =>
      pushSign .blockEntry 1 { tokens with allowsKey := true }

def findKey (tokens : Tokens source) : Taking source (Tokens source) :=
  if !tokens.inFlow && !tokens.allowsKey then .error tokens.place
  else
    (tokens.openBlock .mappingStart).dropCandidate.map fun tokens =>
      pushSign .key 1 { tokens with allowsKey := !tokens.inFlow }

/-- A colon makes the candidate a key, or gives a value to a key that was marked or left
out. -/
def findValue (tokens : Tokens source) : Taking source (Tokens source) :=
  match tokens.candidate with
  | some candidate =>
      let marked := tokens.insertAt candidate.number ⟨.key, candidate.start.toPlace⟩
      let opened :=
        if tokens.isDeeper candidate.start.column then
          { marked.insertAt candidate.number ⟨.mappingStart, candidate.start.toPlace⟩ with
            blocks := candidate.start.column :: tokens.blocks }
        else marked
      .ok (pushSign .value 1 { opened with candidate := none, allowsKey := false })
  | none =>
      if tokens.inFlow then .ok (pushSign .value 1 { tokens with allowsKey := false })
      else if tokens.allowsKey then
        .ok (pushSign .value 1 { tokens.openBlock .mappingStart with allowsKey := true })
      else .error tokens.place

/-- A token that may be a key. -/
def findCandidate (take : Cursor source → Taking source (Token × Cursor source))
    (tokens : Tokens source) : Taking source (Tokens source) := do
  let marked ← tokens.markCandidate
  let (token, next) ← take tokens.cursor
  return push token next { marked with allowsKey := false }

def findBlockText (isFolded : Bool) (tokens : Tokens source) : Taking source (Tokens source) := do
  let free ← tokens.dropCandidate
  let (text, next) ← takeBlockText isFolded tokens.base (tokens.cursor.skip 1)
  return push (.scalar false (String.ofList text)) next { free with allowsKey := true }

def findQuoted (isDouble : Bool) (tokens : Tokens source) : Taking source (Tokens source) :=
  tokens.findCandidate fun cursor =>
    (takeQuoted isDouble (cursor.skip 1)).map fun (text, next) =>
      (.scalar false (String.ofList text), next)

def findPlain (tokens : Tokens source) : Taking source (Tokens source) := do
  let marked ← tokens.markCandidate
  let plain ← takePlain tokens.inFlow tokens.base tokens.cursor
  return push (.scalar true (String.ofList plain.text)) plain.next
    { marked with allowsKey := plain.afterBreak }

/-- The characters that start no plain text. -/
def isIndicator (c : Char) : Bool :=
  ['-', '?', ':', ',', '[', ']', '{', '}', '#', '&', '*', '!', '|', '>', '\'', '"', '%', '@', '`'].contains c

def findHere (tokens : Tokens source) : Taking source (Tokens source) :=
  let cursor := tokens.cursor
  let inFlow := tokens.inFlow
  match cursor.rest with
  | [] => tokens.findEnd
  | c :: rest =>
      let isAlone := isGapAhead rest
      if c = '%' ∧ cursor.column = 0 then tokens.findMarker takeDirective
      else if cursor.isAtMarker '-' then
        tokens.findMarker fun cursor => .ok (.documentStart, cursor.skip 3)
      else if cursor.isAtMarker '.' then
        tokens.findMarker fun cursor => .ok (.documentEnd, cursor.skip 3)
      else if c = '[' then tokens.findFlowStart .flowSequenceStart
      else if c = '{' then tokens.findFlowStart .flowMappingStart
      else if c = ']' then tokens.findFlowEnd .flowSequenceEnd
      else if c = '}' then tokens.findFlowEnd .flowMappingEnd
      else if c = ',' then tokens.findFlowEntry
      else if c = '-' ∧ isAlone then tokens.findBlockEntry
      else if c = '?' ∧ (inFlow ∨ isAlone) then tokens.findKey
      else if c = ':' ∧ (inFlow ∨ isAlone) then tokens.findValue
      else if c = '*' then
        tokens.findCandidate fun cursor =>
          (takeName (cursor.skip 1)).map fun (name, next) => (.alias name, next)
      else if c = '&' then
        tokens.findCandidate fun cursor =>
          (takeName (cursor.skip 1)).map fun (name, next) => (.anchor name, next)
      else if c = '!' then tokens.findCandidate (takeTag inFlow)
      else if c = '|' ∧ !inFlow then tokens.findBlockText false
      else if c = '>' ∧ !inFlow then tokens.findBlockText true
      else if c = '\'' then tokens.findQuoted false
      else if c = '"' then tokens.findQuoted true
      else if !(isBlank c || isIndicator c) || (c = '-' && !rest.head?.any isBlank) ||
          (!inFlow && (c = '?' || c = ':')) then tokens.findPlain
      else .error cursor.toPlace

/-- Finds the next token, and the ends of blocks in front of it. -/
def find (tokens : Tokens source) : Taking source (Tokens source) := do
  let atToken ← (tokens.skipGapWithin (tokens.cursor.rest.length + 1)).dropStale
  (atToken.closeBlocks (atToken.cursor.column + 1)).findHere

/-- Whether the first token in the queue may still turn out to be a key. -/
def isHeadOpen (tokens : Tokens source) : Bool :=
  (tokens.candidate :: tokens.outer).any fun candidate =>
    candidate.any fun candidate => candidate.number = tokens.taken

/-- Finds tokens until the first one is certain, with bounded recursion. -/
def settleWithin : Nat → Tokens source → Taking source (Tokens source)
  | 0, tokens => .error tokens.place
  | fuel + 1, tokens => do
      if tokens.queue.isEmpty then settleWithin fuel (← tokens.find)
      else
        let fresh ← tokens.dropStale
        if fresh.isHeadOpen then settleWithin fuel (← fresh.find) else return fresh

/-- The next token, and the tokens from it on. -/
def peek (tokens : Tokens source) : Taking source (PlacedToken source × Tokens source) := do
  let settled ← settleWithin (2 * tokens.cursor.rest.length + 4) tokens
  match settled.queue with
  | next :: _ => return (next, settled)
  | [] => .error settled.place

def drop (tokens : Tokens source) : Tokens source :=
  { tokens with queue := tokens.queue.drop 1, taken := tokens.taken + 1 }

end Tokens

end Phrasebook.Yaml
