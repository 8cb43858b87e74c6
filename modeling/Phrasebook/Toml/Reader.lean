import Phrasebook.Toml.Scalar
import Phrasebook.Toml.Table

/-!
# Reading TOML documents

Each reader takes a text from its front and returns what is left, or nothing when the text
is malformed. Line breaks and a comma after the last member are allowed in inline tables.
Arrays and inline tables may be nested 80 deep.
-/

namespace Phrasebook.Toml

open Text (takeCode?)

/-! ### Blanks, comments and line ends -/

def isBlank (c : Char) : Bool :=
  c = ' ' || c = '\t'

def skipBlanks (text : List Char) : List Char :=
  text.dropWhile isBlank

/-- Whether a character may stand for itself in a comment or a text of one line. -/
def isPlain (c : Char) : Bool :=
  c = '\t' || (0x20 ≤ c.toNat && c.toNat ≠ 0x7F)

def takeBreak? : List Char → Option (List Char)
  | '\n' :: rest => some rest
  | '\r' :: '\n' :: rest => some rest
  | _ => none

/-- The rest after the blanks, comments and line breaks in front, with bounded recursion. -/
def skipLinesWithin : Nat → List Char → List Char
  | 0, text => text
  | fuel + 1, text =>
      let start := match skipBlanks text with
        | '#' :: comment => comment.dropWhile isPlain
        | other => other
      match takeBreak? start with
      | some rest => skipLinesWithin fuel rest
      | none => start

def skipLines (text : List Char) : List Char :=
  skipLinesWithin (text.length + 1) text

/-- The rest after the end of a line, which may have a comment in front of it. -/
def endLine? (text : List Char) : Option (List Char) :=
  let rest := match skipBlanks text with
    | '#' :: comment => comment.dropWhile isPlain
    | other => other
  if rest.isEmpty then some [] else takeBreak? rest

/-! ### Texts -/

/-- The character of an escape after its backslash. -/
def takeEscape? : List Char → Option (Char × List Char)
  | '"' :: rest => some ('"', rest)
  | '\\' :: rest => some ('\\', rest)
  | 'b' :: rest => some (Char.ofNat 8, rest)
  | 't' :: rest => some ('\t', rest)
  | 'n' :: rest => some ('\n', rest)
  | 'f' :: rest => some (Char.ofNat 12, rest)
  | 'r' :: rest => some ('\r', rest)
  | 'e' :: rest => some (Char.ofNat 27, rest)
  | 'x' :: rest => takeCode? 2 rest
  | 'u' :: rest => takeCode? 4 rest
  | 'U' :: rest => takeCode? 8 rest
  | _ => none

/-- Reads a text without escapes after its opening quote. -/
def takeLiteral? : List Char → Option (List Char × List Char)
  | [] => none
  | '\'' :: rest => some ([], rest)
  | c :: rest =>
      if isPlain c then (takeLiteral? rest).map fun (chars, after) => (c :: chars, after) else none

/-- Reads a text with escapes after its opening quote, with bounded recursion. -/
def takeBasicWithin : Nat → List Char → Option (List Char × List Char)
  | 0, _ => none
  | _ + 1, [] => none
  | _ + 1, '"' :: rest => some ([], rest)
  | fuel + 1, '\\' :: rest => do
      let (c, after) ← takeEscape? rest
      let (chars, last) ← takeBasicWithin fuel after
      some (c :: chars, last)
  | fuel + 1, c :: rest =>
      if isPlain c then (takeBasicWithin fuel rest).map fun (chars, after) => (c :: chars, after)
      else none

/-- The rest after the blanks and line breaks in front, with bounded recursion. -/
def skipBreaksWithin : Nat → List Char → List Char
  | 0, text => text
  | fuel + 1, text =>
      let start := skipBlanks text
      match takeBreak? start with
      | some rest => skipBreaksWithin fuel rest
      | none => start

/-- The rest after a break that a backslash hides, with all blanks and breaks behind it. -/
def takeHiddenBreak? (text : List Char) : Option (List Char) :=
  (takeBreak? (skipBlanks text)).map fun rest => skipBreaksWithin (rest.length + 1) rest

/-- Reads a text of several lines after its opening quotes, with bounded recursion. Up to
two quotes may stand right before the closing ones. -/
def takeBlockWithin (quote : Char) (hasEscapes : Bool) : Nat → List Char → Option (List Char × List Char)
  | 0, _ => none
  | fuel + 1, text =>
      let more := fun (kept rest : List Char) =>
        (takeBlockWithin quote hasEscapes fuel rest).map fun (chars, after) => (kept ++ chars, after)
      match text with
      | [] => none
      | '\n' :: rest => more ['\n'] rest
      | '\r' :: '\n' :: rest => more ['\r', '\n'] rest
      | c :: rest =>
          if c = quote then
            let quotes := text.takeWhile (· = quote)
            if quotes.length < 3 then more quotes (text.drop quotes.length)
            else
              let size := min quotes.length 5
              some (List.replicate (size - 3) quote, text.drop size)
          else if c = '\\' ∧ hasEscapes then
            match takeHiddenBreak? rest with
            | some after => more [] after
            | none => do
                let (meant, after) ← takeEscape? rest
                more [meant] after
          else if isPlain c then more [c] rest
          else none

/-- Reads a text of several lines after its opening quotes. A break right behind them does
not count. -/
def takeBlock? (quote : Char) (hasEscapes : Bool) (text : List Char) : Option (List Char × List Char) :=
  takeBlockWithin quote hasEscapes (text.length + 1) ((takeBreak? text).getD text)

/-! ### Keys -/

def isBareKey (c : Char) : Bool :=
  c.isAlphanum || c = '_' || c = '-'

def takeKeyPart? : List Char → Option (String × List Char)
  | '"' :: rest =>
      (takeBasicWithin (rest.length + 1) rest).map fun (chars, after) => (String.ofList chars, after)
  | '\'' :: rest => (takeLiteral? rest).map fun (chars, after) => (String.ofList chars, after)
  | text =>
      let (name, rest) := text.span isBareKey
      if name.isEmpty then none else some (String.ofList name, rest)

def takeKeyWithin : Nat → List Char → Option (Key × List Char)
  | 0, _ => none
  | fuel + 1, text => do
      let (first, rest) ← takeKeyPart? text
      match skipBlanks rest with
      | '.' :: after =>
          let (key, last) ← takeKeyWithin fuel (skipBlanks after)
          some (⟨first :: key.path, key.last⟩, last)
      | after => some (⟨[], first⟩, after)

def takeKey? (text : List Char) : Option (Key × List Char) :=
  takeKeyWithin (text.length + 1) text

/-! ### Values -/

def isScalarEnd (c : Char) : Bool :=
  ['=', ',', '[', ']', '{', '}', ' ', '\t', '#', '\r', '\n'].contains c

/-- Splits a bare scalar off. A time may follow its date behind one space. -/
def takeBare (text : List Char) : List Char × List Char :=
  let (first, rest) := text.span fun c => !isScalarEnd c
  match takeDate? first, rest with
  | some (_, []), ' ' :: c :: after =>
      if c.isDigit then
        let (second, last) := (c :: after).span fun c => !isScalarEnd c
        (first ++ ' ' :: second, last)
      else (first, rest)
  | _, _ => (first, rest)

/-- Reads a value that is neither an array nor an inline table. -/
def takeSimple? : List Char → Option (Value × List Char)
  | '"' :: '"' :: '"' :: rest =>
      (takeBlock? '"' true rest).map fun (chars, after) => (.string (String.ofList chars), after)
  | '\'' :: '\'' :: '\'' :: rest =>
      (takeBlock? '\'' false rest).map fun (chars, after) => (.string (String.ofList chars), after)
  | '"' :: rest =>
      (takeBasicWithin (rest.length + 1) rest).map fun (chars, after) =>
        (.string (String.ofList chars), after)
  | '\'' :: rest => (takeLiteral? rest).map fun (chars, after) => (.string (String.ofList chars), after)
  | text =>
      let (bare, rest) := takeBare text
      (scalar? bare).map fun value => (value, rest)

mutual

/-- Reads a value that may hold `depth` levels of arrays and inline tables, with bounded
recursion. -/
def takeValueWithin : Nat → Nat → List Char → Option (Value × List Char)
  | 0, _, _ => none
  | fuel + 1, depth, text =>
      match text, depth with
      | '[' :: _, 0 => none
      | '{' :: _, 0 => none
      | '[' :: rest, depth + 1 =>
          (takeItemsWithin fuel depth rest).map fun (items, after) => (.sequence items, after)
      | '{' :: rest, depth + 1 =>
          (takeMembersWithin fuel depth [] rest).map fun (table, after) =>
            (.mapping (closeEntries table), after)
      | _, _ => takeSimple? text

/-- Reads the items of an array after its bracket or after a comma. -/
def takeItemsWithin : Nat → Nat → List Char → Option (List Value × List Char)
  | 0, _, _ => none
  | fuel + 1, depth, text =>
      match skipLines text with
      | ']' :: rest => some ([], rest)
      | start =>
          match takeValueWithin fuel depth start with
          | none => none
          | some (item, rest) =>
              match skipLines rest with
              | ']' :: after => some ([item], after)
              | ',' :: after =>
                  (takeItemsWithin fuel depth after).map fun (items, last) => (item :: items, last)
              | _ => none

/-- Reads the members of an inline table after its brace or after a comma, and adds them to
the ones before. -/
def takeMembersWithin : Nat → Nat → Entries Item → List Char → Option (Entries Item × List Char)
  | 0, _, _, _ => none
  | fuel + 1, depth, table, text =>
      match skipLines text with
      | '}' :: rest => some (table, rest)
      | start =>
          match takeKey? start with
          | some (key, '=' :: rest) =>
              match takeValueWithin fuel depth (skipBlanks rest) with
              | none => none
              | some (value, rest) =>
                  match assign key value table, skipLines rest with
                  | some longer, '}' :: after => some (longer, after)
                  | some longer, ',' :: after => takeMembersWithin fuel depth longer after
                  | _, _ => none
          | _ => none

end

/-- How deep arrays and inline tables may be nested. -/
def maxDepth : Nat := 80

/-! ### Lines -/

/-- Reads a header after its first bracket, up to the end of its line. -/
def takeHeader? (text : List Char) : Option (Line × List Char) :=
  match text with
  | '[' :: rest =>
      match takeKey? (skipBlanks rest) with
      | some (key, ']' :: ']' :: after) => (endLine? after).map fun next => (.header true key, next)
      | _ => none
  | rest =>
      match takeKey? (skipBlanks rest) with
      | some (key, ']' :: after) => (endLine? after).map fun next => (.header false key, next)
      | _ => none

def takeAssignment? (text : List Char) : Option (Line × List Char) :=
  match takeKey? text with
  | some (key, '=' :: rest) =>
      match takeValueWithin (2 * text.length + 2) maxDepth (skipBlanks rest) with
      | some (value, after) => (endLine? after).map fun next => (.assignment key value, next)
      | none => none
  | _ => none

/-- Reads the lines of a document, with bounded recursion. -/
def readLinesWithin : Nat → List Char → Option (List Line)
  | 0, _ => none
  | fuel + 1, text =>
      match skipLines text with
      | [] => some []
      | '[' :: rest => do
          let (line, after) ← takeHeader? rest
          (readLinesWithin fuel after).map (line :: ·)
      | start => do
          let (line, after) ← takeAssignment? start
          (readLinesWithin fuel after).map (line :: ·)

/-- A text without the mark of its byte order. -/
def dropMark : List Char → List Char
  | '\uFEFF' :: rest => rest
  | text => text

def readDocument? (text : List Char) : Option (Entries Value) :=
  match readLinesWithin (text.length + 1) (dropMark text) with
  | some lines => documentOf? lines
  | none => none

end Phrasebook.Toml
