import Phrasebook.Entries
import Phrasebook.Yaml.Token

/-!
# Events

A document written down in a row: one event for a scalar or an alias, and one for either end
of a collection. What scalars mean and what aliases stand for is not judged yet. Where a node
is missing an empty plain scalar stands for it. The events before a place where the text turns
out to be malformed are kept, since what they mean may be at fault before that.
-/

namespace Phrasebook.Yaml

/-- A part of a document. An alias gives the number of an anchor. -/
inductive Event where
  | scalar (tag : Option String) (isPlain : Bool) (text : String)
  | alias (number : Nat)
  | sequenceStart (tag : Option String)
  | sequenceEnd
  | mappingStart (tag : Option String)
  | mappingEnd
deriving DecidableEq, Repr

structure PlacedEvent (source : List Char) where
  event : Event
  place : Place source

abbrev Events (source : List Char) := List (PlacedEvent source)

/-- The place in a text, and what its events so far have declared. -/
structure ReadingState (source : List Char) where
  tokens : Tokens source
  /-- What the tag handles stand for. -/
  handles : List (String × String) := []
  /-- The events so far, from the last one on. -/
  events : Events source := []
  /-- The numbers of the anchors. A new one has the number of different names before it. -/
  names : Entries Nat := []
  /-- How many events there are before the node of an anchor, by its number, the latest
  anchor first. -/
  targets : List (Nat × Nat) := []

/-- Reading goes on up to a fault, and keeps the events before it. -/
abbrev Reading (source : List Char) := ExceptT (Place source) (StateM (ReadingState source))

variable {source : List Char}

namespace Reading

def peek : Reading source (PlacedToken source) := do
  let state ← get
  match state.tokens.peek with
  | .ok (next, tokens) =>
      set { state with tokens := tokens }
      return next
  | .error fault => throw fault

/-- Goes on behind a token that has been looked at. -/
def drop : Reading source Unit :=
  modify fun state => { state with tokens := state.tokens.drop }

/-- Goes on behind a token, and looks at the one after it. -/
def dropAndPeek : Reading source (PlacedToken source) := do
  drop
  peek

def refuse {α : Type} (token : PlacedToken source) : Reading source α :=
  throw token.place

/-- Writes down an event that starts where a token does. -/
def emit (token : PlacedToken source) (event : Event) : Reading source Unit :=
  modify fun state => { state with events := ⟨event, token.place⟩ :: state.events }

/-- Writes down a node that is missing in front of a token. -/
def emitMissing (token : PlacedToken source) : Reading source Unit :=
  emit token (.scalar none true "")

def declare (name : String) : Reading source Unit :=
  modify fun state =>
    let number := state.names.length
    { state with
      names := state.names.put name number
      targets := (number, state.events.length) :: state.targets }

/-- Writes down the alias of a name, which must have been declared. -/
def emitAlias (token : PlacedToken source) (name : String) : Reading source Unit := do
  match (← get).names.lookup name with
  | some number => emit token (.alias number)
  | none => refuse token

def fullTag (token : PlacedToken source) (handle suffix : String) : Reading source String := do
  if handle.isEmpty then return suffix
  match (← get).handles.lookup handle with
  | some meaning => return meaning ++ suffix
  | none => refuse token

/-- The anchor and the tag of a node, which may come in either order, and the token behind
them. -/
def properties (first : PlacedToken source) :
    Reading source (Option String × Option String × PlacedToken source) := do
  match first.token with
  | .anchor name =>
      let second ← dropAndPeek
      match second.token with
      | .tag handle suffix =>
          let behind ← dropAndPeek
          return (some name, some (← fullTag second handle suffix), behind)
      | _ => return (some name, none, second)
  | .tag handle suffix =>
      let second ← dropAndPeek
      match second.token with
      | .anchor name =>
          let behind ← dropAndPeek
          return (some name, some (← fullTag first handle suffix), behind)
      | _ => return (none, some (← fullTag first handle suffix), second)
  | _ => return (none, none, first)

/-- The next token of a collection between brackets, behind the comma in front of it. -/
def peekMember (closing : Token) (isFirst : Bool) : Reading source (PlacedToken source) := do
  let next ← peek
  if isFirst || next.token = closing then return next
  if next.token = .flowEntry then dropAndPeek else refuse next

mutual

/-- Reads a node, with bounded recursion. In a block a node may be a block itself, and as
the value of a key it may be a sequence that is not indented. -/
def node : Nat → (inBlock isValue : Bool) → Reading source Unit
  | 0, _, _ => do refuse (← peek)
  | fuel + 1, inBlock, isValue => do
      let first ← peek
      if let .alias name := first.token then
        drop
        return ← emitAlias first name
      let (anchor, tag, next) ← properties first
      let start := fun (event : Event) => do
        anchor.forM declare
        emit first event
      match next.token, inBlock, isValue with
      | .blockEntry, _, true =>
          start (.sequenceStart tag)
          looseItems fuel
      | .scalar isPlain text, _, _ =>
          start (.scalar (if tag = some "!" then none else tag) isPlain text)
          drop
      | .flowSequenceStart, _, _ =>
          start (.sequenceStart tag)
          drop
          flowItems fuel true
      | .flowMappingStart, _, _ =>
          start (.mappingStart tag)
          drop
          flowPairs fuel true
      | .sequenceStart, true, _ =>
          start (.sequenceStart tag)
          drop
          blockItems fuel
      | .mappingStart, true, _ =>
          start (.mappingStart tag)
          drop
          blockPairs fuel
      | _, _, _ =>
          if anchor.isSome || tag.isSome then start (.scalar tag true "") else refuse next

def blockItems : Nat → Reading source Unit
  | 0 => do refuse (← peek)
  | fuel + 1 => do
      let next ← peek
      match next.token with
      | .blockEntry =>
          let behind ← dropAndPeek
          match behind.token with
          | .blockEntry | .blockEnd => emitMissing behind
          | _ => node fuel true false
          blockItems fuel
      | .blockEnd =>
          emit next .sequenceEnd
          drop
      | _ => refuse next

/-- Reads the items of a sequence that is not indented and ends with the block around it. -/
def looseItems : Nat → Reading source Unit
  | 0 => do refuse (← peek)
  | fuel + 1 => do
      let next ← peek
      match next.token with
      | .blockEntry =>
          let behind ← dropAndPeek
          match behind.token with
          | .blockEntry | .key | .value | .blockEnd => emitMissing behind
          | _ => node fuel true false
          looseItems fuel
      | _ => emit next .sequenceEnd

/-- Reads a key or a value of a block behind its indicator. -/
def blockPart : Nat → Reading source Unit
  | 0 => do refuse (← peek)
  | fuel + 1 => do
      let behind ← dropAndPeek
      match behind.token with
      | .key | .value | .blockEnd => emitMissing behind
      | _ => node fuel true true

def blockPairs : Nat → Reading source Unit
  | 0 => do refuse (← peek)
  | fuel + 1 => do
      let next ← peek
      match next.token with
      | .key =>
          blockPart fuel
          let behind ← peek
          match behind.token with
          | .value => blockPart fuel
          | _ => emitMissing behind
          blockPairs fuel
      | .blockEnd =>
          emit next .mappingEnd
          drop
      | _ => refuse next

/-- Reads the value of a pair between brackets, if its indicator is there. -/
def flowValue : Nat → (closing : Token) → Reading source Unit
  | 0, _ => do refuse (← peek)
  | fuel + 1, closing => do
      let next ← peek
      if next.token = .value then
        let behind ← dropAndPeek
        if behind.token = .flowEntry ∨ behind.token = closing then emitMissing behind
        else node fuel false false
      else emitMissing next

/-- Reads a pair that stands in a sequence for a mapping, behind the indicator of its key.
Without a key the next token is lost. -/
def flowPair : Nat → Reading source Unit
  | 0 => do refuse (← peek)
  | fuel + 1 => do
      let next ← dropAndPeek
      match next.token with
      | .value | .flowEntry | .flowSequenceEnd =>
          emitMissing next
          drop
      | _ => node fuel false false
      flowValue fuel .flowSequenceEnd
      emit (← peek) .mappingEnd

def flowItems : Nat → (isFirst : Bool) → Reading source Unit
  | 0, _ => do refuse (← peek)
  | fuel + 1, isFirst => do
      let next ← peekMember .flowSequenceEnd isFirst
      match next.token with
      | .flowSequenceEnd =>
          emit next .sequenceEnd
          drop
      | .key =>
          emit next (.mappingStart none)
          flowPair fuel
          flowItems fuel false
      | _ =>
          node fuel false false
          flowItems fuel false

def flowPairs : Nat → (isFirst : Bool) → Reading source Unit
  | 0, _ => do refuse (← peek)
  | fuel + 1, isFirst => do
      let next ← peekMember .flowMappingEnd isFirst
      match next.token with
      | .flowMappingEnd =>
          emit next .mappingEnd
          drop
      | .key =>
          let behind ← dropAndPeek
          match behind.token with
          | .value | .flowEntry | .flowMappingEnd => emitMissing behind
          | _ => node fuel false false
          flowValue fuel .flowMappingEnd
          flowPairs fuel false
      | _ =>
          node fuel false false
          emitMissing (← peek)
          flowPairs fuel false

end

end Reading

end Phrasebook.Yaml
