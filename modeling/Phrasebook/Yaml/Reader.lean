import Phrasebook.Yaml.Event
import Phrasebook.Yaml.Scalar

/-!
# Reading YAML documents

A text holds one document, which may be empty. Aliases are followed while values are
formed; collections may be nested 128 deep, aliases included, and the number of aliases
that are followed is bounded. Repeated keys are given as they are written. A fault is told
with its place, unless it is about the document as a whole.
-/

namespace Phrasebook.Yaml

inductive DocumentFault where
  /-- The text is malformed, at an offset or as a whole. -/
  | malformed (offset : Option Nat)
  /-- The root is neither a mapping nor null. -/
  | notAMapping (typeName : String)
deriving DecidableEq, Repr

/-! ### Values of events -/

/-- The events of a document, up to the place where the text is malformed. -/
structure Composition (source : List Char) where
  events : Events source
  /-- How many events there are before the node of an anchor, by its number. -/
  targets : List (Nat × Nat)
  fault : Option (Place source)

/-- Forming values from events. The state counts the aliases that have been followed. -/
abbrev Forming (source : List Char) := StateT Nat (Except (Option (Place source)))

variable {source : List Char}

/-- Whether a collection may have a tag: local ones have no meaning. -/
def isGlobalTag (tag : Option String) : Bool :=
  tag.all fun text => text.toList.head? ≠ some '!'

namespace Composition

/-- The events from an anchor on. Aliases may be followed a hundred times as often as there
are events. -/
def follow (composition : Composition source) (number : Nat) : Forming source (Events source) := do
  let count ← get
  if 100 * composition.events.length ≤ count then throw none
  set (count + 1)
  match composition.targets.lookup number with
  | some place => return composition.events.drop place
  | none => throw none

/-- Reads the node at the front of some events, or the one that an alias there stands for. -/
def readThrough {α : Type} (composition : Composition source)
    (read : Events source → Forming source (α × Events source)) :
    Events source → Forming source (α × Events source)
  | ⟨.alias number, _⟩ :: rest => do
      let (result, _) ← read (← composition.follow number)
      return (result, rest)
  | events => read events

/-- The text of a key, which is a scalar. Its tag and style do not matter. -/
def readKey (composition : Composition source) :
    Events source → Forming source (String × Events source)
  | ⟨.scalar _ _ text, _⟩ :: rest => return (text, rest)
  | ⟨_, place⟩ :: _ => throw (some place)
  | [] => throw composition.fault

def readItemsWithin (composition : Composition source)
    (read : Events source → Forming source (Value × Events source)) :
    Nat → Events source → Forming source (List Value × Events source)
  | _, [] => throw composition.fault
  | 0, _ => throw composition.fault
  | _ + 1, ⟨.sequenceEnd, _⟩ :: rest => return ([], rest)
  | fuel + 1, events => do
      let (first, next) ← read events
      let (others, last) ← readItemsWithin composition read fuel next
      return (first :: others, last)

def readEntriesWithin (composition : Composition source)
    (read : Events source → Forming source (Value × Events source)) :
    Nat → Events source → Forming source (List (String × Value) × Events source)
  | _, [] => throw composition.fault
  | 0, _ => throw composition.fault
  | _ + 1, ⟨.mappingEnd, _⟩ :: rest => return ([], rest)
  | fuel + 1, events => do
      let (key, afterKey) ← composition.readThrough composition.readKey events
      let (value, next) ← read afterKey
      let (others, last) ← readEntriesWithin composition read fuel next
      return ((key, value) :: others, last)

/-- Reads the value of a node that may hold `depth` levels of collections. -/
def readValue (composition : Composition source) :
    (depth : Nat) → Events source → Forming source (Value × Events source)
  | _, [] => throw composition.fault
  | depth, ⟨event, place⟩ :: rest => do
      let refuse : Forming source (Value × Events source) := throw (some place)
      match event, depth with
      | .scalar tag isPlain text, _ =>
          match scalarValue? tag isPlain text with
          | some value => return (value, rest)
          | none => refuse
      | .sequenceStart tag, depth + 1 =>
          if !isGlobalTag tag then refuse
          else
            let (items, last) ← composition.readItemsWithin
              (composition.readThrough (readValue composition depth)) (rest.length + 1) rest
            return (.sequence items, last)
      | .mappingStart tag, depth + 1 =>
          if !isGlobalTag tag then refuse
          else
            let (entries, last) ← composition.readEntriesWithin
              (composition.readThrough (readValue composition depth)) (rest.length + 1) rest
            return (.mapping entries, last)
      | _, _ => refuse

/-- How deep collections may be nested. -/
def maxDepth : Nat := 128

/-- The value of the root. A text without a node has none, and is null. -/
def root (composition : Composition source) : Except (Option (Place source)) Value :=
  if composition.events.isEmpty && composition.fault.isNone then .ok .null
  else
    ((composition.readThrough (composition.readValue maxDepth) composition.events).run 0).map
      fun ((value, _), _) => value

end Composition

/-! ### Documents -/

namespace Reading

/-- The handles that need no declaration. -/
def standardHandles : List (String × String) :=
  [("!", "!"), ("!!", standardTag "")]

/-- Whether a token stands in front of a document or at its start. -/
def isPreamble : Token → Bool
  | .version _ _ | .handle _ _ | .documentStart => true
  | _ => false

/-- Reads the directives in front of a document, with bounded recursion. A handle is
declared once at most, and so is the version. Gives the token behind them. -/
def directives : Nat → (hasVersion : Bool) → Reading source (PlacedToken source)
  | 0, _ => do refuse (← peek)
  | fuel + 1, hasVersion => do
      let next ← peek
      match next.token with
      | .version major minor =>
          if hasVersion ∨ major ≠ 1 ∨ (minor ≠ 1 ∧ minor ≠ 2) then refuse next
          drop
          directives fuel true
      | .handle name meaning =>
          let state ← get
          if (state.handles.lookup name).isSome then refuse next
          set { state with handles := state.handles ++ [(name, meaning)] }
          drop
          directives fuel hasVersion
      | _ => return next

/-- Reads the first document of a text and the mark of its end, if the text holds any. -/
def document (fuel : Nat) : Reading source Unit := do
  let first ← peek
  if first.token = .streamEnd then return
  let isExplicit := isPreamble first.token
  let start ← directives fuel false
  modify fun state => { state with handles := state.handles ++ standardHandles }
  if isExplicit then
    if start.token ≠ .documentStart then refuse start
    let next ← dropAndPeek
    if isPreamble next.token || next.token = .documentEnd || next.token = .streamEnd then
      emitMissing next
    else node fuel true false
  else node fuel true false
  if (← peek).token = .documentEnd then drop

/-- Reads what may follow the only document of a text. -/
def ending : Nat → Reading source Unit
  | 0 => do refuse (← peek)
  | fuel + 1 => do
      let next ← peek
      match next.token with
      | .documentEnd =>
          drop
          ending fuel
      | .streamEnd => return
      | _ => refuse next

end Reading

def compositionOf (result : Except (Place source) Unit) (state : ReadingState source) :
    Composition source where
  events := state.events.reverse
  targets := state.targets
  fault := match result with
    | .ok _ => none
    | .error fault => some fault

/-- The fault of a text that is malformed at a place, or as a whole. -/
def DocumentFault.at (place : Option (Place source)) : DocumentFault :=
  .malformed (place.map Place.offset)

/-- The entries that some reading has led to, if nothing is wrong behind them. -/
def endDocument (fuel : Nat) (composition : Composition source) (state : ReadingState source)
    (entries : Entries Value) : Except DocumentFault (Entries Value) :=
  if composition.fault.isSome then .error (.at composition.fault)
  else match (Reading.ending fuel).run state with
    | (.ok _, _) => .ok entries
    | (.error _, _) => .error (.malformed none)

/-- Reads a document. The values are judged as far as the text can be read; the kind of the
root counts before a fault behind it. -/
def readDocument (source : List Char) : Except DocumentFault (Entries Value) :=
  let fuel := 8 * source.length + 16
  if !source.all isAllowed then .error (.at (some (Place.start source)))
  else
    let (result, state) := (Reading.document fuel).run { tokens := Tokens.start source }
    let composition := compositionOf result state
    match composition.root with
    | .error place => .error (.at place)
    | .ok (.mapping entries) => endDocument fuel composition state entries
    | .ok .null => endDocument fuel composition state []
    | .ok other => .error (.notAMapping other.typeName)

end Phrasebook.Yaml
