import Phrasebook.Failure

/-!
# Messages at run time

Finding a message by its dotted path and filling in its parameters. A call is rendered
segment by segment, so the first parameter of the body without a value is the one that is
reported missing.
-/

namespace Phrasebook

inductive Argument where
  | text (value : String)
  | integer (value : Int64)
  | real (value : Float)

def Argument.render : Argument → String
  | .text value => value
  | .integer value => toString value.toInt
  | .real value => Decimal.text value

/-- Values by parameter name. -/
abbrev Arguments := Entries Argument

inductive Message where
  | text (value : String)
  | call (body : Body)
deriving DecidableEq, Repr

namespace Message

def renderBody (arguments : Arguments) : List Segment → Except Failure String
  | [] => .ok ""
  | .literal piece :: rest => (renderBody arguments rest).map fun after => piece ++ after
  | .param name :: rest =>
      match arguments.lookup name with
      | none => .error (.missingOption name)
      | some value => (renderBody arguments rest).map fun after => value.render ++ after

def render (arguments : Arguments) : Message → Except Failure String
  | .text value => .ok value
  | .call body => renderBody arguments body

/-- The distinct parameters in increasing order. -/
def params : Message → List String
  | .text _ => []
  | .call body => body.params

end Message

namespace Tree

def message (path : String) (tree : Tree) : Except Failure Message :=
  match tree.lookupDotted path with
  | some (.text value) => .ok (.text value)
  | some (.call body) => .ok (.call body)
  | some (.record _ _) => .error (.notAMessage path)
  | none => .error (.notFound path)

/-- The text of the message at a dotted path. -/
def translate (path : String) (arguments : Arguments) (tree : Tree) : Except Failure String :=
  match tree.message path with
  | .ok found => found.render arguments
  | .error failure => .error failure

end Tree

end Phrasebook
