/-!
# Segments of a message

A message with parameters is a list of literal pieces and parameters.
-/

namespace Phrasebook

/-- One piece of a message that takes parameters. -/
inductive Segment where
  | literal (text : String)
  | param (name : String)
deriving DecidableEq, Repr

namespace Segment

def param? : Segment → Option String
  | .literal _ => none
  | .param name => some name

end Segment

/-- Inserts a name into a list in increasing order, unless it is there. -/
def insertName (name : String) : List String → List String
  | [] => [name]
  | first :: rest =>
      if name < first then name :: first :: rest
      else if name = first then first :: rest
      else first :: insertName name rest

abbrev Body := List Segment

namespace Body

/-- The parameters as they occur, repetitions included. -/
def paramsInOrder (body : Body) : List String :=
  body.filterMap Segment.param?

/-- The distinct parameters in increasing order. -/
def params (body : Body) : List String :=
  body.paramsInOrder.foldr insertName []

end Body

end Phrasebook
