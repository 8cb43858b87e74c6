import Phrasebook.Entries
import Phrasebook.Script.Reader

/-!
# Evaluating joined arrays

What the body of an emitted function gives when it is called: the items of its array are string
literals and members of `options`, and they are joined without anything between them.
-/

namespace Phrasebook.Script

/-- The items of the array that a text of code joins. -/
def joinedItems? (code : String) : Option (List Segment) :=
  match tokens? code.toList with
  | some tokens =>
      match Reader.joined tokens with
      | some (items, []) => some items
      | _ => none
  | none => none

/-- The text that an item is joined as. An option that is not there is undefined, and joins as the
empty text. -/
def itemText (options : Entries String) : Segment → String
  | .literal value => value
  | .param name => (options.lookup name).getD ""

/-- The text that code gives for options. -/
def evaluate? (options : Entries String) (code : String) : Option String :=
  (joinedItems? code).map fun items => String.join (items.map (itemText options))

/-- The options that code reads, in the order in which it reads them. -/
def optionsRead? (code : String) : Option (List String) :=
  (joinedItems? code).map fun items => items.filterMap Segment.param?

end Phrasebook.Script
