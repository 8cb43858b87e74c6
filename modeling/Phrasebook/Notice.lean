import Phrasebook.Report
import Phrasebook.Schema
import Phrasebook.Text.Blank

/-!
# Notices

What a command says, piece by piece. The pieces have a meaning; how they look on a
terminal is decided here alone.
-/

namespace Phrasebook

/-- A piece of what a command says. -/
inductive Notice where
  | heading (text : String)
  | pair (key value : String)
  | item (text : String)
  /-- Something that has come into being. -/
  | added (text : String)
  | problem (text : String)
  | divider (label : String)
  | block (text : String)
  | space
deriving DecidableEq, Repr

namespace Notice

/-- A text without the line feeds at its end. -/
def withoutLastBreaks (text : String) : String :=
  String.ofList ((text.toList.reverse.dropWhile (· = '\n')).reverse)

/-- What a notice adds to the regular output. -/
def output : Notice → String
  | heading text => text ++ ":\n"
  | pair key value => key ++ ": " ++ value ++ "\n"
  | item text => "  - " ++ text ++ "\n"
  | added text => "  + " ++ text ++ "\n"
  | problem _ => ""
  | divider label => "── " ++ label ++ " ──\n"
  | block text => withoutLastBreaks text ++ "\n"
  | space => "\n"

/-- What a notice adds to the output for errors. -/
def errors : Notice → String
  | problem text => String.ofList (Text.trimEnd text.toList) ++ "\n"
  | _ => ""

def outputOfAll (notices : List Notice) : String :=
  String.join (notices.map output)

def errorsOfAll (notices : List Notice) : String :=
  String.join (notices.map errors)

end Notice

/-- One line such as `3 messages (1 with placeholders)`. -/
def Schema.Summary.messagesLine (summary : Schema.Summary) : String :=
  toString summary.messages ++ " message" ++ Report.plural summary.messages ++ " (" ++
    toString summary.calls ++ " with placeholders)"

end Phrasebook
