import Phrasebook.Document
import Phrasebook.Json.Reader
import Phrasebook.SourceError
import Phrasebook.Toml.Reader
import Phrasebook.Yaml.Reader

/-!
# Documents of locale files

The document that a locale file holds, in any of the formats. The readers of two formats say
where a text is malformed, which becomes the label of the error. One gives a line and a column,
the other an offset. What the reader of the third format says about the place is left out.
-/

namespace Phrasebook

/-- The part of a JSON text to label for a fault: the character of its line and column, the
column being taken as a number of characters. -/
def Json.Fault.span? (text : List Char) (fault : Json.Fault) : Option Text.Span :=
  let (line, column) := Text.lineColumn text (Text.byteSize text - fault.left)
  (Text.lineColumnOffset? text line column).bind (Text.pointSpan? text)

namespace LocaleFormat

def readDocument (text : String) : LocaleFormat → Except LocaleFault Document
  | yaml =>
      match Yaml.readDocument text.toList with
      | .ok entries => .ok (.ofPairs entries)
      | .error (.malformed offset) =>
          .error (.malformed (offset.bind (Text.pointSpan? text.toList)))
      | .error (.notAMapping typeName) => .error (.notAMapping typeName)
  | json =>
      match Json.readDocument text.toList with
      | .ok entries => .ok (.ofPairs entries)
      | .error (.malformed fault) => .error (.malformed (fault.span? text.toList))
      | .error (.notAMapping typeName) => .error (.notAMapping typeName)
  | toml =>
      match Toml.readDocument? text.toList with
      | some entries => .ok (.ofPairs entries)
      | none => .error (.malformed none)

def documentOf (path : Path) (text : String) (format : LocaleFormat) : Except SourceError Document :=
  match format.readDocument text with
  | .ok document => .ok document
  | .error fault => .error (.refusedLocale path format fault)

end LocaleFormat

end Phrasebook
