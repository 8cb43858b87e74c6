/-!
# Lines of a text

A line ends at a line feed, and a carriage return right before the line feed belongs to
the ending. A text that ends with a line feed has no further line after it.
-/

namespace Phrasebook.Text

/-- The lines of a text, without their endings. -/
def splitLines : List Char → List (List Char)
  | [] => []
  | c :: rest =>
      if c = '\n' then [] :: splitLines rest
      else if c = '\r' ∧ rest.head? = some '\n' then splitLines rest
      else match splitLines rest with
        | [] => [[c]]
        | first :: others => (c :: first) :: others

end Phrasebook.Text
