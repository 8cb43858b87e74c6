import Phrasebook.Proofs.Text.Slice

/-!
# Labels of single characters

An offset is labelled with the character that starts there, and an offset beyond the text with the
empty part at the end. An offset inside a character could not be labelled, since the text cannot be
cut there. Nothing checks the offsets for that, and nothing has to: any line and column of a JSON
text become the offset of a character or of the end, and what a reader of YAML counts before a fault
are the bytes of the characters it has passed.
-/

namespace Phrasebook.Text

end Phrasebook.Text
