/-!
# Blanks

The characters with the property `White_Space`, which a reader of lines may skip.
-/

namespace Phrasebook.Text

/-- The blanks beyond the ASCII ones and the two ranges in `isBlank`. -/
def rareBlanks : List Nat :=
  [0x85, 0xA0, 0x1680, 0x2028, 0x2029, 0x202F, 0x205F, 0x3000]

def isBlank (c : Char) : Bool :=
  (9 ≤ c.toNat && c.toNat ≤ 13) || c = ' ' || (0x2000 ≤ c.toNat && c.toNat ≤ 0x200A) ||
    rareBlanks.contains c.toNat

/-- A text without the blanks in front of it. -/
def trimStart (text : List Char) : List Char :=
  text.dropWhile isBlank

/-- A text without the blanks behind it. -/
def trimEnd (text : List Char) : List Char :=
  (text.reverse.dropWhile isBlank).reverse

end Phrasebook.Text
