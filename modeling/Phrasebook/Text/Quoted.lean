/-!
# Double-quoted string literals

The literal form of a text in emitted code. A double quote, a backslash and the three
common blanks have escapes of their own, every other control character and the two line
separators are written with four hexadecimal digits, and all else stands for itself. So
a literal holds no line break, and only its two ends are bare double quotes.
-/

namespace Phrasebook.Text

/-- The control characters: everything below U+0020 and U+007F to U+009F. -/
def isControl (c : Char) : Bool :=
  c.toNat < 0x20 || (0x7F ≤ c.toNat && c.toNat ≤ 0x9F)

/-- The lower-case hexadecimal digit of a number below sixteen. -/
def hexDigit (n : Nat) : Char :=
  if n < 10 then Char.ofNat (48 + n) else Char.ofNat (87 + n)

/-- The last four hexadecimal digits of a number, the most significant first. -/
def hexFour (n : Nat) : List Char :=
  [hexDigit (n / 4096 % 16), hexDigit (n / 256 % 16), hexDigit (n / 16 % 16), hexDigit (n % 16)]

namespace Quoted

def escape (c : Char) : List Char :=
  if c = '"' then ['\\', '"']
  else if c = '\\' then ['\\', '\\']
  else if c = '\n' then ['\\', 'n']
  else if c = '\r' then ['\\', 'r']
  else if c = '\t' then ['\\', 't']
  else if isControl c || c = '\u2028' || c = '\u2029' then '\\' :: 'u' :: hexFour c.toNat
  else [c]

/-- The characters of the literal, quotes included. -/
def encodeChars (text : List Char) : List Char :=
  '"' :: (text.flatMap escape ++ ['"'])

def encode (text : String) : String :=
  String.ofList (encodeChars text.toList)

theorem toList_encode (text : String) : (encode text).toList = encodeChars text.toList := by
  simp [encode]

end Quoted

end Phrasebook.Text
