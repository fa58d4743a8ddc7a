/-!
# Blank text

Names, labels and numbers arrive with white space around them. "Blank" is the White_Space property of Unicode: the six
ASCII characters, the next-line character, the no-break space and the typographic spaces. Zero-width characters are
not white space.
-/

namespace DatabaseBroker.Text

/-- White space of Unicode. -/
def isBlankChar (c : Char) : Bool :=
  let n := c.toNat
  (9 ≤ n && n ≤ 13) || n == 0x20 || n == 0x85 || n == 0xA0 || n == 0x1680 || (0x2000 ≤ n && n ≤ 0x200A) ||
    n == 0x2028 || n == 0x2029 || n == 0x202F || n == 0x205F || n == 0x3000

/-- The characters between the leading and the trailing white space. -/
def trimChars (cs : List Char) : List Char :=
  ((cs.dropWhile isBlankChar).reverse.dropWhile isBlankChar).reverse

/-- The text between the leading and the trailing white space. -/
def trim (s : String) : String := String.ofList (trimChars s.toList)

/-- A text is blank when it holds white space only. -/
def isBlank (s : String) : Bool := s.toList.all isBlankChar

end DatabaseBroker.Text
