set_option autoImplicit false

/-!
# Blank characters

The characters that may stand around the parts of a written date and time: the 25 code points that
Unicode lists as white space.
-/

namespace DocumentStore.Text

/-- The code points of white space. -/
def blankCodes : List Nat :=
  [0x9, 0xA, 0xB, 0xC, 0xD, 0x20, 0x85, 0xA0, 0x1680, 0x2000, 0x2001, 0x2002, 0x2003, 0x2004,
   0x2005, 0x2006, 0x2007, 0x2008, 0x2009, 0x200A, 0x2028, 0x2029, 0x202F, 0x205F, 0x3000]

/-- Whether the character is white space. -/
def isBlank (c : Char) : Bool := blankCodes.contains c.toNat

/-- The text from its first character that is not white space. -/
def skipBlank (s : List Char) : List Char := s.dropWhile isBlank

end DocumentStore.Text
