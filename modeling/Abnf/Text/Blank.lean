import Abnf.Text.Ranges

/-! Blank characters: the 25 code points with the property White_Space. Line feed and carriage
return are among them; a cursor reads those two as line ends before anyone asks for blanks. -/

namespace Abnf.Text

def blankRanges : List (Nat × Nat) :=
  [(0x09, 0x0D), (0x20, 0x20), (0x85, 0x85), (0xA0, 0xA0), (0x1680, 0x1680), (0x2000, 0x200A),
   (0x2028, 0x2029), (0x202F, 0x202F), (0x205F, 0x205F), (0x3000, 0x3000)]

def isBlank (c : Char) : Bool := inRanges blankRanges c

end Abnf.Text
