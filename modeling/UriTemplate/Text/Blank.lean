import UriTemplate.Text.Basic

/-! # Blanks

The white space of Unicode 14: the blank, tab and line breaks, and the spaces of all widths
and scripts. -/

namespace UriTemplate.CodePoint

/-- The ranges of white space, in increasing order. -/
def blankRanges : List (Nat × Nat) := [
  (0x09, 0x0D), (0x20, 0x20), (0x85, 0x85), (0xA0, 0xA0), (0x1680, 0x1680), (0x2000, 0x200A),
  (0x2028, 0x2029), (0x202F, 0x202F), (0x205F, 0x205F), (0x3000, 0x3000)]

/-- Whether the code point is white space. -/
def isBlank (c : CodePoint) : Bool := c.within blankRanges

end UriTemplate.CodePoint
