import LicenseHeader.Text.Ranges

/-!
# Blanks

The Unicode property `White_Space`, and its ASCII part.

## Main definitions

* `isBlank`: the property, by code point.
* `asciiBlankRanges`: tab, line feed, vertical tab, form feed, carriage return and space.
-/

namespace LicenseHeader

/-- The ranges of the property. -/
def blankRanges : Ranges :=
  [(0x9, 0xD), (0x20, 0x20), (0x85, 0x85), (0xA0, 0xA0), (0x1680, 0x1680), (0x2000, 0x200A),
   (0x2028, 0x2029), (0x202F, 0x202F), (0x205F, 0x205F), (0x3000, 0x3000)]

/-- The ranges of the property within ASCII. -/
def asciiBlankRanges : Ranges :=
  [(0x9, 0xD), (0x20, 0x20)]

/-- Whether a code point is white space. -/
def isBlank (n : Nat) : Bool :=
  blankRanges.covers n

end LicenseHeader
