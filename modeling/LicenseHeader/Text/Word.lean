import LicenseHeader.Text.Alphabetic
import LicenseHeader.Text.Mark
import LicenseHeader.Text.Number

/-!
# Word characters

The characters that `\w` stands for: alphabetic characters, marks, decimal digits, the low
line and its like, and the two invisible characters that join words.

## Main definitions

* `isWord`: word characters, by code point.
* `asciiWordRanges`: ASCII letters, ASCII digits and the low line.
* `isAlphanumeric`: alphabetic characters and numbers.
-/

namespace LicenseHeader

/-- The general category `Pc`: the low line and other connecting punctuation. -/
def connectorRanges : Ranges :=
  [(0x5F, 0x5F), (0x203F, 0x2040), (0x2054, 0x2054), (0xFE33, 0xFE34), (0xFE4D, 0xFE4F),
   (0xFF3F, 0xFF3F)]

/-- The invisible characters that join words, or keep joined letters apart. -/
def joinerRanges : Ranges :=
  [(0x200C, 0x200D)]

/-- The ranges of word characters. -/
def wordRanges : Ranges :=
  joinerRanges.union (connectorRanges.union (digitRanges.union
    (markRanges.union alphabeticRanges)))

/-- The ranges of word characters within ASCII. -/
def asciiWordRanges : Ranges :=
  [(0x30, 0x39), (0x41, 0x5A), (0x5F, 0x5F), (0x61, 0x7A)]

/-- Whether a code point is a word character. -/
def isWord (n : Nat) : Bool :=
  wordRanges.covers n

/-- Whether a code point is a word character within ASCII. -/
def isAsciiWord (n : Nat) : Bool :=
  asciiWordRanges.covers n

/-- Whether a code point is alphabetic or a number. -/
def isAlphanumeric (n : Nat) : Bool :=
  isAlphabetic n || isNumber n

end LicenseHeader
