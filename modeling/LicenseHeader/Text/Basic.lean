/-!
# Bytes and lines

The two kinds of text that a header check deals in. File names, file contents and
everything that is printed are byte strings; a line that is searched for a header is a
list of Unicode scalars.

## Main definitions

* `Bytes`: a byte string, valid UTF-8 or not.
* `Line`: the text of one line, without its ending.
* `Bytes.ofString`: the bytes of a literal.
-/

namespace LicenseHeader

/-- A byte string, which need not be valid UTF-8. -/
abbrev Bytes := List UInt8

/-- The text of one line, without its ending. -/
abbrev Line := List Char

/-- The line feed byte, which ends a line in every way of reading. -/
def lineFeed : UInt8 := 0x0A

/-- The carriage return byte, which ends a line of a file, alone or with a line feed. -/
def carriageReturn : UInt8 := 0x0D

/-- The UTF-8 bytes of a string. -/
def Bytes.ofString (s : String) : Bytes :=
  s.toList.flatMap String.utf8EncodeChar

end LicenseHeader
