import LicenseHeader.Reader.Lines

/-!
# The lines of a content

What the lines of a content are, said of the content as a whole and not of a reader, so
that it cannot depend on how the content arrives. A content that ends with a line's ending
has no empty line behind it.

## Main definitions

* `RawLine`: a line of a content, with its ending.
* `LineStyle.split`: the lines of a content.
* `normalizeEndings`: a content with every ending made a line feed.
-/

namespace LicenseHeader

/-- A line of a content. -/
structure RawLine where
  /-- The bytes of the line. -/
  text : Bytes
  /-- The bytes of its ending, none if the content ends first. -/
  ending : Bytes
  deriving DecidableEq, Repr

/-- Splits in the universal style; `text` holds the bytes of the unfinished line in
reverse. -/
def splitUniversalFrom (text : Bytes) : Bytes → List RawLine
  | [] =>
    match text with
    | [] => []
    | _ :: _ => [⟨text.reverse, []⟩]
  | 0x0D :: 0x0A :: rest => ⟨text.reverse, [0x0D, 0x0A]⟩ :: splitUniversalFrom [] rest
  | b :: rest =>
    if b = lineFeed ∨ b = carriageReturn then
      ⟨text.reverse, [b]⟩ :: splitUniversalFrom [] rest
    else splitUniversalFrom (b :: text) rest

/-- Splits in the feed-only style; `text` holds the bytes of the unfinished line in
reverse. -/
def splitFeedOnlyFrom (text : Bytes) : Bytes → List RawLine
  | [] =>
    match text with
    | [] => []
    | _ :: _ => [⟨text.reverse, []⟩]
  | b :: rest =>
    if b = lineFeed then
      (match text with
        | 0x0D :: earlier => ⟨earlier.reverse, [0x0D, 0x0A]⟩
        | _ => ⟨text.reverse, [0x0A]⟩) :: splitFeedOnlyFrom [] rest
    else splitFeedOnlyFrom (b :: text) rest

/-- The lines of a content. -/
def LineStyle.split : LineStyle → Bytes → List RawLine
  | .universal, content => splitUniversalFrom [] content
  | .feedOnly, content => splitFeedOnlyFrom [] content

/-- The text of a line of a content. -/
def RawLine.decode (style : LineStyle) (line : RawLine) : Except Failure Line :=
  style.decode line.text

/-- A content with a line feed in the stead of every ending of the universal style. -/
def normalizeEndings : Bytes → Bytes
  | [] => []
  | 0x0D :: 0x0A :: rest => lineFeed :: normalizeEndings rest
  | b :: rest => (if b = carriageReturn then lineFeed else b) :: normalizeEndings rest

end LicenseHeader
