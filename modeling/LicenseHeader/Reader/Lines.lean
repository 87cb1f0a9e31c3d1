import LicenseHeader.Reader.Basic
import LicenseHeader.Text.Utf8

/-!
# Lines

Lines are read in two styles. Files are read in the *universal* style, where a line ends at
a line feed, at a carriage return, or at both in this order as one ending. Standard input is
read in the *feed-only* style, where a line ends at a line feed alone and one carriage
return before it belongs to the ending. The text of a line must be valid UTF-8.

## Main definitions

* `LineStyle`: the two styles.
* `Reader.next`: the next line of a reader.
* `Reader.lines`: all lines of a reader.
-/

namespace LicenseHeader

/-- What ends a line. -/
inductive LineStyle where
  /-- A line feed, a carriage return, or one after the other. -/
  | universal
  /-- A line feed, with a carriage return before it if there is one. -/
  | feedOnly
  deriving DecidableEq, Repr

/-! ### Reading -/

/-- Whether a byte ends a line. -/
def LineStyle.stops : LineStyle → UInt8 → Bool
  | .universal, b => b == lineFeed || b == carriageReturn
  | .feedOnly, b => b == lineFeed

/-- The text of a line from its bytes. Only the universal style says where the first error
stands. -/
def LineStyle.decode (style : LineStyle) (bytes : Bytes) : Except Failure Line :=
  match Utf8.decode bytes with
  | .ok text => .ok text
  | .error e =>
    .error ⟨.invalidData,
      match style with
      | .universal => e.message
      | .feedOnly => "stream did not contain valid UTF-8"⟩

/-- A list without its last element, if that is a carriage return. -/
def dropCarriageReturn (bytes : Bytes) : Bytes :=
  if bytes.getLast? = some carriageReturn then bytes.dropLast else bytes

/-- A line whose ending in the universal style begins with `b`. Behind a carriage return a
line feed is still part of the ending, and a failure to look for it takes the place of the
line. -/
def Reader.endUniversal (bytes : Bytes) (b : UInt8) (reader : Reader) :
    Except Failure Line × Reader :=
  if b = carriageReturn then
    match reader.skip lineFeed with
    | (some failure, reader) => (.error failure, reader)
    | (none, reader) => (LineStyle.universal.decode bytes, reader)
  else (LineStyle.universal.decode bytes, reader)

/-- The next line, or nothing at the end of the input. A failure ends the line that was
begun, and its bytes are lost. -/
def Reader.next (style : LineStyle) (reader : Reader) :
    Option (Except Failure Line) × Reader :=
  let stretch := reader.takeUntil style.stops
  match stretch.stop with
  | .failed failure => (some (.error failure), stretch.reader)
  | .ended =>
    match stretch.bytes with
    | [] => (none, stretch.reader)
    | b :: rest => (some (style.decode (b :: rest)), stretch.reader)
  | .at b =>
    match style with
    | .universal =>
      let (line, reader) := Reader.endUniversal stretch.bytes b stretch.reader
      (some line, reader)
    | .feedOnly =>
      (some (LineStyle.feedOnly.decode (dropCarriageReturn stretch.bytes)), stretch.reader)

/-! ### All lines -/

/-- How much can still come of an event: a byte for each byte, and one more item for a
failure that is seen. -/
def Event.weight : Event → Nat
  | .data bytes => bytes.length
  | .failure f => if f.isInterruption then 0 else 1
  | .ended => 0

/-- How much can still come of a reader. Every line that it delivers, and every failure,
takes from this. -/
def Reader.weight (reader : Reader) : Nat :=
  reader.events.foldr (fun event weight => event.weight + weight) reader.buffered.length

/-- Reads on until the input ends; `lines` holds what was read so far, the last line
first. -/
def Reader.linesFrom (style : LineStyle) (lines : List (Except Failure Line)) :
    Nat → Reader → List (Except Failure Line) × Reader
  | 0, reader => (lines.reverse, reader)
  | rounds + 1, reader =>
    match reader.next style with
    | (none, reader) => (lines.reverse, reader)
    | (some line, reader) => linesFrom style (line :: lines) rounds reader

/-- All lines up to the next end of the input, going on after failures, and the reader
afterwards. One round more than the weight of the reader is enough to meet the end. -/
def Reader.lines (style : LineStyle) (reader : Reader) :
    List (Except Failure Line) × Reader :=
  Reader.linesFrom style [] (reader.weight + 1) reader

end LicenseHeader
