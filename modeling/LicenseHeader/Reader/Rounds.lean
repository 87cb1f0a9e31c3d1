import LicenseHeader.Reader.Lines

/-!
# Rounds of a call

A call for the next line of a file is two loops, one behind the other. The first gathers the
bytes of the line; the second, which is entered at a carriage return, looks for the line feed
that may belong to it. Every round of a loop asks the reader for bytes once. A round that is
interrupted leads back to where it began, and so does one whose bytes do not end the line, but
that these are gathered then.

`Reader.next` says what such a call comes to. Here it is taken apart into its rounds, so that
they can be counted and each be asked what it takes from the reader.

## Main definitions

* `Reader.request`: one request for bytes.
* `CallState`: where a call stands between two rounds.
* `CallState.step`: a round.
-/

namespace LicenseHeader

/-- One request for bytes. Those that have arrived are shown again; only if there are none, the
next event happens. -/
def Reader.request : Reader → Option Failure × Reader
  | ⟨b :: bytes, events, consumed⟩ => (none, ⟨b :: bytes, events, consumed⟩)
  | ⟨[], [], consumed⟩ => (none, ⟨[], [], consumed⟩)
  | ⟨[], .data bytes :: events, consumed⟩ => (none, ⟨bytes, events, consumed⟩)
  | ⟨[], .ended :: events, consumed⟩ => (none, ⟨[], events, consumed⟩)
  | ⟨[], .failure failure :: events, consumed⟩ => (some failure, ⟨[], events, consumed⟩)

/-- Where a call for a line of a file stands. -/
inductive CallState where
  /-- Within the line; `gathered` holds its bytes so far in reverse. -/
  | within (gathered : Bytes) (reader : Reader)
  /-- Behind the carriage return at which the line ends. -/
  | behind (text : Bytes) (reader : Reader)
  /-- At the answer. -/
  | answered (answer : Option (Except Failure Line)) (reader : Reader)
  deriving Repr

namespace CallState

/-- A round: it begins with a request, goes on with the bytes that arrived, and leads back if
the request was interrupted. -/
def round (again arrived : Reader → CallState) (reader : Reader) : CallState :=
  match reader.request with
  | (some failure, reader) =>
    if failure.isInterruption then again reader else .answered (some (.error failure)) reader
  | (none, reader) => arrived reader

/-- The answer at the end of the input: a line without an ending, if it has any bytes. -/
def lastLine : Bytes → Option (Except Failure Line)
  | [] => none
  | b :: bytes => some (LineStyle.universal.decode (b :: bytes))

/-- What a round within a line does with the bytes that arrived. -/
def gather (gathered : Bytes) (reader : Reader) : CallState :=
  match reader.buffered with
  | [] => .answered (lastLine gathered.reverse) reader
  | b :: bytes =>
    let seen := Sighting.among LineStyle.universal.stops gathered reader.consumed (b :: bytes)
    match seen.found with
    | none => .within seen.gathered ⟨[], reader.events, seen.consumed⟩
    | some (stop, rest) =>
      let text := seen.gathered.reverse
      let reader : Reader := ⟨rest, reader.events, seen.consumed⟩
      if stop = carriageReturn then .behind text reader
      else .answered (some (LineStyle.universal.decode text)) reader

/-- What a round behind a carriage return does with the bytes that arrived. -/
def close (text : Bytes) (reader : Reader) : CallState :=
  let line := LineStyle.universal.decode text
  match reader.buffered with
  | [] => .answered (some line) reader
  | b :: rest =>
    if b = lineFeed then .answered (some line) ⟨rest, reader.events, reader.consumed + 1⟩
    else .answered (some line) reader

/-- One round of a call. A call that is over stays so. -/
def step : CallState → CallState
  | .within gathered reader => round (.within gathered) (gather gathered) reader
  | .behind text reader => round (.behind text) (close text) reader
  | .answered answer reader => .answered answer reader

end CallState

end LicenseHeader
