import LicenseHeader.Failure

/-!
# Readers

A reader delivers bytes in pieces of any size, and may fail between two pieces. Its future
is a list of events: data, a failure, or an end of input that later data may still follow.
Data of no bytes reads as an end of input too. Interruptions are never seen by a caller,
because every read that is interrupted is tried again at once.

## Main definitions

* `Event`, `Reader`: a reader and what it will meet.
* `Reader.takeUntil`: the bytes up to one of some stop bytes.
* `Reader.skip`: passes over one byte if it comes next.
* `Event.pieces`: data in pieces of one size.
-/

namespace LicenseHeader

/-- What happens when a reader asks for more. -/
inductive Event where
  /-- Bytes arrive. -/
  | data (bytes : Bytes)
  /-- The read fails. -/
  | failure (failure : Failure)
  /-- Nothing is left to read for now. -/
  | ended
  deriving DecidableEq, Repr

/-- A source of bytes. -/
structure Reader where
  /-- Bytes that have arrived and are not consumed yet. -/
  buffered : Bytes
  /-- What will happen, in order. -/
  events : List Event
  /-- How many bytes have been consumed. -/
  consumed : Nat
  deriving DecidableEq, Repr

/-- A reader at its beginning. -/
def Reader.ofEvents (events : List Event) : Reader := ⟨[], events, 0⟩

/-! ### Data in pieces -/

/-- Cuts bytes into pieces; `piece` holds the bytes of the unfinished one and `room` how
many more it takes. Both lists are reversed. -/
def Event.piecesFrom (size : Nat) (pieces : List Event) (piece : Bytes) (room : Nat) :
    Bytes → List Event
  | [] =>
    match piece with
    | [] => pieces.reverse
    | _ :: _ => (.data piece.reverse :: pieces).reverse
  | b :: rest =>
    match room with
    | 0 | 1 => piecesFrom size (.data (b :: piece).reverse :: pieces) [] size rest
    | room + 2 => piecesFrom size pieces (b :: piece) (room + 1) rest

/-- Data events of `size` bytes each, the last one with what is left. -/
def Event.pieces (size : Nat) (bytes : Bytes) : List Event :=
  Event.piecesFrom size [] [] size bytes

/-! ### Taking bytes -/

/-- Why a reader stopped taking bytes. -/
inductive Stop where
  /-- It consumed this stop byte. -/
  | at (b : UInt8)
  /-- The input ended. -/
  | ended
  /-- A read failed. -/
  | failed (failure : Failure)
  deriving DecidableEq, Repr

/-- The bytes that a reader took before it stopped, and the reader afterwards. -/
structure Stretch where
  /-- The bytes, without the stop byte. -/
  bytes : Bytes
  /-- Why it stopped. -/
  stop : Stop
  /-- The reader afterwards. -/
  reader : Reader
  deriving DecidableEq, Repr

/-- A look through bytes that have arrived. -/
structure Sighting where
  /-- The bytes without a stop byte, reversed and put before those gathered earlier. -/
  gathered : Bytes
  /-- How many bytes have been consumed, a stop byte included. -/
  consumed : Nat
  /-- The stop byte and the bytes behind it. -/
  found : Option (UInt8 × Bytes)
  deriving DecidableEq, Repr

/-- Looks for a stop byte among bytes that have arrived. -/
def Sighting.among (stops : UInt8 → Bool) (gathered : Bytes) (consumed : Nat) :
    Bytes → Sighting
  | [] => ⟨gathered, consumed, none⟩
  | b :: rest =>
    if stops b then ⟨gathered, consumed + 1, some (b, rest)⟩
    else among stops (b :: gathered) (consumed + 1) rest

/-- Goes through the events until a stop byte is found. -/
def Stretch.ofSighting (stops : UInt8 → Bool) (seen : Sighting) : List Event → Stretch
  | [] =>
    match seen.found with
    | some (b, rest) => ⟨seen.gathered.reverse, .at b, ⟨rest, [], seen.consumed⟩⟩
    | none => ⟨seen.gathered.reverse, .ended, ⟨[], [], seen.consumed⟩⟩
  | event :: events =>
    match seen.found with
    | some (b, rest) => ⟨seen.gathered.reverse, .at b, ⟨rest, event :: events, seen.consumed⟩⟩
    | none =>
      match event with
      | .ended => ⟨seen.gathered.reverse, .ended, ⟨[], events, seen.consumed⟩⟩
      | .data [] => ⟨seen.gathered.reverse, .ended, ⟨[], events, seen.consumed⟩⟩
      | .data (b :: bytes) =>
        ofSighting stops (.among stops seen.gathered seen.consumed (b :: bytes)) events
      | .failure failure =>
        if failure.isInterruption then ofSighting stops seen events
        else ⟨seen.gathered.reverse, .failed failure, ⟨[], events, seen.consumed⟩⟩

/-- Takes the bytes up to a stop byte, which is consumed too. -/
def Reader.takeUntil (stops : UInt8 → Bool) (reader : Reader) : Stretch :=
  Stretch.ofSighting stops (.among stops [] reader.consumed reader.buffered) reader.events

/-! ### Skipping a byte -/

/-- Waits for bytes until the input ends or fails; a failure is handed back. -/
def Reader.await (consumed : Nat) : List Event → Option Failure × Reader
  | [] => (none, ⟨[], [], consumed⟩)
  | .ended :: events => (none, ⟨[], events, consumed⟩)
  | .data bytes :: events => (none, ⟨bytes, events, consumed⟩)
  | .failure failure :: events =>
    if failure.isInterruption then await consumed events
    else (some failure, ⟨[], events, consumed⟩)

/-- Makes sure that bytes have arrived, unless the input ends or fails first. -/
def Reader.fill (reader : Reader) : Option Failure × Reader :=
  match reader.buffered with
  | [] => await reader.consumed reader.events
  | _ :: _ => (none, reader)

/-- Consumes the byte `b` if it comes next, and hands back a failure to look. -/
def Reader.skip (b : UInt8) (reader : Reader) : Option Failure × Reader :=
  match reader.fill with
  | (some failure, reader) => (some failure, reader)
  | (none, reader) =>
    match reader.buffered with
    | first :: rest =>
      if first = b then (none, { reader with buffered := rest, consumed := reader.consumed + 1 })
      else (none, reader)
    | [] => (none, reader)

end LicenseHeader
