import LicenseHeader.Pattern.Outline
import LicenseHeader.Pattern.Spelling

/-!
# Footprints

How much memory the automata for a pattern would take. Two are counted: one that goes forward
and remembers groups, and one that goes backward and does not. Both are made of states of one
size, and states that branch take more for each of their branches. A repetition is written out
as often as its counts say, so the footprint of a short pattern can be very large; it is added
up from the outline, and no automaton is built.

## Main definitions

* `Direction`: the two automata.
* `CharClass.footprint`: the states for one character of a class.
* `Outline.footprint`: the states for an outline.
* `Outline.automatonSize`: a whole automaton.
* `Outline.isTooLarge`: whether one of the two exceeds the limit.
-/

namespace LicenseHeader

/-- The automata for a pattern. -/
inductive Direction where
  /-- The one that reads a haystack from left to right. -/
  | forward
  /-- The one that reads it from right to left. -/
  | backward
  deriving DecidableEq, Repr

/-! ### Sizes -/

/-- The bytes of a state. -/
def stateSize : Nat := 32

/-- The bytes of a step from one state to another on a range of bytes. -/
def stepSize : Nat := 8

/-- The bytes of a branch that takes no character. -/
def branchSize : Nat := 4

/-- The most bytes that an automaton may take: ten mebibytes. -/
def largestAutomaton : Nat := 10 * 1024 * 1024

/-! ### Classes -/

/-- A state that reads one byte: its steps, each with the range of bytes and the number of the
state that follows. -/
abbrev ByteState := List ((Nat × Nat) × Nat)

/-- The number of the state that reads the remaining byte ranges of some spellings, at most
`width` in each, and all states so far. States that read the same are one, and the state
behind a whole scalar has the number zero. -/
def stateFor : Nat → List Spelling → List ByteState → Nat × List ByteState
  | 0, _, states => (0, states)
  | width + 1, spellings, states =>
    match groupByFirst spellings with
    | [] => (0, states)
    | groups =>
      let (steps, states) := groups.foldl
        (fun (steps, states) (range, rests) =>
          let (next, states) := stateFor width rests states
          ((range, next) :: steps, states))
        (([] : ByteState), states)
      match states.findIdx? (· = steps) with
      | some index => (states.length - index, states)
      | none => (states.length + 1, steps :: states)

/-- In how many ways spellings begin, counting the beginnings of every length. -/
def beginnings : Nat → List Spelling → Nat
  | 0, _ => 0
  | width + 1, spellings =>
    (groupByFirst spellings).foldl (fun count (_, rests) => count + 1 + beginnings width rests) 0

/-- The most bytes that spell a scalar. -/
def greatestWidth : Nat := 4

/-- The states for one character of a class. Bytes and the scalars of ASCII are read by a single
state. Forward, spellings share the states that read what they end with, and backward those
that read what they begin with. -/
def CharClass.footprint (direction : Direction) (cls : CharClass) : Nat :=
  if !cls.scalars || cls.isAscii then 2 * stateSize + cls.ranges.length * stepSize
  else
    let spellings := cls.spellings
    match direction with
    | .forward =>
      let (_, states) := stateFor greatestWidth spellings []
      let steps := states.foldr (fun state steps => state.length + steps) 0
      (states.length + 1) * stateSize + steps * stepSize
    | .backward =>
      (beginnings greatestWidth spellings + 2) * stateSize + spellings.length * branchSize

/-! ### Choices between literals -/

/-- The remainders of literals behind a first byte, put in front of those in `groups`. -/
def putRemainder (b : UInt8) (rest : Bytes) :
    List (UInt8 × List Bytes) → List (UInt8 × List Bytes)
  | [] => [(b, [rest])]
  | (b', rests) :: groups =>
    if b = b' then (b', rest :: rests) :: groups
    else (b', rests) :: putRemainder b rest groups

/-- The remainders of literals by their first bytes, in chunks. A literal that is at its end
begins a new chunk, since it goes before the literals behind it. -/
def literalChunks : List Bytes → List (List (UInt8 × List Bytes))
  | [] => [[]]
  | literal :: literals =>
    match literal, literalChunks literals with
    | [], chunks => [] :: chunks
    | b :: rest, chunk :: chunks => putRemainder b rest chunk :: chunks
    | b :: rest, [] => [putRemainder b rest []]

/-- The states that tell literals of at most `length` bytes apart, byte by byte. Each state
branches to its chunks, and between two chunks to the end. -/
def literalsFootprint : Nat → List Bytes → Nat
  | 0, _ => 0
  | length + 1, literals =>
    let chunks := literalChunks literals
    if chunks.all List.isEmpty then 0
    else
      chunks.foldl
        (fun sum chunk =>
          let own :=
            match chunk with
            | [] => 0
            | [_] => stateSize + branchSize
            | chunk => stateSize + branchSize + chunk.length * stepSize
          chunk.foldl (fun sum (_, rests) => sum + literalsFootprint length rests) (sum + own))
        (stateSize + (chunks.length - 1) * branchSize)

/-! ### Outlines -/

/-- The bytes of a literal. -/
def Outline.literal? : Outline → Option Bytes
  | .literal bytes => some bytes
  | _ => none

/-- The literals that all branches of a choice are, as a direction reads them. -/
def Outline.literals? (direction : Direction) (o : Outline) : Option (List Bytes) :=
  (o.branches.mapM Outline.literal?).map fun literals =>
    match direction with
    | .forward => literals
    | .backward => literals.map List.reverse

/-- The states for a repetition of something of the footprint `body`; `isTaking` says whether
that takes some character every time. -/
def repetitionFootprint (isTaking : Bool) (body least : Nat) : Option Nat → Nat
  | none =>
    match least with
    | 0 =>
      if isTaking then body + stateSize + 2 * branchSize
      else body + 3 * stateSize + 4 * branchSize
    | least => least * body + stateSize + 2 * branchSize
  | some 0 => least * body
  | some more =>
    if least = 0 ∧ more = 1 then body + 2 * stateSize + 2 * branchSize
    else
      (if least = 0 then stateSize else least * body) + stateSize +
        more * (body + stateSize + 2 * branchSize)

/-- The states for an outline, and `sum` besides. The branches of one choice lie side by side,
so that only the first of them, which is not `chained` to another one, counts the two states
that they share. -/
def Outline.footprintFrom (direction : Direction) (chained : Bool) (sum : Nat) : Outline → Nat
  | .alt o rest =>
    let shared := if chained then 0 else 2 * stateSize
    match if chained then none else (Outline.alt o rest).literals? direction with
    | some literals =>
      sum + stateSize +
        literalsFootprint ((literals.map List.length).foldl max 0 + 1) literals
    | none =>
      rest.footprintFrom direction true
        (o.footprintFrom direction false (sum + shared + branchSize))
  | .empty => (if chained then sum + branchSize else sum) + stateSize
  | .look _ => (if chained then sum + branchSize else sum) + stateSize
  | .literal bytes => (if chained then sum + branchSize else sum) + bytes.length * stateSize
  | .oneOf cls => (if chained then sum + branchSize else sum) + cls.footprint direction
  | .group _ o =>
    let sum := if chained then sum + branchSize else sum
    match direction with
    | .forward => o.footprintFrom .forward false (sum + 2 * stateSize)
    | .backward => o.footprintFrom .backward false sum
  | .repeated o least more =>
    (if chained then sum + branchSize else sum) +
      repetitionFootprint (o.needsCharacter && !o.isHopeless)
        (o.footprintFrom direction false 0) least more
  | .seq o rest =>
    rest.footprintFrom direction false
      (o.footprintFrom direction false (if chained then sum + branchSize else sum))
termination_by structural o => o

/-- The states for an outline. -/
def Outline.footprint (direction : Direction) (o : Outline) : Nat :=
  o.footprintFrom direction false 0

/-- The bytes of the automaton that searches for an outline. One that cannot begin just anywhere
begins with a single state, and any other one with a loop over all bytes. Then come the whole
stretch, as a group where groups are remembered, and the state that accepts. -/
def Outline.automatonSize (direction : Direction) (o : Outline) : Nat :=
  let isAnchored :=
    match direction with
    | .forward => o.beginsAtStart
    | .backward => o.finishesAtEnd false
  let loop := if isAnchored then stateSize else 3 * stateSize + stepSize + 2 * branchSize
  let whole :=
    match direction with
    | .forward => 2 * stateSize
    | .backward => 0
  loop + whole + o.footprint direction + stateSize

/-- Whether an automaton for an outline takes more than the limit. -/
def Outline.isTooLarge (o : Outline) : Bool :=
  largestAutomaton < o.automatonSize .forward || largestAutomaton < o.automatonSize .backward

end LicenseHeader
