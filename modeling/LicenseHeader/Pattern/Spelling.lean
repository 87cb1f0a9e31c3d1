import LicenseHeader.Pattern.CharClass

/-!
# Spellings

How UTF-8 spells the scalars of a class: every range of scalars falls into sequences of byte
ranges, such that a scalar is in the range if and only if its bytes follow one of the
sequences. The sequences come in ascending order, and where two of them first differ their
byte ranges are apart.

## Main definitions

* `Spelling`: a sequence of byte ranges.
* `CharClass.spellings`: the sequences that spell the scalars of a class.
* `groupByFirst`: sequences by what they begin with.
-/

namespace LicenseHeader

/-- Ranges of bytes in a row, each with both ends included. -/
abbrev Spelling := List (Nat × Nat)

/-- The sequences that spell the numbers from `lo` to `hi` by one byte above `base` and then
by `following` continuation bytes, of six bits each. A stretch whose continuation bytes are
all free is one sequence; the parts at both ends that are not are spelled on their own. -/
def spellingsFrom (base : Nat) : Nat → Nat → Nat → List Spelling
  | 0, lo, hi => [[(base + lo, base + hi)]]
  | following + 1, lo, hi =>
    let block := 64 ^ (following + 1)
    let first := lo / block
    let last := hi / block
    let behind (digit lo hi : Nat) : List Spelling :=
      (spellingsFrom 0x80 following lo hi).map ((base + digit, base + digit) :: ·)
    if first = last then behind first (lo % block) (hi % block)
    else
      let first' := if lo % block = 0 then first else first + 1
      let last' := if hi % block + 1 = block then last + 1 else last
      (if first' = first then [] else behind first (lo % block) (block - 1)) ++
        (if first' < last' then
          [(base + first', base + last' - 1) :: List.replicate (following + 1) (0x80, 0xBF)]
        else []) ++
        if last' = last then behind last 0 (hi % block) else []

/-- The scalars by the number of their bytes: the least and the greatest, the base of their
first byte, and how many continuation bytes follow it. Between the third and the fourth row
lie the surrogates, which are no scalars. -/
def scalarsByWidth : List (Nat × Nat × Nat × Nat) :=
  [(0, 0x7F, 0, 0), (0x80, 0x7FF, 0xC0, 1), (0x800, 0xD7FF, 0xE0, 2),
   (0xE000, 0xFFFF, 0xE0, 2), (0x10000, 0x10FFFF, 0xF0, 3)]

/-- The sequences that spell the scalars from `lo` to `hi`. -/
def rangeSpellings (lo hi : Nat) : List Spelling :=
  scalarsByWidth.flatMap fun (least, greatest, base, following) =>
    if max lo least ≤ min hi greatest then
      spellingsFrom base following (max lo least) (min hi greatest)
    else []

/-- The sequences that spell the scalars of a class. -/
def CharClass.spellings (cls : CharClass) : List Spelling :=
  cls.ranges.flatMap fun (lo, hi) => rangeSpellings lo hi

/-- Sequences by what they begin with: each first range, together with what follows it in the
sequences that begin with it. Sequences that begin alike stand side by side. -/
def groupByFirst : List Spelling → List ((Nat × Nat) × List Spelling)
  | [] => []
  | [] :: spellings => groupByFirst spellings
  | (first :: rest) :: spellings =>
    match groupByFirst spellings with
    | (first', rests) :: groups =>
      if first = first' then (first, rest :: rests) :: groups
      else (first, [rest]) :: (first', rests) :: groups
    | [] => [(first, [rest])]

end LicenseHeader
