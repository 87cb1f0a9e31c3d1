import LicenseHeader.Text.Blank
import LicenseHeader.Text.Word

/-!
# Character classes

A class says which single characters a pattern accepts at one place. It stands for whole
Unicode scalars or for single bytes, and where it stands for bytes the named sets shrink to
their ASCII parts. A class is made from its items: their union is taken, then case is
folded, and negation comes last.

## Main definitions

* `ClassItem`: a range or a named set.
* `CharClass`: a set of scalars or of bytes.
* `CharClass.ofItems`: the class of some items.
* `CharClass.contains`: membership, by number.
-/

namespace LicenseHeader

/-- One item of a character class. -/
inductive ClassItem where
  /-- The numbers from `lo` to `hi`, both included. -/
  | range (lo hi : Nat)
  /-- Decimal digits, or all else. -/
  | digit (negated : Bool)
  /-- White space, or all else. -/
  | blank (negated : Bool)
  /-- Word characters, or all else. -/
  | word (negated : Bool)
  deriving DecidableEq, Repr

/-- A set of characters. -/
structure CharClass where
  /-- Whether the class stands for one whole scalar, and not for one byte. -/
  scalars : Bool
  /-- The numbers of the characters. -/
  ranges : Ranges
  deriving DecidableEq, Repr

/-! ### Items -/

/-- The greatest number of a scalar or a byte. -/
def lastNumber (scalars : Bool) : Nat :=
  if scalars then 0x10FFFF else 0xFF

/-- A named set, or all that it leaves out. -/
def namedRanges (scalars negated : Bool) (named ascii : Ranges) : Ranges :=
  let ranges := if scalars then named else ascii
  if negated then ranges.complement (lastNumber scalars) else ranges

/-- The numbers in an item. Over bytes the named sets are those of ASCII. -/
def ClassItem.ranges (scalars : Bool) : ClassItem → Ranges
  | .range lo hi => [(lo, hi)]
  | .digit negated => namedRanges scalars negated digitRanges asciiDigitRanges
  | .blank negated => namedRanges scalars negated blankRanges asciiBlankRanges
  | .word negated => namedRanges scalars negated wordRanges asciiWordRanges

/-! ### Folding of case -/

/-- The other case of an ASCII letter, and everything else unchanged. -/
def swapCase (n : Nat) : Nat :=
  if 0x41 ≤ n && n ≤ 0x5A then n + 32
  else if 0x61 ≤ n && n ≤ 0x7A then n - 32
  else n

/-- The numbers that fold together with `n`, itself among them. Beyond ASCII these are the
Kelvin sign, which folds with `k`, and the long s, which folds with `s`. -/
def caseVariants (scalars : Bool) (n : Nat) : List Nat :=
  if scalars && (n == 0x4B || n == 0x6B || n == 0x212A) then [0x4B, 0x6B, 0x212A]
  else if scalars && (n == 0x53 || n == 0x73 || n == 0x17F) then [0x53, 0x73, 0x17F]
  else [n, swapCase n]

/-- The numbers that may fold together with others. -/
def foldingNumbers (scalars : Bool) : List Nat :=
  (List.range 26).map (0x41 + ·) ++ (List.range 26).map (0x61 + ·) ++
    if scalars then [0x17F, 0x212A] else []

/-- The set with all numbers put in that fold together with some of it. -/
def foldCase (scalars : Bool) (ranges : Ranges) : Ranges :=
  (foldingNumbers scalars).foldl
    (fun folded n =>
      if (caseVariants scalars n).any ranges.covers then Ranges.insert n n folded else folded)
    ranges

/-! ### Classes -/

namespace CharClass

/-- Whether a number is in a class. -/
def contains (cls : CharClass) (n : Nat) : Bool :=
  cls.ranges.covers n

/-- The class of some items. -/
def ofItems (scalars folded negated : Bool) (items : List ClassItem) : CharClass :=
  let ranges := items.foldl (fun ranges item => (item.ranges scalars).union ranges) []
  let ranges := if folded then foldCase scalars ranges else ranges
  ⟨scalars, if negated then ranges.complement (lastNumber scalars) else ranges⟩

/-- Whether all characters of a class are of ASCII. -/
def isAscii (cls : CharClass) : Bool :=
  cls.ranges.all fun (_, hi) => hi < 0x80

/-- Every character but the line feed. -/
def dot (scalars : Bool) : CharClass :=
  ofItems scalars false true [.range 0x0A 0x0A]

/-- Every character. -/
def all (scalars : Bool) : CharClass :=
  ofItems scalars false true []

end CharClass

end LicenseHeader
