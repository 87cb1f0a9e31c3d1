import LicenseHeader.Pattern.Chain
import LicenseHeader.Pattern.CharClass
import LicenseHeader.Pattern.Cursor

/-!
# Patterns

A pattern describes stretches of a haystack. What a stretch is captured as, and which of
several stretches is preferred, plays no part here: a header check only asks whether a
pattern is found at all.

The meaning of a pattern is the relation `Pattern.Spans` between the place where a stretch
begins and the place where it ends. It is said once for lines and byte strings.

## Main definitions

* `WordEdge`, `Assertion`: conditions on a place.
* `Pattern`: the patterns.
* `Pattern.Spans`: the stretches that a pattern describes.
* `Pattern.FoundIn`: whether a haystack holds such a stretch.
-/

namespace LicenseHeader

/-! ### Assertions -/

/-- How the word characters on the two sides of a place may be spread. -/
inductive WordEdge where
  /-- One on exactly one side. -/
  | boundary
  /-- One on both sides or on none. -/
  | noBoundary
  /-- One behind the place, and none before it. -/
  | start
  /-- One before the place, and none behind it. -/
  | finish
  deriving DecidableEq, Repr

/-- A condition on a place. -/
inductive Assertion where
  /-- The beginning of the haystack. -/
  | textStart
  /-- The end of the haystack. -/
  | textEnd
  /-- The beginning of the haystack, or behind a line feed. -/
  | lineStart
  /-- The end of the haystack, or in front of a line feed. -/
  | lineEnd
  /-- An edge of words, which are made of scalars or else of ASCII bytes. -/
  | word (edge : WordEdge) (scalars : Bool)
  deriving DecidableEq, Repr

/-! ### Patterns -/

/-- What can be looked for in a haystack. -/
inductive Pattern where
  /-- The empty stretch. -/
  | empty
  /-- One character of a class. -/
  | one (cls : CharClass)
  /-- The empty stretch at a place that fulfils a condition. -/
  | look (assertion : Assertion)
  /-- One stretch and then another. -/
  | seq (p q : Pattern)
  /-- A stretch of either kind. -/
  | alt (p q : Pattern)
  /-- So many stretches in a row and then further ones, at most `more` if that is given. -/
  | repeated (p : Pattern) (least : Nat) (more : Option Nat)
  deriving DecidableEq, Repr

/-- The pattern of items one after the other, given from the last to the first. -/
def Pattern.sequence (reversed : List Pattern) : Pattern :=
  reversed.foldl (fun rest p => .seq p rest) .empty

/-- The pattern of any of several branches, of which `last` stands behind the others and
those are given from the last to the first. -/
def Pattern.alternatives (reversed : List Pattern) (last : Pattern) : Pattern :=
  reversed.foldl (fun rest p => .alt p rest) last

/-! ### Conditions on a place -/

section Places

variable {α : Type} [Symbol α]

/-- Whether a symbol is the line feed. -/
def Symbol.isLineFeed (a : α) : Bool :=
  Symbol.byte? a == some lineFeed

/-- Whether a word character stands right before a place. -/
def Cursor.wordBefore (scalars : Bool) (c : Cursor α) : Bool :=
  if scalars then (Symbol.scalarBefore c.before).any fun ch => isWord ch.toNat
  else (c.before.head?.bind Symbol.byte?).any fun b => isAsciiWord b.toNat

/-- Whether a word character stands right behind a place. -/
def Cursor.wordAfter (scalars : Bool) (c : Cursor α) : Bool :=
  if scalars then (Symbol.scalarAfter c.after).any fun ch => isWord ch.1.toNat
  else (c.after.head?.bind Symbol.byte?).any fun b => isAsciiWord b.toNat

/-- Whether a place has a scalar or an end of the haystack on either side. Between other
bytes it cannot be said that there is no boundary of words. -/
def Cursor.betweenScalars (c : Cursor α) : Bool :=
  (c.before.isEmpty || (Symbol.scalarBefore c.before).isSome) &&
    (c.after.isEmpty || (Symbol.scalarAfter c.after).isSome)

/-- Whether a place fulfils a condition. -/
def Assertion.holds (c : Cursor α) : Assertion → Bool
  | .textStart => c.before.isEmpty
  | .textEnd => c.after.isEmpty
  | .lineStart => c.before.head?.all Symbol.isLineFeed
  | .lineEnd => c.after.head?.all Symbol.isLineFeed
  | .word .boundary scalars => c.wordBefore scalars != c.wordAfter scalars
  | .word .noBoundary scalars =>
    (!scalars || c.betweenScalars) && c.wordBefore scalars == c.wordAfter scalars
  | .word .start scalars => !c.wordBefore scalars && c.wordAfter scalars
  | .word .finish scalars => c.wordBefore scalars && !c.wordAfter scalars

/-- The place behind one character of a class, if such a character comes next. -/
def Cursor.take? (cls : CharClass) (c : Cursor α) : Option (Cursor α) :=
  if cls.scalars then
    match Symbol.scalarAfter c.after with
    | some (ch, width) => if cls.contains ch.toNat then some (c.forwardBy width) else none
    | none => none
  else
    match c.after.head?.bind Symbol.byte? with
    | some b => if cls.contains b.toNat then some c.forward else none
    | none => none

/-! ### Meaning -/

/-- The stretches that a pattern describes, from the place `c` to the place `d`. -/
def Pattern.Spans : Pattern → Cursor α → Cursor α → Prop
  | .empty, c, d => d = c
  | .one cls, c, d => c.take? cls = some d
  | .look assertion, c, d => d = c ∧ assertion.holds c = true
  | .seq p q, c, d => ∃ e, p.Spans c e ∧ q.Spans e d
  | .alt p q, c, d => p.Spans c d ∨ q.Spans c d
  | .repeated p least more, c, d =>
    ∃ n, (∀ m, more = some m → n ≤ m) ∧ Chain p.Spans (least + n) c d

/-- A haystack in which some place begins a stretch that a pattern describes. -/
def Pattern.FoundIn (p : Pattern) (haystack : List α) : Prop :=
  ∃ c d : Cursor α, c.haystack = haystack ∧ p.Spans c d

end Places

end LicenseHeader
