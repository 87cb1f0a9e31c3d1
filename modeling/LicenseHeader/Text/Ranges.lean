/-!
# Sets of numbers

A set of numbers is kept as its ranges, from left to right, each with both ends included,
and with something left out between any two of them. A set has one such form.

## Main definitions

* `Ranges`: sets of numbers.
* `Ranges.covers`: membership.
* `Ranges.insert`, `Ranges.union`, `Ranges.complement`: operations on sets.
-/

namespace LicenseHeader

/-- Ranges of numbers with both ends included, in ascending order and apart from each
other. -/
abbrev Ranges := List (Nat × Nat)

namespace Ranges

/-- Whether a number is in a set. -/
def covers : Ranges → Nat → Bool
  | [], _ => false
  | (lo, hi) :: ranges, n => if n < lo then false else n ≤ hi || covers ranges n

/-- A number is in a set if it is in the first range or behind it in a later one. -/
theorem covers_cons {lo hi n : Nat} {ranges : Ranges} :
    covers ((lo, hi) :: ranges) n = true ↔ lo ≤ n ∧ (n ≤ hi ∨ covers ranges n = true) := by
  rw [covers]
  by_cases hlo : n < lo
  · rw [if_pos hlo]
    constructor
    · intro hfalse
      exact absurd hfalse Bool.false_ne_true
    · rintro ⟨hle, -⟩
      exact absurd hlo (Nat.not_lt.mpr hle)
  · rw [if_neg hlo, Bool.or_eq_true, decide_eq_true_eq]
    exact (and_iff_right (Nat.not_lt.mp hlo)).symm

/-- A set of one range has the numbers between its ends. -/
theorem covers_singleton {lo hi n : Nat} :
    covers [(lo, hi)] n = true ↔ lo ≤ n ∧ n ≤ hi := by
  rw [covers_cons]
  simp [covers]

/-- The set with a range put in; ranges that it overlaps or touches become one with it. -/
def insert (lo hi : Nat) : Ranges → Ranges
  | [] => [(lo, hi)]
  | (a, b) :: ranges =>
    if hi + 1 < a then (lo, hi) :: (a, b) :: ranges
    else if b + 1 < lo then (a, b) :: insert lo hi ranges
    else insert (min lo a) (max hi b) ranges

/-- The numbers in either of two sets. -/
def union (xs ys : Ranges) : Ranges :=
  xs.foldr (fun (lo, hi) ranges => insert lo hi ranges) ys

/-- What a set leaves out of the numbers from `first` to `last`. -/
def gaps (first last : Nat) : Ranges → Ranges
  | [] => if first ≤ last then [(first, last)] else []
  | (lo, hi) :: ranges =>
    if first < lo then (first, lo - 1) :: gaps (hi + 1) last ranges
    else gaps (hi + 1) last ranges

/-- The numbers up to `last` that are not in a set. -/
def complement (last : Nat) (ranges : Ranges) : Ranges :=
  gaps 0 last ranges

end Ranges

end LicenseHeader
