import LicenseHeader.Text.DecimalDigit

/-!
# Sets put together of ranges

A set of numbers is kept as ranges in a canonical form, and membership relies on this form: a
number below the first range is given up at once. Putting a range in keeps the form, whatever
the range overlaps, and adds the numbers of the range and no others. So a union of ranges has
just the numbers of these ranges.

The table of decimal digits lists the zeros of the scripts. Runs of ten digits that touch
become one range, and yet a decimal digit is what the table says: one of the ten from some zero
on (`isDecimalDigit_iff`).

## Main definitions

* `Ranges.Canonical`: ranges in order, with something left out between them.
* `InDigitRun`: the digits of the scripts of the table.

## Main results

* `Ranges.covers_union`: membership in a union.
* `isDecimalDigit_iff`: the decimal digits.
-/

namespace LicenseHeader

namespace Ranges

/-- The ranges are in order, and between a range and what is behind it a number is left out. -/
def Canonical : Ranges → Prop
  | [] => True
  | (lo, hi) :: ranges => lo ≤ hi ∧ (∀ n, covers ranges n = true → hi + 1 < n) ∧ Canonical ranges

/-- A range that is put in adds its numbers. Induction on the ranges: the new range stands in
front of the first one, or behind it, or becomes one with it. -/
theorem covers_insert {ranges : Ranges} (h : ranges.Canonical) {lo hi : Nat} (hle : lo ≤ hi)
    (n : Nat) :
    (ranges.insert lo hi).covers n = true ↔ (lo ≤ n ∧ n ≤ hi) ∨ ranges.covers n = true := by
  induction ranges generalizing lo hi with
  | nil => simp [insert, covers]
  | cons range ranges ih =>
      obtain ⟨first, last⟩ := range
      obtain ⟨hrange, hbehind, hcanonical⟩ := h
      have hn := hbehind n
      rw [insert]
      by_cases hfront : hi + 1 < first
      · rw [if_pos hfront, covers_cons, covers_cons]
        grind
      rw [if_neg hfront]
      by_cases hapart : last + 1 < lo
      · rw [if_pos hapart, covers_cons, covers_cons, ih hcanonical hle]
        grind
      · rw [if_neg hapart, covers_cons, ih hcanonical (by omega)]
        grind

/-- Putting a range in keeps the form. -/
theorem Canonical.insert {ranges : Ranges} (h : ranges.Canonical) {lo hi : Nat} (hle : lo ≤ hi) :
    (ranges.insert lo hi).Canonical := by
  induction ranges generalizing lo hi with
  | nil => exact ⟨hle, fun n hn => absurd hn Bool.false_ne_true, trivial⟩
  | cons range ranges ih =>
      obtain ⟨first, last⟩ := range
      obtain ⟨hrange, hbehind, hcanonical⟩ := id h
      rw [Ranges.insert]
      by_cases hfront : hi + 1 < first
      · rw [if_pos hfront]
        refine ⟨hle, fun n hn => ?_, h⟩
        exact Nat.lt_of_lt_of_le hfront (covers_cons.mp hn).1
      rw [if_neg hfront]
      by_cases hapart : last + 1 < lo
      · rw [if_pos hapart]
        refine ⟨hrange, fun n hn => ?_, ih hcanonical hle⟩
        rcases (covers_insert hcanonical hle n).mp hn with ⟨hlo, -⟩ | hcovers
        · exact Nat.lt_of_lt_of_le hapart hlo
        · exact hbehind n hcovers
      · rw [if_neg hapart]
        exact ih hcanonical (by omega)

/-- **A union of ranges has the numbers of the ranges.** Induction on the ranges that are put
in, the last of them first. -/
theorem covers_union {added ranges : Ranges} (hadded : ∀ range ∈ added, range.1 ≤ range.2)
    (h : ranges.Canonical) :
    (added.union ranges).Canonical ∧ ∀ n, (added.union ranges).covers n = true ↔
      (∃ range ∈ added, range.1 ≤ n ∧ n ≤ range.2) ∨ ranges.covers n = true := by
  induction added with
  | nil => exact ⟨h, fun n => by simp [union]⟩
  | cons range added ih =>
      obtain ⟨hrange, hothers⟩ := List.forall_mem_cons.mp hadded
      obtain ⟨hcanonical, hcovers⟩ := ih hothers
      refine ⟨hcanonical.insert hrange, fun n => ?_⟩
      have hcons : Ranges.union (range :: added) ranges =
          (Ranges.union added ranges).insert range.1 range.2 := rfl
      rw [hcons, covers_insert hcanonical hrange, hcovers]
      simp only [List.mem_cons, exists_eq_or_imp, or_assoc]

end Ranges

/-- A number is one of the ten digits of a script. -/
def InDigitRun (n : Nat) : Prop :=
  ∃ first ∈ digitZeros, first ≤ n ∧ n ≤ first + 9

instance (n : Nat) : Decidable (InDigitRun n) :=
  inferInstanceAs (Decidable (∃ first ∈ digitZeros, first ≤ n ∧ n ≤ first + 9))

/-- **A decimal digit is one of the ten digits of a script.** -/
theorem isDecimalDigit_iff {n : Nat} : isDecimalDigit n = true ↔ InDigitRun n := by
  have hruns : ∀ run ∈ digitZeros.map fun first => (first, first + 9), run.1 ≤ run.2 := by
    rw [List.forall_mem_map]
    exact fun first _ => Nat.le_add_right first 9
  obtain ⟨-, hcovers⟩ := @Ranges.covers_union _ [] hruns trivial
  rw [isDecimalDigit, digitRanges, hcovers]
  constructor
  · rintro (⟨run, hrun, hn⟩ | hnone)
    · obtain ⟨first, hfirst, rfl⟩ := List.mem_map.mp hrun
      exact ⟨first, hfirst, hn⟩
    · exact absurd hnone Bool.false_ne_true
  · rintro ⟨first, hfirst, hn⟩
    exact .inl ⟨(first, first + 9), List.mem_map_of_mem hfirst, hn⟩

end LicenseHeader
