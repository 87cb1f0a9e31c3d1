import LicenseHeader.Text.Utf8

/-!
# Cursors

A cursor is a place between two symbols of a haystack, with what stands on either side. The
same patterns search two kinds of haystack: lines, whose symbols are scalars, and file
names, whose symbols are bytes. `Symbol` says what matching asks of a symbol.

## Main definitions

* `Symbol`: what matching asks of a haystack, with its instances for `Char` and `UInt8`.
* `Cursor`: a place in a haystack.
* `Cursor.positions`: all places from a cursor to the end.

## Main results

* `Cursor.eq_of_place_eq`: the places of one haystack are told apart by their numbers.
* `Cursor.mem_positions`: the positions from a cursor are the places no further left.
-/

namespace LicenseHeader

/-! ### Symbols -/

/-- What matching asks of the symbols of a haystack. -/
class Symbol (α : Type) where
  /-- The scalar that begins a stretch of symbols, and how many of them spell it. -/
  scalarAfter : List α → Option (Char × Nat)
  /-- The scalar that stands before a place, given the symbols before it, the nearest
  first. -/
  scalarBefore : List α → Option Char
  /-- The byte that a symbol is, unless it takes more than one. -/
  byte? : α → Option UInt8

/-- In a line every symbol is a scalar, and those of ASCII are bytes as well. -/
instance instSymbolChar : Symbol Char where
  scalarAfter
    | [] => none
    | c :: _ => some (c, 1)
  scalarBefore := List.head?
  byte? c := if c.toNat < 0x80 then some c.toNat.toUInt8 else none

/-- In a byte string a scalar is what the decoder finds. -/
instance instSymbolByte : Symbol UInt8 where
  scalarAfter := Utf8.front?
  scalarBefore := Utf8.back?
  byte? := some

/-! ### Cursors -/

/-- A place in a haystack. -/
structure Cursor (α : Type) where
  /-- The symbols before the place, the nearest first. -/
  before : List α
  /-- The symbols after the place. -/
  after : List α
  /-- How many symbols stand before the place. -/
  place : Nat
  /-- The count is that of the symbols. -/
  place_eq : place = before.length
  deriving DecidableEq

namespace Cursor

variable {α : Type}

/-- The place before the first symbol. -/
def start (haystack : List α) : Cursor α :=
  ⟨[], haystack, 0, rfl⟩

/-- One symbol further, or the same place at the end. -/
def forward : Cursor α → Cursor α
  | ⟨before, a :: after, place, h⟩ => ⟨a :: before, after, place + 1, by simp [h]⟩
  | ⟨before, [], place, h⟩ => ⟨before, [], place, h⟩

/-- Some symbols further, or the end. -/
def forwardBy : Nat → Cursor α → Cursor α
  | 0, c => c
  | n + 1, c => forwardBy n c.forward

/-- Adds to `passed`, which is reversed, the places from a cursor to the end; `ahead` holds
the symbols after it. -/
def positionsFrom (passed : List (Cursor α)) (c : Cursor α) : List α → List (Cursor α)
  | [] => (c :: passed).reverse
  | _ :: ahead => positionsFrom (c :: passed) c.forward ahead

/-- All places from a cursor to the end, from left to right. -/
def positions (c : Cursor α) : List (Cursor α) :=
  positionsFrom [] c c.after

/-- The haystack that a cursor stands in. -/
def haystack (c : Cursor α) : List α :=
  c.before.reverse ++ c.after

/-! ### Places of one haystack -/

/-- The first place stands in its haystack. -/
@[simp] theorem haystack_start (haystack : List α) : (start haystack).haystack = haystack := by
  simp [start, Cursor.haystack]

/-- Moving on does not leave the haystack. -/
@[simp] theorem haystack_forward (c : Cursor α) : c.forward.haystack = c.haystack := by
  obtain ⟨before, _ | ⟨a, after⟩, place, h⟩ := c <;> simp [forward, haystack]

/-- Moving on by several symbols does not leave the haystack. -/
@[simp] theorem haystack_forwardBy (n : Nat) (c : Cursor α) :
    (c.forwardBy n).haystack = c.haystack := by
  induction n generalizing c with
  | zero => rfl
  | succ n ih => rw [forwardBy, ih, haystack_forward]

/-- The places of one haystack are told apart by their numbers. -/
theorem eq_of_place_eq {c d : Cursor α} (hay : c.haystack = d.haystack)
    (h : c.place = d.place) : c = d := by
  obtain ⟨b, a, p, hp⟩ := c
  obtain ⟨b', a', p', hp'⟩ := d
  simp only [haystack] at hay h
  have hlen : b.reverse.length = b'.reverse.length := by simp; omega
  obtain ⟨hb, ha⟩ := List.append_inj hay hlen
  have hb' : b = b' := List.reverse_inj.mp hb
  subst hb' ha h
  rfl

/-- Before the end, moving on passes one symbol. -/
theorem forward_of_after_cons {c : Cursor α} {a : α} {after : List α}
    (h : c.after = a :: after) : c.forward.place = c.place + 1 ∧ c.forward.after = after := by
  obtain ⟨b, _, p, hp⟩ := c
  simp only at h
  subst h
  exact ⟨rfl, rfl⟩

/-- What stands before a place and behind it makes up the haystack. -/
theorem place_add_length (c : Cursor α) : c.place + c.after.length = c.haystack.length := by
  rw [c.place_eq, haystack, List.length_append, List.length_reverse]

/-- What stands behind a place is the haystack without what stands before it. -/
theorem after_eq_drop (c : Cursor α) : c.after = c.haystack.drop c.place := by
  rw [c.place_eq, haystack, ← List.length_reverse, List.drop_left]

/-- As long as there are symbols, moving on passes as many as asked. -/
theorem forwardBy_of_le {n : Nat} {c : Cursor α} (h : n ≤ c.after.length) :
    (c.forwardBy n).place = c.place + n := by
  induction n generalizing c with
  | zero => rfl
  | succ n ih =>
    cases hc : c.after with
    | nil => simp [hc] at h
    | cons a after =>
      obtain ⟨hp, ha⟩ := forward_of_after_cons hc
      rw [forwardBy, ih (by rw [ha]; simp [hc] at h; omega), hp]
      omega

/-- The places passed earlier stand before the others. -/
theorem positionsFrom_eq (passed : List (Cursor α)) (c : Cursor α) (ahead : List α) :
    positionsFrom passed c ahead = passed.reverse ++ positionsFrom [] c ahead := by
  induction ahead generalizing passed c with
  | nil => simp [positionsFrom]
  | cons a ahead ih =>
    rw [positionsFrom, ih, positionsFrom, ih [c]]
    simp

/-- At the end there is one place left. -/
theorem positions_of_after_nil {c : Cursor α} (h : c.after = []) : c.positions = [c] := by
  simp [positions, h, positionsFrom]

/-- Before the end, the places left are this one and those behind it. -/
theorem positions_of_after_cons {c : Cursor α} {a : α} {after : List α}
    (h : c.after = a :: after) : c.positions = c :: c.forward.positions := by
  rw [positions, h, positionsFrom, positionsFrom_eq]
  simp [positions, (forward_of_after_cons h).2]

/-- The places left are those of the haystack that lie no further left. -/
theorem mem_positions {c d : Cursor α} :
    d ∈ c.positions ↔ d.haystack = c.haystack ∧ c.place ≤ d.place := by
  generalize hn : c.after = ahead
  induction ahead generalizing c with
  | nil =>
    rw [positions_of_after_nil hn, List.mem_singleton]
    constructor
    · rintro rfl
      exact ⟨rfl, Nat.le_refl _⟩
    · rintro ⟨hay, le⟩
      have h1 := place_add_length c
      have h2 := place_add_length d
      rw [hn] at h1
      rw [hay] at h2
      exact eq_of_place_eq hay (by simp at h1; omega)
  | cons a after ih =>
    obtain ⟨hp, ha⟩ := forward_of_after_cons hn
    rw [positions_of_after_cons hn, List.mem_cons, ih ha, haystack_forward, hp]
    constructor
    · rintro (rfl | ⟨hay, le⟩)
      · exact ⟨rfl, Nat.le_refl _⟩
      · exact ⟨hay, by omega⟩
    · rintro ⟨hay, le⟩
      rcases Nat.eq_or_lt_of_le le with h | h
      · exact .inl (eq_of_place_eq hay h.symm)
      · exact .inr ⟨hay, h⟩

/-- The places left stand in the same haystack. -/
theorem haystack_of_mem_positions {c d : Cursor α} (h : d ∈ c.positions) :
    d.haystack = c.haystack := by
  rw [mem_positions] at h
  exact h.1

/-- The places left are given from left to right. -/
theorem positions_ascending (c : Cursor α) :
    c.positions.Pairwise (fun d e => d.place < e.place) := by
  generalize hn : c.after = ahead
  induction ahead generalizing c with
  | nil => rw [positions_of_after_nil hn]; simp
  | cons a after ih =>
    obtain ⟨hp, ha⟩ := forward_of_after_cons hn
    rw [positions_of_after_cons hn, List.pairwise_cons]
    refine ⟨fun d hd => ?_, ih _ ha⟩
    rw [mem_positions] at hd
    omega

end Cursor

end LicenseHeader
