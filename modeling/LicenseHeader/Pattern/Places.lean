import LicenseHeader.Pattern.Cursor

/-!
# Sets of places

A set of places in one haystack is kept as a list from left to right, in which a place
stands at most once. All operations go through such lists once, and work on what they have
gathered in reverse.

## Main definitions

* `Places`, `Places.Of`: sets of places in a haystack.
* `Places.union`, `Places.difference`: the union and difference of two sets.
* `Places.times`, `Places.atMost`, `Places.closure`: the places that so many, at most so
  many, or any number of steps lead to.

## Main results

* `Places.mem_union`, `Places.Of.union`: the union holds what either set holds.
* `Places.mem_difference`: the difference holds what the first set holds alone.
-/

namespace LicenseHeader

/-- Places of one haystack from left to right, each at most once. -/
abbrev Places (α : Type) := List (Cursor α)

namespace Places

variable {α : Type}

/-! ### Definitions -/

/-- The places that lie to the left of another one. -/
def leftOf (c : Cursor α) (places : Places α) : Places α :=
  places.takeWhile fun d => d.place < c.place

/-- The places that lie to the right of another one. -/
def rightOf (c : Cursor α) (places : Places α) : Places α :=
  places.dropWhile fun d => d.place ≤ c.place

/-- Merges two sets behind `merged`, which is reversed and lies to the left of both. -/
def unionFrom (merged : Places α) : Places α → Places α → Places α
  | [], ys => merged.reverseAux ys
  | x :: xs, ys => unionFrom (x :: (leftOf x ys).reverseAux merged) xs (rightOf x ys)

/-- The places in either of two sets. -/
def union (xs ys : Places α) : Places α :=
  unionFrom [] xs ys

/-- Goes through the first set and keeps what is not in the second; `kept` is reversed. -/
def differenceFrom (kept : Places α) : Places α → Places α → Places α
  | [], _ => kept.reverse
  | x :: xs, ys =>
    let ys := ys.dropWhile fun y => y.place < x.place
    if ys.head?.any fun y => y.place == x.place then differenceFrom kept xs ys
    else differenceFrom (x :: kept) xs ys

/-- The places in the first set that are not in the second. -/
def difference (xs ys : Places α) : Places α :=
  differenceFrom [] xs ys

/-- Whether two sets hold the same places. -/
def same : Places α → Places α → Bool
  | [], [] => true
  | x :: xs, y :: ys => x.place == y.place && same xs ys
  | _, _ => false

/-- Takes one step from all of `frontier` at a time and goes on from the places that are
new. Of the places reached so far `passed`, which is reversed, holds those to the left of
the frontier, where no step leads any more, and `reached` holds the others. The leftmost
place of the frontier moves to the right in every round, and the symbols in `room` stand
for the places that are still to the right of it. -/
def closureFrom (step : Places α → Places α) (passed reached : Places α) :
    List α → Places α → Places α
  | [], _ => passed.reverseAux reached
  | _ :: room, frontier =>
    match difference (step frontier) reached with
    | [] => passed.reverseAux reached
    | c :: new =>
      closureFrom step ((leftOf c reached).reverseAux passed)
        (union (reached.dropWhile fun d => d.place < c.place) (c :: new)) room (c :: new)

/-- The places that any number of steps lead to from a set of places. -/
def closure (step : Places α → Places α) (places : Places α) : Places α :=
  match places with
  | [] => []
  | c :: _ => closureFrom step [] places c.after places

/-- The places that exactly `n` steps lead to. A set without a place, or one that a step
does not change, stays what it is. -/
def times (step : Places α → Places α) : Nat → Places α → Places α
  | 0, places => places
  | n + 1, places =>
    let next := step places
    if next.isEmpty then []
    else if same next places then places
    else times step n next

/-- Adds to `reached` the places that one to `n` more steps lead to from `places`. -/
def atMost (step : Places α → Places α) (reached : Places α) : Nat → Places α → Places α
  | 0, _ => reached
  | n + 1, places =>
    let next := step places
    if next.isEmpty then reached
    else if same next places then reached
    else atMost step (union reached next) n next

/-! ### Sets of places in a haystack -/

/-- Places of a haystack from left to right, each at most once. -/
structure Of (haystack : List α) (places : Places α) : Prop where
  /-- They are places of the haystack. -/
  haystack_eq : ∀ c ∈ places, c.haystack = haystack
  /-- They go from left to right. -/
  ascending : places.Pairwise fun c d => c.place < d.place

/-- The empty set is one of any haystack. -/
theorem Of.nil (haystack : List α) : Of haystack [] :=
  ⟨by simp, .nil⟩

/-- A place and a set to the right of it make up a set. -/
theorem Of.cons {haystack : List α} {c : Cursor α} {places : Places α}
    (hay : c.haystack = haystack) (lt : ∀ d ∈ places, c.place < d.place)
    (h : Of haystack places) : Of haystack (c :: places) :=
  ⟨List.forall_mem_cons.mpr ⟨hay, h.haystack_eq⟩, List.pairwise_cons.mpr ⟨lt, h.ascending⟩⟩

/-- A set that is not empty has its leftmost place in front, and the others are a set too. -/
theorem Of.uncons {haystack : List α} {c : Cursor α} {places : Places α}
    (h : Of haystack (c :: places)) :
    c.haystack = haystack ∧ (∀ d ∈ places, c.place < d.place) ∧ Of haystack places := by
  obtain ⟨hay, rest⟩ := List.forall_mem_cons.mp h.haystack_eq
  obtain ⟨lt, ascending⟩ := List.pairwise_cons.mp h.ascending
  exact ⟨hay, lt, rest, ascending⟩

/-- One place of a haystack is a set. -/
theorem Of.singleton {haystack : List α} {c : Cursor α} (hay : c.haystack = haystack) :
    Of haystack [c] :=
  .cons hay (List.forall_mem_nil _) (.nil haystack)

/-- Leaving places out keeps the order. -/
theorem Of.sublist {haystack : List α} {xs ys : Places α} (h : Of haystack ys)
    (hs : xs.Sublist ys) : Of haystack xs :=
  ⟨fun c hc => h.haystack_eq c (hs.subset hc), h.ascending.sublist hs⟩

/-- Two sets of one haystack share the places that have the same number. -/
theorem Of.eq_of_place_eq {haystack : List α} {xs ys : Places α} (hx : Of haystack xs)
    (hy : Of haystack ys) {c d : Cursor α} (hc : c ∈ xs) (hd : d ∈ ys)
    (h : c.place = d.place) : c = d :=
  Cursor.eq_of_place_eq ((hx.haystack_eq c hc).trans (hy.haystack_eq d hd).symm) h

/-- A set and another one to the right of it make up a set. -/
theorem Of.append {haystack : List α} {xs ys : Places α} (hx : Of haystack xs)
    (hy : Of haystack ys) (h : ∀ c ∈ xs, ∀ d ∈ ys, c.place < d.place) :
    Of haystack (xs ++ ys) := by
  refine ⟨fun c hc => ?_, List.pairwise_append.mpr ⟨hx.ascending, hy.ascending, h⟩⟩
  rcases List.mem_append.mp hc with hc | hc
  · exact hx.haystack_eq c hc
  · exact hy.haystack_eq c hc

/-- All places from a cursor on are a set. -/
theorem Of.positions (c : Cursor α) : Of c.haystack c.positions :=
  ⟨fun _ hd => Cursor.haystack_of_mem_positions hd, c.positions_ascending⟩

/-! ### Left and right -/

/-- The places to the left of another one are those with smaller numbers. -/
theorem mem_leftOf {haystack : List α} {ys : Places α} (hy : Of haystack ys)
    {c d : Cursor α} : d ∈ leftOf c ys ↔ d ∈ ys ∧ d.place < c.place := by
  induction ys with
  | nil => simp [leftOf]
  | cons y ys ih =>
    obtain ⟨-, lt, hys⟩ := hy.uncons
    have ih := ih hys
    unfold leftOf at ih ⊢
    by_cases h : y.place < c.place
    · rw [List.takeWhile_cons_of_pos (by simpa using h)]
      grind
    · rw [List.takeWhile_cons_of_neg (by simpa using h)]
      grind

/-- What is not to the left of a number has at least that number. -/
theorem mem_dropWhile_lt {haystack : List α} {ys : Places α} (hy : Of haystack ys)
    {n : Nat} {d : Cursor α} :
    (d ∈ ys.dropWhile fun y => y.place < n) ↔ d ∈ ys ∧ n ≤ d.place := by
  induction ys with
  | nil => simp
  | cons y ys ih =>
    obtain ⟨-, lt, hys⟩ := hy.uncons
    have ih := ih hys
    by_cases h : y.place < n
    · rw [List.dropWhile_cons_of_pos (by simpa using h)]
      grind
    · rw [List.dropWhile_cons_of_neg (by simpa using h)]
      grind

/-- The places to the right of another one are those with greater numbers. -/
theorem mem_rightOf {haystack : List α} {ys : Places α} (hy : Of haystack ys)
    {c d : Cursor α} : d ∈ rightOf c ys ↔ d ∈ ys ∧ c.place < d.place := by
  have h : rightOf c ys = ys.dropWhile fun y => y.place < c.place + 1 := by
    simp only [rightOf, Nat.lt_add_one_iff]
  rw [h, mem_dropWhile_lt hy, Nat.succ_le_iff]

/-- The places to the left are some of the set. -/
theorem leftOf_sublist (c : Cursor α) (ys : Places α) : (leftOf c ys).Sublist ys :=
  List.takeWhile_sublist _

/-- The places to the right are some of the set. -/
theorem rightOf_sublist (c : Cursor α) (ys : Places α) : (rightOf c ys).Sublist ys :=
  List.dropWhile_sublist _

/-! ### Union -/

/-- What was merged earlier stands before the rest. -/
theorem unionFrom_eq (merged xs ys : Places α) :
    unionFrom merged xs ys = merged.reverse ++ union xs ys := by
  induction xs generalizing merged ys with
  | nil => simp [union, unionFrom]
  | cons x xs ih =>
    simp only [union, unionFrom]
    rw [ih, ih (x :: _)]
    simp

/-- Nothing is added by the empty set. -/
theorem union_nil_left (ys : Places α) : union [] ys = ys := by
  simp [union, unionFrom]

/-- A union has what lies to the left of a place, the place, and what lies to the right of
it. -/
theorem union_cons (x : Cursor α) (xs ys : Places α) :
    union (x :: xs) ys = leftOf x ys ++ x :: union xs (rightOf x ys) := by
  rw [union, unionFrom, unionFrom_eq]
  simp

/-- A union holds what either set holds. -/
theorem mem_union {haystack : List α} {xs ys : Places α} (hx : Of haystack xs)
    (hy : Of haystack ys) {d : Cursor α} : d ∈ union xs ys ↔ d ∈ xs ∨ d ∈ ys := by
  induction xs generalizing ys with
  | nil => simp [union_nil_left]
  | cons x xs ih =>
    obtain ⟨hay, -, hxs⟩ := hx.uncons
    rw [union_cons, List.mem_append, List.mem_cons, mem_leftOf hy,
      ih hxs (hy.sublist (rightOf_sublist x ys)), mem_rightOf hy, List.mem_cons]
    constructor
    · rintro (⟨h, -⟩ | rfl | h | ⟨h, -⟩)
      · exact .inr h
      · exact .inl (.inl rfl)
      · exact .inl (.inr h)
      · exact .inr h
    · rintro ((rfl | h) | h)
      · exact .inr (.inl rfl)
      · exact .inr (.inr (.inl h))
      · rcases Nat.lt_trichotomy d.place x.place with h' | h' | h'
        · exact .inl ⟨h, h'⟩
        · exact .inr (.inl (Cursor.eq_of_place_eq ((hy.haystack_eq d h).trans hay.symm) h'))
        · exact .inr (.inr (.inr ⟨h, h'⟩))

/-- The union of two sets is a set. -/
theorem Of.union {haystack : List α} {xs ys : Places α} (hx : Of haystack xs)
    (hy : Of haystack ys) : Of haystack (union xs ys) := by
  induction xs generalizing ys with
  | nil => rwa [union_nil_left]
  | cons x xs ih =>
    obtain ⟨hay, lt, hxs⟩ := hx.uncons
    have hr := hy.sublist (rightOf_sublist x ys)
    have htail : ∀ d ∈ Places.union xs (rightOf x ys), x.place < d.place := by
      intro d hd
      rcases (mem_union hxs hr).mp hd with h | h
      · exact lt d h
      · exact ((mem_rightOf hy).mp h).2
    rw [union_cons]
    refine (hy.sublist (leftOf_sublist x ys)).append (.cons hay htail (ih hxs hr)) ?_
    intro c hc d hd
    have hc := ((mem_leftOf hy).mp hc).2
    rcases List.mem_cons.mp hd with rfl | hd
    · exact hc
    · exact Nat.lt_trans hc (htail d hd)

/-! ### Difference -/

/-- What was kept earlier stands before the rest. -/
theorem differenceFrom_eq (kept xs ys : Places α) :
    differenceFrom kept xs ys = kept.reverse ++ difference xs ys := by
  induction xs generalizing kept ys with
  | nil => simp [difference, differenceFrom]
  | cons x xs ih =>
    simp only [difference, differenceFrom]
    split
    · exact ih _ _
    · rw [ih, ih [x]]
      simp

/-- A difference is part of the first set. -/
theorem difference_sublist (xs ys : Places α) : (difference xs ys).Sublist xs := by
  induction xs generalizing ys with
  | nil => simp [difference, differenceFrom]
  | cons x xs ih =>
    simp only [difference, differenceFrom]
    split
    · exact (ih _).cons x
    · rw [differenceFrom_eq]
      exact (ih _).cons_cons x

/-- The leftmost place that is not to the left of `x` is `x`, if the set holds it. -/
theorem head_dropWhile_lt {haystack : List α} {x : Cursor α} {ys : Places α}
    (hx : x.haystack = haystack) (hy : Of haystack ys) :
    ((ys.dropWhile fun y => y.place < x.place).head?.any fun y => y.place == x.place) = true ↔
      x ∈ ys := by
  have hd := hy.sublist (List.dropWhile_sublist fun y => decide (y.place < x.place))
  have hm := fun d => mem_dropWhile_lt (d := d) (n := x.place) hy
  generalize (ys.dropWhile fun y => decide (y.place < x.place)) = zs at hd hm ⊢
  cases zs with
  | nil =>
    have := (not_congr (hm x)).mp (by simp)
    simp at this ⊢
    exact this
  | cons z zs =>
    obtain ⟨hz, lt, -⟩ := hd.uncons
    simp only [List.head?_cons, Option.any_some, beq_iff_eq]
    constructor
    · intro h
      have : z = x := Cursor.eq_of_place_eq (hz.trans hx.symm) h
      exact this ▸ ((hm z).mp (by simp)).1
    · intro h
      have h1 := ((hm z).mp (by simp)).2
      rcases List.mem_cons.mp ((hm x).mpr ⟨h, Nat.le_refl _⟩) with h | h
      · rw [h]
      · have := lt x h
        omega

/-- A difference holds what the first set holds alone. -/
theorem mem_difference {haystack : List α} {xs ys : Places α} (hx : Of haystack xs)
    (hy : Of haystack ys) {d : Cursor α} : d ∈ difference xs ys ↔ d ∈ xs ∧ d ∉ ys := by
  induction xs generalizing ys with
  | nil => simp [difference, differenceFrom]
  | cons x xs ih =>
    obtain ⟨hay, lt, hxs⟩ := hx.uncons
    have hd := hy.sublist (List.dropWhile_sublist fun y => decide (y.place < x.place))
    have hm : ∀ e ∈ xs, ((e ∈ ys.dropWhile fun y => y.place < x.place) ↔ e ∈ ys) := by
      intro e he
      rw [mem_dropWhile_lt hy]
      exact ⟨fun h => h.1, fun h => ⟨h, Nat.le_of_lt (lt e he)⟩⟩
    have ih : d ∈ difference xs (ys.dropWhile fun y => y.place < x.place) ↔
        d ∈ xs ∧ d ∉ ys := by
      rw [ih hxs hd]
      exact and_congr_right fun h => not_congr (hm d h)
    have hhead := head_dropWhile_lt hay hy
    unfold difference differenceFrom
    simp only
    split
    · next h =>
      have hxy := hhead.mp h
      rw [← difference, ih, List.mem_cons]
      constructor
      · exact fun h => ⟨.inr h.1, h.2⟩
      · rintro ⟨rfl | h1, h2⟩
        · exact absurd hxy h2
        · exact ⟨h1, h2⟩
    · next h =>
      have hxy := (not_congr hhead).mp h
      rw [differenceFrom_eq, List.mem_append, ih, List.mem_cons]
      constructor
      · rintro (h | h)
        · have : d = x := by simpa using h
          exact ⟨.inl this, this ▸ hxy⟩
        · exact ⟨.inr h.1, h.2⟩
      · rintro ⟨rfl | h1, h2⟩
        · exact .inl (by simp)
        · exact .inr ⟨h1, h2⟩

/-! ### Comparison -/

/-- Sets of one haystack that hold the same places are equal. -/
theorem eq_of_same {haystack : List α} {xs ys : Places α} (hx : Of haystack xs)
    (hy : Of haystack ys) (h : same xs ys = true) : xs = ys := by
  induction xs generalizing ys with
  | nil => cases ys <;> simp_all [same]
  | cons x xs ih =>
    cases ys with
    | nil => simp [same] at h
    | cons y ys =>
      obtain ⟨hay, -, hxs⟩ := hx.uncons
      obtain ⟨hay', -, hys⟩ := hy.uncons
      simp only [same, Bool.and_eq_true, beq_iff_eq] at h
      rw [Cursor.eq_of_place_eq (hay.trans hay'.symm) h.1, ih hxs hys h.2]

end Places

end LicenseHeader
