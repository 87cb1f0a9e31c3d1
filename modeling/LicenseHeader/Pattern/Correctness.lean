import LicenseHeader.Pattern.Closure
import LicenseHeader.Pattern.Search

/-!
# The search finds what patterns describe

The search follows all stretches of a haystack at once; the meaning of a pattern speaks of
one stretch at a time. Both agree: a set of places is advanced to just the places where
stretches end that begin in it. This asks of symbols that scalars which are spelled by
several of them never overlap, so that classes keep places in order.

## Main definitions

* `LawfulSymbol`: symbols whose scalars do not overlap.

## Main results

* `Pattern.follows_advance`: advancing a set of places follows the meaning of a pattern.
* `Pattern.isIn_iff`: a pattern is found in a haystack if and only if some stretch of the
  haystack is described by it.
-/

namespace LicenseHeader

/-! ### Scalars do not overlap -/

/-- Symbols whose scalars have a width, do not overlap and stand by themselves. -/
class LawfulSymbol (α : Type) [Symbol α] : Prop where
  /-- A scalar is spelled by some of the symbols. -/
  width_le : ∀ {as : List α} {c : Char} {width : Nat},
    Symbol.scalarAfter as = some (c, width) → 0 < width ∧ width ≤ as.length
  /-- No scalar begins inside another one. -/
  not_inside : ∀ {as : List α} {c : Char} {width : Nat},
    Symbol.scalarAfter as = some (c, width) → ∀ k, 0 < k → k < width →
      Symbol.scalarAfter (as.drop k) = none
  /-- Whether some symbols spell a scalar has nothing to do with those behind them. -/
  append : ∀ (word rest : List α) (c : Char),
    Symbol.scalarAfter (word ++ rest) = some (c, word.length) ↔
      Symbol.scalarAfter word = some (c, word.length)

instance instLawfulSymbolChar : LawfulSymbol Char where
  width_le {as c width} h := by
    cases as with
    | nil => simp [Symbol.scalarAfter] at h
    | cons a as =>
      simp only [Symbol.scalarAfter, Option.some.injEq, Prod.mk.injEq] at h
      simp [← h.2]
  not_inside {as c width} h k hk hkw := by
    cases as with
    | nil => simp [Symbol.scalarAfter] at h
    | cons a as =>
      simp only [Symbol.scalarAfter, Option.some.injEq, Prod.mk.injEq] at h
      omega
  append word rest c := by
    cases word with
    | nil => cases rest <;> simp [Symbol.scalarAfter]
    | cons a word => rfl

namespace Utf8

/-- A state inside a scalar in which only continuation bytes are in bounds. -/
def State.Bounded : State → Prop
  | .ready => False
  | .inside _ _ lo hi => 0x80 ≤ lo ∧ hi ≤ 0xBF

/-- A first byte that is not complete by itself leaves bounds on the next one. -/
theorem bounded_of_lead {b : UInt8} {state : State} (h : lead b = .partway state) :
    state.Bounded := by
  unfold lead at h
  simp only at h
  split at h
  · simp at h
  · split at h
    · simp at h
    · split at h
      · simp only [Progress.partway.injEq] at h
        simp [← h, State.Bounded]
      · split at h
        · simp only [Progress.partway.injEq] at h
          rw [← h]
          simp only [State.Bounded]
          split <;> split <;> omega
        · split at h
          · simp only [Progress.partway.injEq] at h
            rw [← h]
            simp only [State.Bounded]
            split <;> split <;> omega
          · simp at h

/-- A continuation byte begins no scalar. -/
theorem front?_of_isContinuation {b : UInt8} {rest : Bytes} (h : isContinuation b = true) :
    front? (b :: rest) = none := by
  simp only [isContinuation, decide_eq_true_eq] at h
  have hl : lead b = .broken := by
    unfold lead
    simp only
    rw [if_neg (by omega)]
    by_cases hb : b.toNat < 0xC2
    · rw [if_pos hb]
    · omega
  simp [front?, frontFrom, State.step, hl]

/-- Inside a scalar all bytes up to its end are continuation bytes. -/
theorem frontFrom_inside {state : State} (hs : state.Bounded) {bytes : Bytes} {n : Nat}
    {c : Char} {width : Nat} (h : frontFrom state n bytes = some (c, width)) :
    n < width ∧ width ≤ n + bytes.length ∧
      ∀ k, k < width - n → ∃ b, bytes[k]? = some b ∧ isContinuation b = true := by
  induction bytes generalizing state n with
  | nil => simp [frontFrom] at h
  | cons b rest ih =>
    cases state with
    | ready => exact absurd hs (by simp [State.Bounded])
    | inside value more lo hi =>
      obtain ⟨hlo, hhi⟩ := hs
      simp only [frontFrom, State.step] at h
      by_cases hb : lo ≤ b.toNat ∧ b.toNat ≤ hi
      · have hcont : isContinuation b = true := by
          simp only [isContinuation, decide_eq_true_eq]
          omega
        simp only [hb, and_self, if_true] at h
        cases more with
        | zero =>
          simp only [Option.some.injEq, Prod.mk.injEq] at h
          refine ⟨by omega, by simp; omega, fun k hk => ⟨b, ?_, hcont⟩⟩
          have : k = 0 := by omega
          simp [this]
        | succ more =>
          obtain ⟨h1, h2, h3⟩ := ih (by simp [State.Bounded]) h
          refine ⟨by omega, by simp; omega, fun k hk => ?_⟩
          cases k with
          | zero => exact ⟨b, by simp, hcont⟩
          | succ k =>
            obtain ⟨d, hd, hc⟩ := h3 k (by omega)
            exact ⟨d, by simpa using hd, hc⟩
      · simp [hb] at h

/-- All bytes of a scalar but the first are continuation bytes. -/
theorem front?_continues {bytes : Bytes} {c : Char} {width : Nat}
    (h : front? bytes = some (c, width)) :
    0 < width ∧ width ≤ bytes.length ∧
      ∀ k, 0 < k → k < width → ∃ b, bytes[k]? = some b ∧ isContinuation b = true := by
  cases bytes with
  | nil => simp [front?, frontFrom] at h
  | cons b rest =>
    simp only [front?, frontFrom, State.step] at h
    split at h
    · simp only [Option.some.injEq, Prod.mk.injEq] at h
      refine ⟨by omega, by simp; omega, fun k hk hkw => by omega⟩
    · next state hl =>
      obtain ⟨h1, h2, h3⟩ := frontFrom_inside (bounded_of_lead hl) h
      refine ⟨by omega, by simp; omega, fun k hk hkw => ?_⟩
      obtain ⟨d, hd, hc⟩ := h3 (k - 1) (by omega)
      refine ⟨d, ?_, hc⟩
      cases k with
      | zero => omega
      | succ k => simpa using hd
    · simp at h

/-- A scalar takes at least one more byte. -/
theorem lt_of_frontFrom {state : State} {width n : Nat} {bytes : Bytes} {c : Char}
    (h : frontFrom state width bytes = some (c, n)) : width < n := by
  induction bytes generalizing state width with
  | nil => exact absurd h (by simp [frontFrom])
  | cons b bytes ih =>
    rw [frontFrom] at h
    cases hstep : state.step b with
    | scalar d =>
      simp only [hstep, Option.some.injEq, Prod.mk.injEq] at h
      omega
    | partway state =>
      simp only [hstep] at h
      have := ih h
      omega
    | broken => simp [hstep] at h

/-- The machine does not look beyond the scalar that it completes. -/
theorem frontFrom_append {state : State} {width n : Nat} {word : Bytes} (rest : Bytes)
    {c : Char} (h : n ≤ width + word.length) :
    frontFrom state width (word ++ rest) = some (c, n) ↔
      frontFrom state width word = some (c, n) := by
  induction word generalizing state width with
  | nil =>
    constructor
    · intro hfront
      have := lt_of_frontFrom hfront
      simp at h
      omega
    · intro hnil
      exact absurd hnil (by simp [frontFrom])
  | cons b word ih =>
    simp only [List.cons_append, frontFrom]
    cases state.step b with
    | scalar d => rfl
    | partway state => exact ih (by simp at h; omega)
    | broken => rfl

end Utf8

instance instLawfulSymbolByte : LawfulSymbol UInt8 where
  width_le h := ⟨(Utf8.front?_continues h).1, (Utf8.front?_continues h).2.1⟩
  not_inside {as c width} h k hk hkw := by
    obtain ⟨b, hb, hc⟩ := (Utf8.front?_continues h).2.2 k hk hkw
    have hlt : k < as.length := (List.getElem?_eq_some_iff.mp hb).1
    have hget : as[k] = b := (List.getElem?_eq_some_iff.mp hb).2
    rw [List.drop_eq_getElem_cons hlt, hget]
    exact Utf8.front?_of_isContinuation hc
  append word rest c := Utf8.frontFrom_append rest (by simp)

/-! ### Single characters -/

section Search

variable {α : Type} [Symbol α]

/-- Taking a character stays in the haystack. -/
theorem Cursor.haystack_of_take? {cls : CharClass} {c d : Cursor α}
    (h : c.take? cls = some d) : d.haystack = c.haystack := by
  unfold Cursor.take? at h
  split at h
  · split at h
    · split at h
      · simp only [Option.some.injEq] at h
        rw [← h, haystack_forwardBy]
      · simp at h
    · simp at h
  · split at h
    · split at h
      · simp only [Option.some.injEq] at h
        rw [← h, haystack_forward]
      · simp at h
    · simp at h

variable [LawfulSymbol α]

/-- Taking a character leads to the right. -/
theorem Cursor.place_lt_of_take? {cls : CharClass} {c d : Cursor α}
    (h : c.take? cls = some d) : c.place < d.place := by
  unfold Cursor.take? at h
  split at h
  · split at h
    · next ch width hs =>
      obtain ⟨h1, h2⟩ := LawfulSymbol.width_le hs
      split at h
      · simp only [Option.some.injEq] at h
        rw [← h, forwardBy_of_le h2]
        omega
      · simp at h
    · simp at h
  · split at h
    · next b hb =>
      split at h
      · simp only [Option.some.injEq] at h
        cases ha : c.after with
        | nil => simp [ha] at hb
        | cons a after =>
          rw [← h, (forward_of_after_cons ha).1]
          omega
      · simp at h
    · simp at h

/-- Taking a character keeps the order of places. -/
theorem Cursor.place_lt_place_of_take? {cls : CharClass} {c d c' d' : Cursor α}
    (hay : c.haystack = c'.haystack) (lt : c.place < c'.place) (h : c.take? cls = some d)
    (h' : c'.take? cls = some d') : d.place < d'.place := by
  have hafter : c'.after = c.after.drop (c'.place - c.place) := by
    rw [c.after_eq_drop, c'.after_eq_drop, hay, List.drop_drop]
    congr 1
    omega
  have hright := place_lt_of_take? h'
  unfold Cursor.take? at h
  split at h
  · next hcls =>
    split at h
    · next ch width hs =>
      obtain ⟨h1, h2⟩ := LawfulSymbol.width_le hs
      split at h
      · simp only [Option.some.injEq] at h
        rw [← h, forwardBy_of_le h2]
        refine Nat.lt_of_le_of_lt (Nat.le_of_not_lt fun hlt => ?_) hright
        have hnone := LawfulSymbol.not_inside hs (c'.place - c.place) (by omega) (by omega)
        rw [← hafter] at hnone
        simp [Cursor.take?, hcls, hnone] at h'
      · simp at h
    · simp at h
  · split at h
    · next b hb =>
      split at h
      · simp only [Option.some.injEq] at h
        cases ha : c.after with
        | nil => simp [ha] at hb
        | cons a after =>
          rw [← h, (forward_of_after_cons ha).1]
          omega
      · simp at h
    · simp at h

/-! ### Patterns -/

variable {haystack : List α}

/-- A class of characters. -/
theorem Places.follows_filterMap_take? (cls : CharClass) :
    Places.Follows haystack (fun places => places.filterMap (Cursor.take? cls))
      fun c d => c.take? cls = some d where
  of {places} hp := by
    refine ⟨fun d hd => ?_, ?_⟩
    · obtain ⟨c, hc, h⟩ := List.mem_filterMap.mp hd
      exact (Cursor.haystack_of_take? h).trans (hp.haystack_eq c hc)
    · rw [List.pairwise_filterMap]
      refine hp.ascending.imp_of_mem fun {c c'} hc hc' lt d hd d' hd' => ?_
      exact Cursor.place_lt_place_of_take?
        ((hp.haystack_eq c hc).trans (hp.haystack_eq c' hc').symm) lt hd hd'
  mem hp d := List.mem_filterMap
  onward _ h := Nat.le_of_lt (Cursor.place_lt_of_take? h)

/-- **Advancing follows the meaning.** A set of places is advanced to the set of the ends of
the stretches that begin in it. -/
theorem Pattern.follows_advance (p : Pattern) :
    Places.Follows haystack p.advance p.Spans := by
  induction p with
  | empty =>
    refine ⟨fun h => h, fun _ d => ?_, fun _ h => h ▸ Nat.le_refl _⟩
    simp [advance, Spans]
  | one cls => exact Places.follows_filterMap_take? cls
  | look assertion =>
    refine ⟨fun h => h.sublist List.filter_sublist, fun _ d => ?_,
      fun _ h => h.1 ▸ Nat.le_refl _⟩
    simp only [advance, Spans, List.mem_filter]
    constructor
    · exact fun h => ⟨d, h.1, rfl, h.2⟩
    · rintro ⟨c, hc, rfl, h⟩
      exact ⟨hc, h⟩
  | seq p q hp hq =>
    refine ⟨fun h => hq.of (hp.of h), fun h d => ?_, fun {c d} hay h => ?_⟩
    · simp only [advance, Spans]
      rw [hq.mem (hp.of h)]
      constructor
      · rintro ⟨e, he, hd⟩
        obtain ⟨c, hc, hce⟩ := (hp.mem h e).mp he
        exact ⟨c, hc, e, hce, hd⟩
      · rintro ⟨c, hc, e, hce, hd⟩
        exact ⟨e, (hp.mem h e).mpr ⟨c, hc, hce⟩, hd⟩
    · obtain ⟨e, hce, hed⟩ := h
      have hc : Places.Of haystack [c] := .singleton hay
      have he := (hp.of hc).haystack_eq e ((hp.mem hc e).mpr ⟨c, by simp, hce⟩)
      exact Nat.le_trans (hp.onward hay hce) (hq.onward he hed)
  | alt p q hp hq =>
    refine ⟨fun h => (hp.of h).union (hq.of h), fun h d => ?_, fun hay h => ?_⟩
    · simp only [advance, Spans]
      rw [Places.mem_union (hp.of h) (hq.of h), hp.mem h, hq.mem h]
      constructor
      · rintro (⟨c, hc, hd⟩ | ⟨c, hc, hd⟩)
        · exact ⟨c, hc, .inl hd⟩
        · exact ⟨c, hc, .inr hd⟩
      · rintro ⟨c, hc, hd | hd⟩
        · exact .inl ⟨c, hc, hd⟩
        · exact .inr ⟨c, hc, hd⟩
    · rcases h with h | h
      · exact hp.onward hay h
      · exact hq.onward hay h
  | repeated p least more hp =>
    have honward : ∀ {c d : Cursor α}, c.haystack = haystack →
        (Pattern.repeated p least more).Spans c d → c.place ≤ d.place := by
      rintro c d hay ⟨n, -, h⟩
      refine (h.keeps (p := fun e => e.haystack = haystack ∧ c.place ≤ e.place) ?_
        ⟨hay, Nat.le_refl _⟩).2
      rintro e f ⟨he, hle⟩ hef
      have hs : Places.Of haystack [e] := .singleton he
      exact ⟨(hp.of hs).haystack_eq f ((hp.mem hs f).mpr ⟨e, by simp, hef⟩),
        Nat.le_trans hle (hp.onward he hef)⟩
    cases more with
    | none =>
      refine ⟨fun h => (h.times hp least).closure hp, fun h d => ?_, honward⟩
      simp only [advance, Spans]
      rw [Places.mem_closure hp (h.times hp least)]
      constructor
      · rintro ⟨n, e, he, hd⟩
        obtain ⟨c, hc, hce⟩ := (Places.mem_times hp h).mp he
        exact ⟨c, hc, n, by simp, hce.append hd⟩
      · rintro ⟨c, hc, n, -, hd⟩
        obtain ⟨e, hce, hed⟩ := hd.split
        exact ⟨n, e, (Places.mem_times hp h).mpr ⟨c, hc, hce⟩, hed⟩
    | some more =>
      refine ⟨fun h => (h.times hp least).atMost hp (h.times hp least) _, fun h d => ?_,
        honward⟩
      have ht := h.times hp least
      simp only [advance, Spans]
      rw [Places.mem_atMost hp ht ht fun _ h => h]
      constructor
      · rintro (hd | ⟨n, hn, e, he, hd⟩)
        · obtain ⟨c, hc, hcd⟩ := (Places.mem_times hp h).mp hd
          exact ⟨c, hc, 0, by simp, hcd⟩
        · obtain ⟨c, hc, hce⟩ := (Places.mem_times hp h).mp he
          refine ⟨c, hc, n, ?_, hce.append hd⟩
          rintro m ⟨⟩
          exact hn
      · rintro ⟨c, hc, n, hn, hd⟩
        obtain ⟨e, hce, hed⟩ := hd.split
        exact .inr ⟨n, hn more rfl, e, (Places.mem_times hp h).mpr ⟨c, hc, hce⟩, hed⟩

/-- **The search finds what patterns describe.** A pattern is found in a haystack if and
only if it describes some stretch of it. -/
theorem Pattern.isIn_iff (p : Pattern) (haystack : List α) :
    p.isIn haystack = true ↔ p.FoundIn haystack := by
  have hp : Places.Of haystack (Cursor.start haystack).positions := by
    simpa using Places.Of.positions (Cursor.start haystack)
  have hfollows : Places.Follows haystack p.advance p.Spans := p.follows_advance
  constructor
  · intro h
    cases hd : p.advance (Cursor.start haystack).positions with
    | nil => simp [isIn, hd] at h
    | cons d ds =>
      obtain ⟨c, hc, hcd⟩ := (hfollows.mem hp d).mp (by simp [hd])
      exact ⟨c, d, hp.haystack_eq c hc, hcd⟩
  · rintro ⟨c, d, hc, hcd⟩
    have hmem : c ∈ (Cursor.start haystack).positions :=
      Cursor.mem_positions.mpr ⟨by simpa using hc, by simp [Cursor.start]⟩
    have := (hfollows.mem hp d).mpr ⟨c, hmem, hcd⟩
    cases hd : p.advance (Cursor.start haystack).positions with
    | nil => simp [hd] at this
    | cons d ds => simp [isIn, hd]

end Search

end LicenseHeader
