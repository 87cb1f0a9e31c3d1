import LicenseHeader.Pattern.Correctness
import LicenseHeader.Proofs.Text.Cuts

/-!
# Words of patterns

The meaning of a pattern is a relation between places, since some patterns look at what
stands around them. A *plain* pattern, one without conditions on a place, does not: whether
it describes a stretch of a haystack is a matter of the word that stands there.
`Pattern.Spells` gives the words of a pattern without a haystack, and a plain pattern is
found in a haystack if and only if this contains one of its words
(`isIn_iff_contains_word`). So a search for a plain pattern is a search for words, wherever
they stand and whatever stands around them. A plain pattern between the two ends of the text
is found if and only if the haystack as a whole is one of its words (`isIn_whole_iff`).

All this holds for lines and byte strings alike. The words of a class are single symbols
over lines, and over byte strings as well if the class stands for bytes.

## Main definitions

* `CharClass.Spells`, `Pattern.Spells`: the words of a class and of a pattern.
* `Pattern.isPlain`: patterns without conditions on a place.
* `Pattern.whole`: patterns for a haystack as a whole.
* `Pattern.literal`: the pattern of a text.

## Main results

* `Pattern.spans_iff_reads`: a plain pattern describes the stretches of its words.
* `Pattern.isIn_iff_contains_word`, `Pattern.isIn_whole_iff`: searching for plain patterns.
* `Pattern.notMem_of_spells`: a symbol in no class of a pattern is in none of its words.
* `Pattern.isIn_append_cons`: such a symbol separates.
* `Pattern.spells_literal`: the words of a literal.
-/

namespace LicenseHeader

variable {α : Type}

/-! ### Words between places -/

namespace Cursor

/-- A word of a haystack stands between two places. -/
def Reads (c : Cursor α) (word : List α) (d : Cursor α) : Prop :=
  c.after = word ++ d.after ∧ d.before = word.reverse ++ c.before

variable {c d : Cursor α}

/-- A place is known by what stands on its two sides. -/
theorem eq_of_sides (hbefore : c.before = d.before) (hafter : c.after = d.after) : c = d := by
  have hplace : c.place = d.place := by rw [c.place_eq, d.place_eq, hbefore]
  exact eq_of_place_eq (by rw [haystack, haystack, hbefore, hafter]) hplace

/-- A word leads from one place to one other. -/
theorem Reads.unique {word : List α} {e : Cursor α} (hd : c.Reads word d)
    (he : c.Reads word e) : d = e :=
  eq_of_sides (hd.2.trans he.2.symm) (List.append_cancel_left (hd.1.symm.trans he.1))

/-- The empty word stands between a place and itself. -/
theorem reads_nil : c.Reads [] d ↔ d = c := by
  constructor
  · rintro ⟨hafter, hbefore⟩
    exact eq_of_sides hbefore hafter.symm
  · rintro rfl
    exact ⟨rfl, rfl⟩

/-- Two words stand one after the other if a place between them does. -/
theorem reads_append {front back : List α} :
    c.Reads (front ++ back) d ↔ ∃ e, c.Reads front e ∧ Reads e back d := by
  constructor
  · rintro ⟨hafter, hbefore⟩
    rw [List.append_assoc] at hafter
    rw [List.reverse_append, List.append_assoc] at hbefore
    exact ⟨⟨front.reverse ++ c.before, back ++ d.after, _, rfl⟩, ⟨hafter, rfl⟩, rfl, hbefore⟩
  · rintro ⟨e, ⟨hafter, hbefore⟩, hafter', hbefore'⟩
    refine ⟨?_, ?_⟩
    · rw [hafter, hafter', List.append_assoc]
    · rw [hbefore', hbefore, List.reverse_append, List.append_assoc]

/-- Moving on by some symbols reads them. -/
theorem reads_forwardBy {word rest : List α} (h : c.after = word ++ rest) :
    c.Reads word (c.forwardBy word.length) := by
  induction word generalizing c with
  | nil => exact reads_nil.mpr rfl
  | cons a word ih =>
      obtain ⟨before, _, place, hplace⟩ := c
      obtain rfl : _ = a :: (word ++ rest) := h
      have hrest : (forward ⟨before, a :: (word ++ rest), place, hplace⟩).after = word ++ rest := rfl
      exact (@reads_append α _ _ [a] word).mpr ⟨_, ⟨rfl, rfl⟩, ih hrest⟩

/-- A word stands between two places of a haystack if and only if this contains it. -/
theorem exists_reads_iff {word haystack : List α} :
    (∃ c d : Cursor α, c.haystack = haystack ∧ c.Reads word d) ↔ word <:+: haystack := by
  constructor
  · rintro ⟨c, d, rfl, hafter, -⟩
    exact ⟨c.before.reverse, d.after, by rw [Cursor.haystack, hafter, List.append_assoc]⟩
  · rintro ⟨front, back, rfl⟩
    refine ⟨⟨front.reverse, word ++ back, _, rfl⟩, ⟨word.reverse ++ front.reverse, back, _, rfl⟩,
      ?_, rfl, rfl⟩
    rw [Cursor.haystack, List.reverse_reverse, List.append_assoc]

end Cursor

/-! ### Classes -/

/-- A class of one number has no other one. -/
theorem CharClass.contains_single {scalars : Bool} {n m : Nat} :
    contains ⟨scalars, [(n, n)]⟩ m = true ↔ m = n := by
  rw [contains, Ranges.covers_singleton]
  omega

section Search

variable [Symbol α]

/-- The words of a class: those that spell one of its scalars, or one of its bytes. -/
def CharClass.Spells (cls : CharClass) (word : List α) : Prop :=
  if cls.scalars then
    ∃ ch, Symbol.scalarAfter word = some (ch, word.length) ∧ cls.contains ch.toNat = true
  else ∃ a b, word = [a] ∧ Symbol.byte? a = some b ∧ cls.contains b.toNat = true

/-- Taking a character of a class reads one of its words. -/
theorem Cursor.take?_eq_some_iff [LawfulSymbol α] {cls : CharClass} {c d : Cursor α} :
    c.take? cls = some d ↔ ∃ word, cls.Spells word ∧ c.Reads word d := by
  cases hscalars : cls.scalars with
  | true =>
      simp only [take?, CharClass.Spells, hscalars, if_true]
      constructor
      · intro htake
        rcases hafter : Symbol.scalarAfter c.after with _ | ⟨ch, width⟩
        · exact absurd htake (by simp [hafter])
        · simp only [hafter, Option.ite_none_right_eq_some, Option.some.injEq] at htake
          obtain ⟨hcontains, rfl⟩ := htake
          obtain ⟨-, hwidth⟩ := LawfulSymbol.width_le hafter
          have hlength : (c.after.take width).length = width := List.length_take_of_le hwidth
          have hreads := reads_forwardBy (List.take_append_drop width c.after).symm
          rw [hlength] at hreads
          refine ⟨c.after.take width, ⟨ch, ?_, hcontains⟩, hreads⟩
          rw [← LawfulSymbol.append _ (c.after.drop width), List.take_append_drop, hlength]
          exact hafter
      · rintro ⟨word, ⟨ch, hword, hcontains⟩, hreads⟩
        have hafter := (LawfulSymbol.append word d.after ch).mpr hword
        rw [← hreads.1] at hafter
        simp only [hafter, hcontains, if_true, Option.some.injEq]
        exact (reads_forwardBy hreads.1).unique hreads
  | false =>
      simp only [take?, CharClass.Spells, hscalars, Bool.false_eq_true, if_false]
      constructor
      · intro htake
        cases hbyte : c.after.head?.bind Symbol.byte? with
        | none => exact absurd htake (by simp [hbyte])
        | some b =>
            simp only [hbyte, Option.ite_none_right_eq_some, Option.some.injEq] at htake
            obtain ⟨hcontains, rfl⟩ := htake
            obtain ⟨a, hhead, ha⟩ := Option.bind_eq_some_iff.mp hbyte
            obtain ⟨rest, hrest⟩ := List.head?_eq_some_iff.mp hhead
            exact ⟨[a], ⟨a, b, rfl, ha, hcontains⟩, reads_forwardBy hrest⟩
      · rintro ⟨_, ⟨a, b, rfl, ha, hcontains⟩, hreads⟩
        have hbyte : c.after.head?.bind Symbol.byte? = some b := by rw [hreads.1]; exact ha
        simp only [hbyte, hcontains, if_true, Option.some.injEq]
        exact (reads_forwardBy hreads.1).unique hreads

/-! ### Words -/

namespace Pattern

/-- Whether a pattern has no condition on a place. -/
def isPlain : Pattern → Bool
  | .empty | .one _ => true
  | .look _ => false
  | .seq p q | .alt p q => p.isPlain && q.isPlain
  | .repeated p _ _ => p.isPlain

/-- The words of a pattern. Conditions on a place have none. -/
def Spells : Pattern → List α → Prop
  | .empty, word => word = []
  | .one cls, word => cls.Spells word
  | .look _, _ => False
  | .seq p q, word => ∃ front back, p.Spells front ∧ q.Spells back ∧ word = front ++ back
  | .alt p q, word => p.Spells word ∨ q.Spells word
  | .repeated p least more, word =>
    ∃ n, (∀ m, more = some m → n ≤ m) ∧
      ∃ words : List (List α), words.length = least + n ∧ (∀ w ∈ words, p.Spells w) ∧
        word = words.flatten

/-- Stretches in a row are words in a row. -/
theorem chain_iff_reads {p : Pattern}
    (h : ∀ {c d : Cursor α}, p.Spans c d ↔ ∃ word, p.Spells word ∧ c.Reads word d)
    {n : Nat} {c d : Cursor α} :
    Chain p.Spans n c d ↔
      ∃ words : List (List α), words.length = n ∧ (∀ w ∈ words, p.Spells w) ∧
        c.Reads words.flatten d := by
  induction n generalizing c with
  | zero =>
      constructor
      · intro hd
        exact ⟨[], rfl, List.forall_mem_nil _, Cursor.reads_nil.mpr hd⟩
      · rintro ⟨words, hlength, -, hreads⟩
        rw [List.length_eq_zero_iff.mp hlength] at hreads
        exact Cursor.reads_nil.mp hreads
  | succ n ih =>
      constructor
      · rintro ⟨e, hfirst, hrest⟩
        obtain ⟨word, hword, hreads⟩ := h.mp hfirst
        obtain ⟨words, rfl, hwords, hreads'⟩ := ih.mp hrest
        exact ⟨word :: words, rfl, List.forall_mem_cons.mpr ⟨hword, hwords⟩,
          Cursor.reads_append.mpr ⟨e, hreads, hreads'⟩⟩
      · rintro ⟨words, hlength, hwords, hreads⟩
        obtain ⟨word, rest, rfl⟩ := List.exists_cons_of_length_eq_add_one hlength
        obtain ⟨hword, hrest⟩ := List.forall_mem_cons.mp hwords
        obtain ⟨e, hfirst, hlater⟩ := Cursor.reads_append.mp hreads
        exact ⟨e, h.mpr ⟨word, hword, hfirst⟩,
          ih.mpr ⟨rest, Nat.succ.inj hlength, hrest, hlater⟩⟩

/-- **A plain pattern describes the stretches of its words.** Induction on the pattern. -/
theorem spans_iff_reads [LawfulSymbol α] {p : Pattern} (hp : p.isPlain = true)
    {c d : Cursor α} : p.Spans c d ↔ ∃ word, p.Spells word ∧ c.Reads word d := by
  induction p generalizing c d with
  | empty => simp [Spans, Spells, Cursor.reads_nil]
  | one cls => exact Cursor.take?_eq_some_iff
  | look assertion => exact absurd hp Bool.false_ne_true
  | seq p q ihp ihq =>
      obtain ⟨hp, hq⟩ := Bool.and_eq_true_iff.mp hp
      constructor
      · rintro ⟨e, hfirst, hlast⟩
        obtain ⟨front, hfront, hreads⟩ := (ihp hp).mp hfirst
        obtain ⟨back, hback, hreads'⟩ := (ihq hq).mp hlast
        exact ⟨front ++ back, ⟨front, back, hfront, hback, rfl⟩,
          Cursor.reads_append.mpr ⟨e, hreads, hreads'⟩⟩
      · rintro ⟨_, ⟨front, back, hfront, hback, rfl⟩, hreads⟩
        obtain ⟨e, hfirst, hlast⟩ := Cursor.reads_append.mp hreads
        exact ⟨e, (ihp hp).mpr ⟨front, hfront, hfirst⟩, (ihq hq).mpr ⟨back, hback, hlast⟩⟩
  | alt p q ihp ihq =>
      obtain ⟨hp, hq⟩ := Bool.and_eq_true_iff.mp hp
      rw [Spans, ihp hp, ihq hq, ← exists_or]
      simp only [Spells, or_and_right]
  | repeated p least more ih =>
      constructor
      · rintro ⟨n, hn, hchain⟩
        obtain ⟨words, hlength, hwords, hreads⟩ := (chain_iff_reads (ih hp)).mp hchain
        exact ⟨words.flatten, ⟨n, hn, words, hlength, hwords, rfl⟩, hreads⟩
      · rintro ⟨_, ⟨n, hn, words, hlength, hwords, rfl⟩, hreads⟩
        exact ⟨n, hn, (chain_iff_reads (ih hp)).mpr ⟨words, hlength, hwords, hreads⟩⟩

/-- **A plain pattern is found where one of its words is.** -/
theorem isIn_iff_contains_word [LawfulSymbol α] {p : Pattern} (hp : p.isPlain = true)
    (haystack : List α) :
    p.isIn haystack = true ↔ ∃ word, p.Spells word ∧ word <:+: haystack := by
  rw [isIn_iff]
  constructor
  · rintro ⟨c, d, hc, hspans⟩
    obtain ⟨word, hword, hreads⟩ := (spans_iff_reads hp).mp hspans
    exact ⟨word, hword, Cursor.exists_reads_iff.mp ⟨c, d, hc, hreads⟩⟩
  · rintro ⟨word, hword, hinfix⟩
    obtain ⟨c, d, hc, hreads⟩ := Cursor.exists_reads_iff.mpr hinfix
    exact ⟨c, d, hc, (spans_iff_reads hp).mpr ⟨word, hword, hreads⟩⟩

/-- The words of an optional pattern are the empty one and its own. -/
theorem spells_optional {p : Pattern} {word : List α} :
    (Pattern.repeated p 0 (some 1)).Spells word ↔ word = [] ∨ p.Spells word := by
  constructor
  · rintro ⟨n, hn, words, hlength, hwords, rfl⟩
    rw [Nat.zero_add] at hlength
    rcases Nat.le_one_iff_eq_zero_or_eq_one.mp (hn 1 rfl) with rfl | rfl
    · rw [List.length_eq_zero_iff.mp hlength]
      exact .inl rfl
    · obtain ⟨only, rfl⟩ := List.length_eq_one_iff.mp hlength
      rw [List.flatten_singleton]
      exact .inr (hwords only (List.mem_singleton_self only))
  · rintro (rfl | hword)
    · exact ⟨0, fun m _ => Nat.zero_le m, [], rfl, List.forall_mem_nil _, rfl⟩
    · refine ⟨1, fun m hm => Nat.le_of_eq (Option.some.inj hm), [word], rfl, ?_, ?_⟩
      · exact List.forall_mem_singleton.mpr hword
      · exact List.flatten_singleton.symm

/-! ### Whole haystacks -/

/-- The pattern of items in a row and of what follows them. -/
def inRow (items : List Pattern) (rest : Pattern) : Pattern :=
  items.foldr .seq rest

/-- The pattern of items in a row that make up the whole haystack. -/
def whole (items : List Pattern) : Pattern :=
  .seq (.look .textStart) (inRow items (.seq (.look .textEnd) .empty))

/-- What follows items in a row begins where they end. -/
theorem spans_inRow {items : List Pattern} {rest : Pattern} {c d : Cursor α} :
    (inRow items rest).Spans c d ↔ ∃ e, (inRow items .empty).Spans c e ∧ rest.Spans e d := by
  induction items generalizing c with
  | nil => simp [inRow, Spans]
  | cons p items ih =>
      constructor
      · rintro ⟨e, hp, hitems⟩
        obtain ⟨f, hothers, hrest⟩ := ih.mp hitems
        exact ⟨f, ⟨e, hp, hothers⟩, hrest⟩
      · rintro ⟨f, ⟨e, hp, hothers⟩, hrest⟩
        exact ⟨e, hp, ih.mpr ⟨f, hothers, hrest⟩⟩

/-- Items in a row are plain if each is. -/
theorem isPlain_inRow {items : List Pattern} (h : ∀ p ∈ items, p.isPlain = true) :
    (inRow items .empty).isPlain = true := by
  induction items with
  | nil => rfl
  | cons p items ih =>
      obtain ⟨hp, hitems⟩ := List.forall_mem_cons.mp h
      exact Bool.and_eq_true_iff.mpr ⟨hp, ih hitems⟩

/-- **Plain items between the ends of the text are found if the haystack is a word of
theirs.** -/
theorem isIn_whole_iff [LawfulSymbol α] {items : List Pattern}
    (h : ∀ p ∈ items, p.isPlain = true) (haystack : List α) :
    (whole items).isIn haystack = true ↔ (inRow items .empty).Spells haystack := by
  rw [isIn_iff]
  constructor
  · rintro ⟨_, d, rfl, c, ⟨rfl, hstart⟩, hitems⟩
    obtain ⟨e, hspans, _, ⟨-, hend⟩, -⟩ := spans_inRow.mp hitems
    obtain ⟨word, hword, hreads, -⟩ := (spans_iff_reads (isPlain_inRow h)).mp hspans
    have hbefore : c.before = [] := List.isEmpty_iff.mp hstart
    have hafter : e.after = [] := List.isEmpty_iff.mp hend
    rw [Cursor.haystack, hbefore, hreads, hafter, List.append_nil]
    exact hword
  · intro hword
    have hreads : (Cursor.start haystack).Reads haystack ⟨haystack.reverse, [], _, rfl⟩ :=
      ⟨(List.append_nil haystack).symm, (List.append_nil haystack.reverse).symm⟩
    have hspans := (spans_iff_reads (isPlain_inRow h)).mpr ⟨haystack, hword, hreads⟩
    exact ⟨_, _, Cursor.haystack_start haystack, _, ⟨rfl, rfl⟩,
      spans_inRow.mpr ⟨_, hspans, _, ⟨rfl, rfl⟩, rfl⟩⟩

/-! ### Symbols that a pattern leaves out -/

/-- The classes in a pattern. -/
def classes : Pattern → List CharClass
  | .empty | .look _ => []
  | .one cls => [cls]
  | .seq p q | .alt p q => p.classes ++ q.classes
  | .repeated p _ _ => p.classes

/-- **A symbol in no class of a pattern is in none of its words.** Induction on the
pattern. -/
theorem notMem_of_spells {p : Pattern} {a : α}
    (h : ∀ cls ∈ p.classes, ∀ word, cls.Spells word → a ∉ word) {word : List α}
    (hword : p.Spells word) : a ∉ word := by
  induction p generalizing word with
  | empty =>
      rw [hword]
      exact List.not_mem_nil
  | one cls => exact h cls (List.mem_singleton_self cls) word hword
  | look assertion => exact hword.elim
  | seq p q ihp ihq =>
      obtain ⟨hp, hq⟩ := List.forall_mem_append.mp h
      obtain ⟨front, back, hfront, hback, rfl⟩ := hword
      rw [List.mem_append]
      rintro (hmem | hmem)
      · exact ihp hp hfront hmem
      · exact ihq hq hback hmem
  | alt p q ihp ihq =>
      obtain ⟨hp, hq⟩ := List.forall_mem_append.mp h
      rcases hword with hword | hword
      · exact ihp hp hword
      · exact ihq hq hword
  | repeated p least more ih =>
      obtain ⟨n, -, words, -, hwords, rfl⟩ := hword
      rw [List.mem_flatten]
      rintro ⟨w, hw, hmem⟩
      exact ih h (hwords w hw) hmem

/-- **A plain pattern is found on one side of a symbol that none of its words has.** -/
theorem isIn_append_cons [LawfulSymbol α] {p : Pattern} (hp : p.isPlain = true) {a : α}
    (h : ∀ word, p.Spells word → a ∉ word) (front back : List α) :
    p.isIn (front ++ a :: back) = (p.isIn front || p.isIn back) := by
  rw [Bool.eq_iff_iff, Bool.or_eq_true, isIn_iff_contains_word hp, isIn_iff_contains_word hp,
    isIn_iff_contains_word hp]
  constructor
  · rintro ⟨word, hword, hinfix⟩
    rcases (infix_append_cons_iff (h word hword)).mp hinfix with hfront | hback
    · exact .inl ⟨word, hword, hfront⟩
    · exact .inr ⟨word, hword, hback⟩
  · rintro (⟨word, hword, hfront⟩ | ⟨word, hword, hback⟩)
    · exact ⟨word, hword, (infix_append_cons_iff (h word hword)).mpr (.inl hfront)⟩
    · exact ⟨word, hword, (infix_append_cons_iff (h word hword)).mpr (.inr hback)⟩

end Pattern

end Search

/-! ### Single characters -/

/-- Whether a character of a line is in a class. A class of bytes has those that are one
byte. -/
def CharClass.admits (cls : CharClass) (ch : Char) : Bool :=
  if cls.scalars then cls.contains ch.toNat
  else (Symbol.byte? ch).any fun b => cls.contains b.toNat

/-- Over lines the words of a class are single characters. -/
theorem CharClass.spells_iff_admits {cls : CharClass} {word : Line} :
    cls.Spells word ↔ ∃ ch, cls.admits ch = true ∧ word = [ch] := by
  cases hscalars : cls.scalars with
  | true =>
      simp only [Spells, admits, hscalars, if_true]
      constructor
      · rintro ⟨ch, hword, hcontains⟩
        rcases word with _ | ⟨first, rest⟩
        · exact absurd hword (by simp [Symbol.scalarAfter])
        · obtain ⟨rfl, hlength⟩ := Prod.mk.inj (Option.some.inj hword)
          obtain rfl := List.length_eq_zero_iff.mp (Nat.succ.inj hlength).symm
          exact ⟨first, hcontains, rfl⟩
      · rintro ⟨ch, hcontains, rfl⟩
        exact ⟨ch, rfl, hcontains⟩
  | false =>
      simp only [Spells, admits, hscalars, Bool.false_eq_true, if_false, Option.any_eq_true]
      constructor
      · rintro ⟨ch, b, rfl, hbyte, hcontains⟩
        exact ⟨ch, ⟨b, hbyte, hcontains⟩, rfl⟩
      · rintro ⟨ch, ⟨b, hbyte, hcontains⟩, rfl⟩
        exact ⟨ch, b, rfl, hbyte, hcontains⟩

/-- Over byte strings the words of a class that stands for bytes are single bytes. -/
theorem CharClass.spells_iff_contains {cls : CharClass} (h : cls.scalars = false)
    {word : Bytes} : cls.Spells word ↔ ∃ b, cls.contains b.toNat = true ∧ word = [b] := by
  simp only [Spells, h, Bool.false_eq_true, if_false]
  constructor
  · rintro ⟨_, b, rfl, hbyte, hcontains⟩
    obtain rfl := Option.some.inj hbyte
    exact ⟨_, hcontains, rfl⟩
  · rintro ⟨b, hcontains, rfl⟩
    exact ⟨b, b, rfl, rfl, hcontains⟩

namespace Pattern

/-- A byte in none of the classes of a pattern for bytes is in none of its words. -/
theorem byte_notMem_of_spells {p : Pattern} {b : UInt8}
    (h : ∀ cls ∈ p.classes, cls.scalars = false ∧ cls.contains b.toNat = false)
    {word : Bytes} (hword : p.Spells word) : b ∉ word := by
  refine notMem_of_spells (fun cls hcls word hspells hmem => ?_) hword
  obtain ⟨hbytes, hleft⟩ := h cls hcls
  obtain ⟨other, hother, rfl⟩ := (CharClass.spells_iff_contains hbytes).mp hspells
  rw [← List.mem_singleton.mp hmem, hleft] at hother
  exact Bool.false_ne_true hother

/-- A character in none of the classes of a pattern is in none of its words. -/
theorem char_notMem_of_spells {p : Pattern} {ch : Char}
    (h : ∀ cls ∈ p.classes, cls.admits ch = false) {word : Line} (hword : p.Spells word) :
    ch ∉ word := by
  refine notMem_of_spells (fun cls hcls word hspells hmem => ?_) hword
  obtain ⟨other, hother, rfl⟩ := CharClass.spells_iff_admits.mp hspells
  rw [← List.mem_singleton.mp hmem, h cls hcls] at hother
  exact Bool.false_ne_true hother

/-! ### Literals -/

/-- The pattern of a text and of what follows it. -/
def literal (text : Line) (rest : Pattern) : Pattern :=
  text.foldr (fun ch p => .seq (.one ⟨true, [(ch.toNat, ch.toNat)]⟩) p) rest

/-- A literal is plain if what follows it is. -/
@[simp] theorem isPlain_literal (text : Line) (rest : Pattern) :
    (literal text rest).isPlain = rest.isPlain := by
  induction text with
  | nil => rfl
  | cons ch text ih => exact ih

/-- The class of a single character has no other one. -/
theorem admits_single {ch other : Char} :
    CharClass.admits ⟨true, [(ch.toNat, ch.toNat)]⟩ other = true ↔ other = ch := by
  have hnumber : CharClass.admits ⟨true, [(ch.toNat, ch.toNat)]⟩ other =
      CharClass.contains ⟨true, [(ch.toNat, ch.toNat)]⟩ other.toNat := rfl
  rw [hnumber, CharClass.contains_single]
  exact ⟨Char.toNat_inj.mp, congrArg Char.toNat⟩

/-- The words of a literal are the text and a word of what follows it. -/
theorem spells_literal {text : Line} {rest : Pattern} {word : Line} :
    (literal text rest).Spells word ↔ ∃ back, rest.Spells back ∧ word = text ++ back := by
  induction text generalizing word with
  | nil => simp [literal]
  | cons ch text ih =>
      have hcons : literal (ch :: text) rest =
          .seq (.one ⟨true, [(ch.toNat, ch.toNat)]⟩) (literal text rest) := rfl
      rw [hcons]
      constructor
      · rintro ⟨_, tail, hch, htail, rfl⟩
        obtain ⟨other, hother, rfl⟩ := CharClass.spells_iff_admits.mp hch
        obtain ⟨back, hback, rfl⟩ := ih.mp htail
        rw [admits_single.mp hother]
        exact ⟨back, hback, rfl⟩
      · rintro ⟨back, hback, rfl⟩
        have hch := CharClass.spells_iff_admits.mpr ⟨ch, admits_single.mpr rfl, rfl⟩
        exact ⟨[ch], text ++ back, hch, ih.mpr ⟨back, hback, rfl⟩, rfl⟩

end Pattern

end LicenseHeader
