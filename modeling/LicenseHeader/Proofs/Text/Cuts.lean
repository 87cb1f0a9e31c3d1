import LicenseHeader.Proofs.Text.Utf8

/-!
# Cuts

A list is cut at an element into what stands in front of it and what stands behind it. Where
a list is put together of two, the cut goes through one of them (`append_eq_append_cons`);
and a word that does not have the element is on one side of the cut
(`infix_append_cons_iff`).

In the encoding of a text an ASCII byte is never part of another scalar. So to cut an
encoding at such a byte is to cut the text (`Utf8.exists_cut_of_encode_eq`), and whatever
splits bytes at ASCII characters may as well have split the text. Bytes on the two sides of a
cut are valid together if and only if they are valid each for itself
(`Utf8.isValid_append_ascii_iff`): no scalar is completed or broken off across it.

## Main results

* `infix_append_cons_iff`: words on the two sides of a cut.
* `Utf8.exists_cut_of_encode_eq`: a cut of an encoding is a cut of the text.
* `Utf8.isValid_append_ascii_iff`: validity on the two sides of a cut.
-/

namespace LicenseHeader

variable {α : Type}

/-- Either the first of two lists holds an element at which they are cut, or it stands before
the element as a whole. -/
theorem append_eq_append_cons {front back left right : List α} {a : α}
    (h : front ++ back = left ++ a :: right) :
    (∃ more, front = left ++ a :: more ∧ right = more ++ back) ∨
      ∃ ahead, left = front ++ ahead ∧ back = ahead ++ a :: right := by
  rcases List.append_eq_append_iff.mp h with ⟨ahead, hleft, hback⟩ | ⟨found, hfront, hfound⟩
  · exact .inr ⟨ahead, hleft, hback⟩
  · cases found with
    | nil => exact .inr ⟨[], by simpa using hfront.symm, hfound.symm⟩
    | cons c more =>
        rw [List.cons_append, List.cons.injEq] at hfound
        obtain ⟨rfl, hright⟩ := hfound
        exact .inl ⟨more, hfront, hright⟩

/-- A word is on one side of an element that it does not have. -/
theorem infix_append_cons_iff {word front back : List α} {a : α} (h : a ∉ word) :
    word <:+: front ++ a :: back ↔ word <:+: front ∨ word <:+: back := by
  constructor
  · rintro ⟨before, behind, heq⟩
    rw [List.append_assoc] at heq
    rcases append_eq_append_cons heq with ⟨more, -, hback⟩ | ⟨ahead, hfront, hword⟩
    · exact .inr ⟨more, behind, by rw [hback, List.append_assoc]⟩
    · rcases append_eq_append_cons hword with ⟨more, hword, -⟩ | ⟨rest, hahead, -⟩
      · exact absurd (hword ▸ List.mem_append_right ahead List.mem_cons_self) h
      · exact .inl ⟨before, rest, by rw [hfront, hahead, List.append_assoc]⟩
  · rintro (hfront | hback)
    · exact hfront.trans (List.prefix_append front (a :: back)).isInfix
    · have hsuffix : back <:+ front ++ a :: back :=
        (List.suffix_cons a back).trans (List.suffix_append front (a :: back))
      exact hback.trans hsuffix.isInfix

namespace Utf8

/-- A scalar whose encoding has an ASCII byte is the character of this byte. -/
theorem utf8EncodeChar_of_mem {c : Char} {b : UInt8} (hb : b.toNat < 0x80)
    (h : b ∈ String.utf8EncodeChar c) :
    String.utf8EncodeChar c = [b] ∧ c = Char.ofNat b.toNat := by
  have hhigh : ∀ n, 0x80 ≤ n → n < 256 → b ≠ UInt8.ofNat n := by
    rintro n hn hbyte rfl
    rw [UInt8.toNat_ofNat_of_lt' hbyte] at hb
    omega
  rw [String.utf8EncodeChar] at h ⊢
  split at h
  · next hn =>
      obtain rfl := List.mem_singleton.mp h
      refine ⟨if_pos hn, ?_⟩
      have hbyte : c.val.toNat < 256 := by omega
      rw [UInt8.toNat_ofNat_of_lt' hbyte]
      exact (Char.ofNat_toNat c).symm
  -- the bytes of the longer forms are not ASCII
  split at h
  · simp only [List.mem_cons, List.not_mem_nil, or_false] at h
    rcases h with h | h <;> exact absurd h (hhigh _ (by omega) (by omega))
  split at h
  · simp only [List.mem_cons, List.not_mem_nil, or_false] at h
    rcases h with h | h | h <;> exact absurd h (hhigh _ (by omega) (by omega))
  · simp only [List.mem_cons, List.not_mem_nil, or_false] at h
    rcases h with h | h | h | h <;> exact absurd h (hhigh _ (by omega) (by omega))

/-- A text holds an ASCII character if its encoding has the byte of it. -/
theorem mem_of_mem_encode {text : List Char} {b : UInt8} (hb : b.toNat < 0x80)
    (h : b ∈ encode text) : Char.ofNat b.toNat ∈ text := by
  obtain ⟨c, hc, hbyte⟩ := List.mem_flatMap.mp h
  rw [← (utf8EncodeChar_of_mem hb hbyte).2]
  exact hc

/-- **A cut of an encoding at an ASCII byte is a cut of the text.** Induction on the text:
the byte is its first character, or stands behind the encoding of that. -/
theorem exists_cut_of_encode_eq {text : List Char} {front back : Bytes} {b : UInt8}
    (hb : b.toNat < 0x80) (h : encode text = front ++ b :: back) :
    ∃ left right, text = left ++ Char.ofNat b.toNat :: right ∧ front = encode left ∧
      back = encode right := by
  induction text generalizing front with
  | nil => exact absurd h (by simp [encode])
  | cons c text ih =>
      rw [encode_cons] at h
      rcases append_eq_append_cons h with ⟨more, hfound, hback⟩ | ⟨ahead, rfl, hahead⟩
      · -- the byte is all that encodes the first character
        have hmem : b ∈ String.utf8EncodeChar c := by
          rw [hfound]
          exact List.mem_append_right front List.mem_cons_self
        obtain ⟨hsingle, rfl⟩ := utf8EncodeChar_of_mem hb hmem
        rw [hsingle, eq_comm, List.append_eq_singleton_iff] at hfound
        rcases hfound with ⟨rfl, hmore⟩ | ⟨-, hmore⟩
        · obtain ⟨-, rfl⟩ := List.cons.inj hmore
          exact ⟨[], text, rfl, rfl, hback⟩
        · exact absurd hmore (List.cons_ne_nil _ _)
      · obtain ⟨left, right, rfl, rfl, hback⟩ := ih hahead
        exact ⟨c :: left, right, rfl, (encode_cons c left).symm, hback⟩

/-- The empty byte string is valid. -/
theorem isValid_nil : IsValid [] := ⟨[], rfl⟩

/-- Valid byte strings one after the other are valid. -/
theorem IsValid.append {front back : Bytes} (hfront : IsValid front) (hback : IsValid back) :
    IsValid (front ++ back) := by
  obtain ⟨left, rfl⟩ := hfront
  obtain ⟨right, rfl⟩ := hback
  exact ⟨left ++ right, (encode_append left right).symm⟩

/-- An ASCII byte is valid. -/
theorem isValid_singleton {b : UInt8} (hb : b.toNat < 0x80) : IsValid [b] := by
  have hstep : State.ready.step b = .scalar (Char.ofNat b.toNat) := if_pos hb
  refine ⟨[Char.ofNat b.toNat], decode_eq_ok_iff.mp ?_⟩
  rw [decode, decodeFrom, hstep]
  rfl

/-- Around an ASCII byte a byte string is valid if and only if it is so on both sides. -/
theorem isValid_append_cons_iff {front back : Bytes} {b : UInt8} (hb : b.toNat < 0x80) :
    IsValid (front ++ b :: back) ↔ IsValid front ∧ IsValid back := by
  constructor
  · rintro ⟨text, htext⟩
    obtain ⟨left, right, -, hfront, hback⟩ := exists_cut_of_encode_eq hb htext.symm
    exact ⟨⟨left, hfront⟩, ⟨right, hback⟩⟩
  · rintro ⟨hfront, hback⟩
    exact hfront.append ((isValid_singleton hb).append hback)

/-- **Around ASCII bytes a byte string is valid if and only if it is so on both sides.** -/
theorem isValid_append_ascii_iff {front middle back : Bytes} (hne : middle ≠ [])
    (hascii : ∀ b ∈ middle, b.toNat < 0x80) :
    IsValid (front ++ middle ++ back) ↔ IsValid front ∧ IsValid back := by
  induction middle generalizing front with
  | nil => exact absurd rfl hne
  | cons b middle ih =>
      obtain ⟨hb, hmiddle⟩ := List.forall_mem_cons.mp hascii
      rw [List.append_assoc, List.cons_append, isValid_append_cons_iff hb]
      by_cases hlast : middle = []
      · rw [hlast, List.nil_append]
      · have hrest := @ih [] hlast hmiddle
        rw [List.nil_append] at hrest
        rw [hrest, and_iff_right isValid_nil]

end Utf8

end LicenseHeader
