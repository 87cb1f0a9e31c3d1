import LicenseHeader.Proofs.Reader.Calls
import LicenseHeader.Proofs.Text.Cuts

/-!
# Lines that are valid

A reader decodes one line at a time. This could tell other bytes valid than a decoder of the
whole content: a scalar that is cut off by an ending might be completed behind it, or a broken
one might swallow the ending. Neither can happen, because the endings are ASCII. So the lines
up to some place are all valid if and only if what they make up is
(`LineStyle.isValid_take_split_iff`).

Nor does a line depend on its neighbours. It is read as if it stood alone
(`LineStyle.split_bytes`), and other bytes may stand in the place of a line without a change to
the lines around it (`LineStyle.split_replace`). There the new bytes must not be empty: an empty
line that ends at a line feed would be lost behind a carriage return. Both are inductions along
the lines, in which the content behind a first line is changed; this leaves the first line as it
is, unless a line feed comes to stand behind its carriage return (`FirstLine.behind`).

## Main definitions

* `RawLine.replace`: lines of which one has another text.

## Main results

* `LineStyle.isValid_take_split_iff`: contents and their lines are valid together.
* `LineStyle.split_replace`: other bytes in the place of a line.
* `Event.Delivers.call_universal_isValid`: what a reader of a file makes of invalid bytes.
-/

namespace LicenseHeader

/-! ### First lines -/

namespace FirstLine

variable {style : LineStyle} {content rest : Bytes} {line : RawLine}

/-- The ending of a line is made of ASCII bytes. -/
theorem ending_ascii (h : FirstLine style content line rest) :
    ∀ b ∈ line.ending, b.toNat < 0x80 := by
  have hfeed : ∀ b ∈ [lineFeed], b.toNat < 0x80 := List.forall_mem_singleton.mpr (by decide)
  have hlone : ∀ b ∈ [carriageReturn], b.toNat < 0x80 := List.forall_mem_singleton.mpr (by decide)
  have hpair : ∀ b ∈ [carriageReturn, lineFeed], b.toNat < 0x80 :=
    List.forall_mem_append.mpr ⟨hlone, hfeed⟩
  cases h with
  | feed => exact hfeed
  | pair => exact hpair
  | lone => exact hlone
  | fed =>
      rw [RawLine.fed]
      split
      · exact hpair
      · exact hfeed

/-- A first line and what stands behind it are valid together if and only if each is. -/
theorem isValid_bytes_append (h : FirstLine style content line rest) (back : Bytes) :
    Utf8.IsValid (line.bytes ++ back) ↔ Utf8.IsValid line.text ∧ Utf8.IsValid back :=
  Utf8.isValid_append_ascii_iff h.ending_ne_nil h.ending_ascii

/-- Something else may stand behind a first line, unless a line feed comes to stand behind its
carriage return. -/
theorem behind (h : FirstLine style content line rest) {back : Bytes}
    (hback : rest.head? ≠ some lineFeed → back.head? ≠ some lineFeed) :
    FirstLine style (line.bytes ++ back) line back := by
  cases h with
  | @feed text hclean =>
      rw [RawLine.bytes, List.append_assoc]
      exact .feed hclean back
  | @pair text hclean =>
      rw [RawLine.bytes, List.append_assoc]
      exact .pair hclean back
  | @lone text _ hclean hrest =>
      rw [RawLine.bytes, List.append_assoc]
      exact .lone hclean (hback hrest)
  | @fed text hclean =>
      rw [RawLine.bytes_fed, List.append_assoc]
      exact .fed hclean back

/-- Another text may stand in front of the ending of a first line. -/
theorem inPlace (h : FirstLine .universal content line rest) {text : Bytes}
    (htext : LineStyle.universal.Clean text) :
    FirstLine .universal (text ++ line.ending ++ rest) ⟨text, line.ending⟩ rest := by
  rw [List.append_assoc]
  cases h with
  | feed => exact .feed htext rest
  | pair => exact .pair htext rest
  | lone _ hrest => exact .lone htext hrest

/-- A content begins as its first line does. -/
theorem head?_bytes_append (h : FirstLine style content line rest) (back : Bytes) :
    (line.bytes ++ back).head? = content.head? := by
  have hne : line.bytes ≠ [] := List.append_ne_nil_of_right_ne_nil _ h.ending_ne_nil
  obtain ⟨b, bytes, hbytes⟩ := List.exists_cons_of_ne_nil hne
  rw [← h.bytes_append, hbytes]
  rfl

end FirstLine

/-! ### Lines of a content -/

/-- A clean content has no line but itself. -/
theorem LineStyle.getElem?_split_of_clean {style : LineStyle} {content : Bytes}
    (h : style.Clean content) {k : Nat} {line : RawLine}
    (hline : (style.split content)[k]? = some line) : k = 0 ∧ line = ⟨content, []⟩ := by
  rw [split_of_clean h] at hline
  split at hline
  · exact absurd hline (by simp)
  · obtain ⟨hk, hline⟩ := List.getElem?_eq_some_iff.mp hline
    obtain rfl : k = 0 := Nat.lt_one_iff.mp hk
    exact ⟨rfl, hline.symm⟩

/-- **Contents and their lines are valid together.** The lines of a content up to one are valid
if and only if they make up a valid byte string. Induction along the lines. -/
theorem LineStyle.isValid_take_split_iff (style : LineStyle) (content : Bytes) (n : Nat) :
    Utf8.IsValid (((style.split content).take n).flatMap RawLine.bytes) ↔
      ∀ line ∈ (style.split content).take n, Utf8.IsValid line.text := by
  induction content using @line_induction style generalizing n with
  | clean content hclean =>
      rw [split_of_clean hclean]
      split
      · rw [List.take_nil]
        exact iff_of_true Utf8.isValid_nil (List.forall_mem_nil _)
      · cases n with
        | zero => exact iff_of_true Utf8.isValid_nil (List.forall_mem_nil _)
        | succ n =>
            rw [List.take_succ_cons, List.take_nil, List.flatMap_singleton, RawLine.bytes,
              List.append_nil, List.forall_mem_singleton]
  | first content line rest h ih =>
      rw [h.split]
      cases n with
      | zero => exact iff_of_true Utf8.isValid_nil (List.forall_mem_nil _)
      | succ n =>
          rw [List.take_succ_cons, List.flatMap_cons, h.isValid_bytes_append, ih,
            List.forall_mem_cons]

/-- A line stands alone as it stands among others. -/
theorem LineStyle.split_bytes {style : LineStyle} {content : Bytes} {k : Nat} {line : RawLine}
    (hline : (style.split content)[k]? = some line) : style.split line.bytes = [line] := by
  induction content using @line_induction style generalizing k with
  | clean content hclean =>
      have hne : content ≠ [] := by
        rintro rfl
        rw [split_of_clean hclean] at hline
        exact absurd hline (by simp)
      obtain ⟨-, rfl⟩ := getElem?_split_of_clean hclean hline
      rw [RawLine.bytes, List.append_nil, split_of_clean hclean, if_neg hne]
  | first content first rest h ih =>
      rw [h.split] at hline
      cases k with
      | zero =>
          obtain rfl : first = line := Option.some.inj hline
          have halone : FirstLine style (first.bytes ++ []) first [] :=
            h.behind fun _ => by simp
          rw [List.append_nil] at halone
          rw [halone.split, split_of_clean (List.forall_mem_nil _), if_pos rfl]
      | succ k => exact ih hline

/-- Lines with other bytes in the place of one of them, in front of the same ending. -/
def RawLine.replace (lines : List RawLine) (place : Nat) (text : Bytes) : List RawLine :=
  lines.modify place fun line => ⟨text, line.ending⟩

/-- Among no lines there is no place for other bytes. -/
theorem RawLine.replace_nil (place : Nat) (text : Bytes) : replace [] place text = [] :=
  List.modify_nil _ place

/-- Other bytes in the place of the first line. -/
theorem RawLine.replace_zero (line : RawLine) (lines : List RawLine) (text : Bytes) :
    replace (line :: lines) 0 text = ⟨text, line.ending⟩ :: lines := rfl

/-- Other bytes in the place of a later line. -/
theorem RawLine.replace_succ (line : RawLine) (lines : List RawLine) (place : Nat)
    (text : Bytes) : replace (line :: lines) (place + 1) text = line :: replace lines place text :=
  rfl

/-- **Other bytes in the place of a line.** If bytes that end no line, and are not none, stand in
the place of a line, all other lines stay as they are. Induction along the lines, in which
something is kept of what does not begin with a line feed: neither does it afterwards, and so no
ending in front of it grows. -/
theorem LineStyle.split_replace {text : Bytes} (hne : text ≠ [])
    (hclean : LineStyle.universal.Clean text) (content : Bytes) (place : Nat) :
    LineStyle.universal.split
        ((RawLine.replace (LineStyle.universal.split content) place text).flatMap RawLine.bytes) =
      RawLine.replace (LineStyle.universal.split content) place text ∧
    (content.head? ≠ some lineFeed →
      ((RawLine.replace (LineStyle.universal.split content) place text).flatMap
        RawLine.bytes).head? ≠ some lineFeed) := by
  induction content using @line_induction .universal generalizing place with
  | clean content hcontent =>
      rw [split_of_clean hcontent]
      split
      · rw [RawLine.replace_nil]
        exact ⟨split_of_clean (List.forall_mem_nil _), fun _ hnone => nomatch hnone⟩
      · next hcontents =>
          cases place with
          | zero =>
              rw [RawLine.replace_zero, List.flatMap_singleton, RawLine.bytes, List.append_nil,
                split_of_clean hclean, if_neg hne]
              exact ⟨rfl, fun _ => hclean.head?_ne⟩
          | succ place =>
              rw [RawLine.replace_succ, RawLine.replace_nil, List.flatMap_singleton,
                RawLine.bytes, List.append_nil, split_of_clean hcontent, if_neg hcontents]
              exact ⟨rfl, id⟩
  | first content line rest h ih =>
      rw [h.split]
      cases place with
      | zero =>
          have hline := h.inPlace hclean
          rw [RawLine.replace_zero, List.flatMap_cons, flatMap_bytes_split, RawLine.bytes,
            hline.split]
          refine ⟨rfl, fun _ => ?_⟩
          obtain ⟨b, bytes, rfl⟩ := List.exists_cons_of_ne_nil hne
          exact hclean.head?_ne
      | succ place =>
          obtain ⟨hsplit, hhead⟩ := ih place
          rw [RawLine.replace_succ, List.flatMap_cons, (h.behind hhead).split, hsplit,
            h.head?_bytes_append]
          exact ⟨rfl, id⟩

/-! ### Readers of a file -/

section Calls

variable {script : List Event} {content : Bytes}

/-- The answer is a text if and only if the line is valid. -/
theorem Event.Delivers.exists_text_iff (h : Event.Delivers script content) {k : Nat}
    {line : RawLine} (hline : (LineStyle.universal.split content)[k]? = some line) :
    (∃ text, ((Reader.ofEvents script).call .universal k).1 = some (.ok text)) ↔
      Utf8.IsValid line.text := by
  rw [h.call_eq, hline, Option.map_some]
  simp only [Option.some.injEq, RawLine.decode_eq_ok_iff]
  rfl

/-- The first answers are texts if and only if the first lines are valid. -/
theorem Event.Delivers.forall_exists_text_iff (h : Event.Delivers script content) {n : Nat}
    (hn : n ≤ (LineStyle.universal.split content).length) :
    (∀ k < n, ∃ text, ((Reader.ofEvents script).call .universal k).1 = some (.ok text)) ↔
      ∀ line ∈ (LineStyle.universal.split content).take n, Utf8.IsValid line.text := by
  constructor
  · intro htexts line hline
    obtain ⟨k, hk⟩ := List.mem_iff_getElem?.mp hline
    rw [List.getElem?_take] at hk
    split at hk
    · next hlt => exact (h.exists_text_iff hk).mp (htexts k hlt)
    · exact absurd hk (by simp)
  · intro hvalid k hk
    have hline := List.getElem?_eq_getElem (Nat.lt_of_lt_of_le hk hn)
    refine (h.exists_text_iff hline).mpr (hvalid _ ?_)
    exact List.mem_iff_getElem?.mpr ⟨k, by rw [List.getElem?_take, if_pos hk, hline]⟩

/-- No answer is an error if and only if there is a text for every line. -/
theorem Event.Delivers.forall_ne_error_iff (h : Event.Delivers script content) :
    (∀ k e, ((Reader.ofEvents script).call .universal k).1 ≠ some (.error e)) ↔
      ∀ k < (LineStyle.universal.split content).length,
        ∃ text, ((Reader.ofEvents script).call .universal k).1 = some (.ok text) := by
  constructor
  · intro hnone k hk
    have hanswer := h.call_eq k
    rw [List.getElem?_eq_getElem hk, Option.map_some] at hanswer
    cases hline : (LineStyle.universal.split content)[k].decode .universal with
    | ok text => exact ⟨text, by rw [hanswer, hline]⟩
    | error e => exact absurd (by rw [hanswer, hline]) (hnone k e)
  · intro htexts k e herror
    by_cases hk : k < (LineStyle.universal.split content).length
    · obtain ⟨text, htext⟩ := htexts k hk
      rw [herror] at htext
      exact nomatch htext
    · rw [h.call_eq, List.getElem?_eq_none (Nat.le_of_not_lt hk)] at herror
      exact nomatch herror

/-- **Line by line a content is as valid as it is as a whole.** However a content arrives, the
first answers are all texts if and only if the lines up to there, with their endings, make up a
valid byte string; so no answer is an error if and only if the content is valid. Nor do invalid
bytes have a part in other lines than their own. A line is answered as it is if it stands alone,
and as it is if other bytes stand in the place of another line, so long as these end no line and
are not none. -/
theorem Event.Delivers.call_universal_isValid (h : Event.Delivers script content) :
    let lines := LineStyle.universal.split content
    let answer := fun k => ((Reader.ofEvents script).call .universal k).1
    lines.flatMap RawLine.bytes = content ∧
      (∀ n ≤ lines.length, (∀ k < n, ∃ text, answer k = some (.ok text)) ↔
        Utf8.IsValid ((lines.take n).flatMap RawLine.bytes)) ∧
      ((∀ k e, answer k ≠ some (.error e)) ↔ Utf8.IsValid content) ∧
      (∀ k line, lines[k]? = some line → ∀ alone, Event.Delivers alone line.bytes →
        ((Reader.ofEvents alone).call .universal 0).1 = answer k) ∧
      ∀ place text, text ≠ [] → LineStyle.universal.Clean text → ∀ other,
        Event.Delivers other ((RawLine.replace lines place text).flatMap RawLine.bytes) →
          ∀ k, k ≠ place → ((Reader.ofEvents other).call .universal k).1 = answer k := by
  intro lines answer
  have hwhole : lines.flatMap RawLine.bytes = content :=
    LineStyle.universal.flatMap_bytes_split content
  have hfirst : ∀ n ≤ lines.length, (∀ k < n, ∃ text, answer k = some (.ok text)) ↔
      Utf8.IsValid ((lines.take n).flatMap RawLine.bytes) := fun n hn =>
    (h.forall_exists_text_iff hn).trans (LineStyle.universal.isValid_take_split_iff content n).symm
  refine ⟨hwhole, hfirst, ?_, fun k line hline alone halone => ?_,
    fun place text hne hclean other hother k hk => ?_⟩
  · have hall := hfirst lines.length (Nat.le_refl _)
    rw [List.take_length, hwhole] at hall
    exact h.forall_ne_error_iff.trans hall
  · have hanswer : answer k = lines[k]?.map (RawLine.decode .universal) := h.call_eq k
    rw [halone.call_eq, LineStyle.split_bytes hline, hanswer, hline]
    rfl
  · rw [hother.call_eq, (LineStyle.split_replace hne hclean content place).1]
    have hanswer : answer k = lines[k]?.map (RawLine.decode .universal) := h.call_eq k
    rw [hanswer, RawLine.replace, List.getElem?_modify_ne _ _ hk.symm]

/-- The two bytes of a scalar on two lines complete nothing. The line in front of them is a text,
and the last line is the error that it is alone, and that it is if the scalar stands as a whole on
the line before. -/
theorem Event.Delivers.call_universal_isValid_of_cut_scalar :
    let script : List Event :=
      [.data [0x61, 0x0D, 0xC3], .failure ⟨.interrupted, "again"⟩, .data [0x0A, 0xA9]]
    let reader := Reader.ofEvents script
    let alone := Reader.ofEvents [.data [0xA9]]
    let other := Reader.ofEvents [.data [0x61, 0x0D, 0xC3, 0xA9, 0x0A, 0xA9]]
    Event.Delivers script [0x61, 0x0D, 0xC3, 0x0A, 0xA9] ∧
      (∃ text, (reader.call .universal 0).1 = some (.ok text)) ∧
      (¬∀ k < 2, ∃ text, (reader.call .universal k).1 = some (.ok text)) ∧
      (¬∀ k e, (reader.call .universal k).1 ≠ some (.error e)) ∧
      (alone.call .universal 0).1 = (reader.call .universal 2).1 ∧
      (other.call .universal 2).1 = (reader.call .universal 2).1 := by
  intro script reader alone other
  have h : Event.Delivers script [0x61, 0x0D, 0xC3, 0x0A, 0xA9] := ⟨by decide, by decide⟩
  obtain ⟨-, hfirst, hall, halone, hreplace⟩ := h.call_universal_isValid
  have hvalid : Utf8.IsValid [0x61, 0x0D] := ⟨['a', '\r'], by decide⟩
  have hcut : ¬Utf8.IsValid [0x61, 0x0D, 0xC3, 0x0A] := Utf8.exists_decode_error_iff.mp ⟨_, rfl⟩
  have hwhole : ¬Utf8.IsValid [0x61, 0x0D, 0xC3, 0x0A, 0xA9] :=
    Utf8.exists_decode_error_iff.mp ⟨_, rfl⟩
  have hclean : LineStyle.universal.Clean [0xC3, 0xA9] :=
    List.forall_mem_cons.mpr ⟨rfl, List.forall_mem_singleton.mpr rfl⟩
  refine ⟨h, (hfirst 1 (by decide)).mpr hvalid 0 Nat.one_pos,
    fun htexts => hcut ((hfirst 2 (by decide)).mp htexts), mt hall.mp hwhole, ?_, ?_⟩
  · exact halone 2 ⟨[0xA9], []⟩ (by decide) _ ⟨by decide, by decide⟩
  · exact hreplace 1 [0xC3, 0xA9] (by decide) hclean _ ⟨by decide, by decide⟩ 2 (by decide)

end Calls

end LicenseHeader
