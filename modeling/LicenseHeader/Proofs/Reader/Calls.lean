import LicenseHeader.Proofs.Reader.Lines
import LicenseHeader.Proofs.Text.Utf8

/-!
# Calls one after the other

`Reader.call` makes a number of calls of `Reader.next` and keeps the last answer. For a
reader that holds lines the answers are those lines in their order, and after each of them
just the bytes of the lines handed over so far are consumed (`Holds.call`); the induction is
on the number of calls, along `Holds.next_cons` and `Holds.next_nil`.

With the decoder's theorem this says of every script what its lines are
(`Event.Delivers.call_universal`): how the content is cut into pieces, and where it is
interrupted, does not show.

## Main definitions

* `Reader.call`: the answer of one of many calls.

## Main results

* `RawLine.decode_eq_ok_iff`, `RawLine.exists_decode_error_iff`: the text of a line.
* `Reader.Holds.call`: the calls to a reader that holds lines.
* `Event.Delivers.call_universal`: the calls to a reader of a file.
-/

namespace LicenseHeader

/-- The answer to call number `k`, counted from zero, and the reader after it. -/
def Reader.call (style : LineStyle) : Nat → Reader → Option (Except Failure Line) × Reader
  | 0, reader => reader.next style
  | k + 1, reader => call style k (reader.next style).2

/-! ### The text of a line -/

/-- A line has a text if and only if its bytes are the encoding of that text. -/
theorem RawLine.decode_eq_ok_iff {style : LineStyle} {line : RawLine} {text : Line} :
    line.decode style = .ok text ↔ line.text = Utf8.encode text := by
  rw [← Utf8.decode_eq_ok_iff, decode, LineStyle.decode]
  cases Utf8.decode line.text <;> simp

/-- A line whose bytes are not valid is an error, of invalid data. -/
theorem RawLine.exists_decode_error_iff {style : LineStyle} {line : RawLine} :
    (∃ message, line.decode style = .error ⟨.invalidData, message⟩) ↔
      ¬Utf8.IsValid line.text := by
  rw [← Utf8.exists_decode_error_iff, decode, LineStyle.decode]
  cases Utf8.decode line.text <;> simp

/-- Lines that are valid UTF-8 have texts. -/
theorem RawLine.exists_texts {lines : List RawLine}
    (h : ∀ line ∈ lines, Utf8.IsValid line.text) :
    ∃ texts : List Line, lines.map RawLine.text = texts.map Utf8.encode := by
  induction lines with
  | nil => exact ⟨[], rfl⟩
  | cons line lines ih =>
      obtain ⟨⟨text, htext⟩, hlines⟩ := List.forall_mem_cons.mp h
      obtain ⟨texts, htexts⟩ := ih hlines
      exact ⟨text :: texts, by rw [List.map_cons, List.map_cons, htext, htexts]⟩

/-- Lines that have texts are decoded to them. -/
theorem RawLine.map_decode_eq {style : LineStyle} {lines : List RawLine} {texts : List Line}
    (h : lines.map RawLine.text = texts.map Utf8.encode) :
    lines.map (RawLine.decode style) = texts.map Except.ok := by
  induction lines generalizing texts with
  | nil =>
      rw [List.map_nil, eq_comm, List.map_eq_nil_iff] at h
      rw [h]
      rfl
  | cons line lines ih =>
      rw [List.map_cons, eq_comm, List.map_eq_cons_iff] at h
      obtain ⟨text, texts, rfl, htext, htexts⟩ := h
      rw [List.map_cons, List.map_cons, ih htexts.symm,
        RawLine.decode_eq_ok_iff.mpr htext.symm]

/-- Lines that are decoded to texts have them. -/
theorem RawLine.map_text_eq {style : LineStyle} {lines : List RawLine} {texts : List Line}
    (h : lines.map (RawLine.decode style) = texts.map Except.ok) :
    lines.map RawLine.text = texts.map Utf8.encode := by
  induction lines generalizing texts with
  | nil =>
      rw [List.map_nil, eq_comm, List.map_eq_nil_iff] at h
      rw [h]
      rfl
  | cons line lines ih =>
      rw [List.map_cons, eq_comm, List.map_eq_cons_iff] at h
      obtain ⟨text, texts, rfl, htext, htexts⟩ := h
      rw [List.map_cons, List.map_cons, ih htexts.symm,
        RawLine.decode_eq_ok_iff.mp htext.symm]

section Texts

variable {lines : List RawLine} {texts : List Line}

/-- There are as many texts as lines. -/
theorem RawLine.length_eq_of_texts (h : lines.map RawLine.text = texts.map Utf8.encode) :
    lines.length = texts.length := by
  have hsame := congrArg List.length h
  rw [List.length_map, List.length_map] at hsame
  exact hsame

/-- Every line has its text. -/
theorem RawLine.exists_text_of_mem (h : lines.map RawLine.text = texts.map Utf8.encode)
    {line : RawLine} (hline : line ∈ lines) :
    ∃ text ∈ texts, line.text = Utf8.encode text := by
  have hmem : line.text ∈ lines.map RawLine.text := List.mem_map_of_mem hline
  rw [h] at hmem
  obtain ⟨text, htext, heq⟩ := List.mem_map.mp hmem
  exact ⟨text, htext, heq.symm⟩

/-- Every text has its line. -/
theorem RawLine.exists_line_of_mem (h : lines.map RawLine.text = texts.map Utf8.encode)
    {text : Line} (htext : text ∈ texts) :
    ∃ line ∈ lines, line.text = Utf8.encode text := by
  have hmem : Utf8.encode text ∈ texts.map Utf8.encode := List.mem_map_of_mem htext
  rw [← h] at hmem
  exact List.mem_map.mp hmem

end Texts

/-! ### Calls -/

/-- **The calls hand over the lines in their order.** After each call just the lines handed
over so far are consumed, with their endings; at the end nothing more happens. -/
theorem Reader.Holds.call {style : LineStyle} {reader : Reader} {lines : List RawLine}
    (h : reader.Holds style lines) (k : Nat) :
    let answer := reader.call style k
    answer.1 = lines[k]?.map (RawLine.decode style) ∧
      answer.2.consumed =
        reader.consumed + ((lines.take (k + 1)).flatMap RawLine.bytes).length := by
  induction k generalizing reader lines with
  | zero =>
      cases lines with
      | nil =>
          obtain ⟨after, hnext, -, hconsumed⟩ := h.next_nil
          simp only [Reader.call, hnext]
          exact ⟨rfl, hconsumed⟩
      | cons line lines =>
          obtain ⟨after, hnext, -, hconsumed⟩ := h.next_cons
          simp only [Reader.call, hnext]
          refine ⟨rfl, ?_⟩
          rw [hconsumed, Nat.zero_add, List.take_succ_cons, List.take_zero,
            List.flatMap_singleton]
  | succ k ih =>
      cases lines with
      | nil =>
          obtain ⟨after, hnext, hafter, hconsumed⟩ := h.next_nil
          obtain ⟨hanswer, htotal⟩ := ih hafter
          simp only [Reader.call, hnext]
          refine ⟨hanswer, ?_⟩
          rw [htotal, hconsumed, List.take_nil, List.take_nil]
      | cons line lines =>
          obtain ⟨after, hnext, hafter, hconsumed⟩ := h.next_cons
          obtain ⟨hanswer, htotal⟩ := ih hafter
          simp only [Reader.call, hnext]
          refine ⟨by rw [hanswer, List.getElem?_cons_succ], ?_⟩
          rw [htotal, hconsumed, List.take_succ_cons, List.flatMap_cons, List.length_append,
            Nat.add_assoc]

/-- The calls to a reader of a file are answered with the lines of its content, decoded. -/
theorem Event.Delivers.call_eq {script : List Event} {content : Bytes}
    (h : Event.Delivers script content) (k : Nat) :
    ((Reader.ofEvents script).call .universal k).1 =
      (LineStyle.universal.split content)[k]?.map (RawLine.decode .universal) :=
  ((h.holds .universal).call k).1

/-- **A reader of a file hands over the lines of its content, however it arrives.** For
every script that delivers a content, and every call: if the content has a line of that
number, the answer is its text, or an error of invalid data if it has none, and the bytes
consumed are those of the lines up to this one with their endings; behind the last line
there is no answer, and the whole content is consumed. -/
theorem Event.Delivers.call_universal {script : List Event} {content : Bytes}
    (h : Event.Delivers script content) (k : Nat) :
    let lines := LineStyle.universal.split content
    let answer := (Reader.ofEvents script).call .universal k
    lines.flatMap RawLine.bytes = content ∧
      (∀ line, lines[k]? = some line →
        answer.1 = some (line.decode .universal) ∧
        (∀ text, line.text = Utf8.encode text → answer.1 = some (.ok text)) ∧
        (¬Utf8.IsValid line.text →
          ∃ message, answer.1 = some (.error ⟨.invalidData, message⟩)) ∧
        answer.2.consumed = ((lines.take (k + 1)).flatMap RawLine.bytes).length) ∧
      (lines.length ≤ k → answer.1 = none ∧ answer.2.consumed = content.length) := by
  intro lines answer
  have hwhole : lines.flatMap RawLine.bytes = content :=
    LineStyle.universal.flatMap_bytes_split content
  obtain ⟨hanswer, hconsumed⟩ :
      answer.1 = lines[k]?.map (RawLine.decode .universal) ∧
        answer.2.consumed = 0 + ((lines.take (k + 1)).flatMap RawLine.bytes).length :=
    (h.holds .universal).call k
  rw [Nat.zero_add] at hconsumed
  refine ⟨hwhole, fun line hline => ?_, fun hk => ?_⟩
  · rw [hline, Option.map_some] at hanswer
    refine ⟨hanswer, fun text htext => ?_, fun hinvalid => ?_, hconsumed⟩
    · rw [hanswer, RawLine.decode_eq_ok_iff.mpr htext]
    · obtain ⟨message, hmessage⟩ := RawLine.exists_decode_error_iff.mpr hinvalid
      exact ⟨message, by rw [hanswer, hmessage]⟩
  · rw [List.getElem?_eq_none hk, Option.map_none] at hanswer
    rw [List.take_of_length_le (Nat.le_succ_of_le hk), hwhole] at hconsumed
    exact ⟨hanswer, hconsumed⟩

/-- A carriage return and its line feed that are cut apart, with an interruption between
them, end one line; the line behind it is not valid. -/
theorem Event.Delivers.call_universal_of_cut_pair :
    let script : List Event :=
      [.data [0x61, 0x0D], .failure ⟨.interrupted, "again"⟩, .data [0x0A, 0xFF, 0x0A]]
    let first := (Reader.ofEvents script).call .universal 0
    let second := (Reader.ofEvents script).call .universal 1
    Event.Delivers script [0x61, 0x0D, 0x0A, 0xFF, 0x0A] ∧
      (first.1 = some (.ok ['a']) ∧ first.2.consumed = 3) ∧
      (∃ message, second.1 = some (.error ⟨.invalidData, message⟩)) ∧
      second.2.consumed = 5 := by
  intro script first second
  have h : Event.Delivers script [0x61, 0x0D, 0x0A, 0xFF, 0x0A] := ⟨by decide, by decide⟩
  obtain ⟨-, hfirst, -⟩ := h.call_universal 0
  obtain ⟨-, hsecond, -⟩ := h.call_universal 1
  obtain ⟨-, htext, -, hbehind⟩ := hfirst ⟨[0x61], [0x0D, 0x0A]⟩ (by decide)
  obtain ⟨-, -, herror, hend⟩ := hsecond ⟨[0xFF], [0x0A]⟩ (by decide)
  have hinvalid : ¬Utf8.IsValid [0xFF] := Utf8.exists_decode_error_iff.mp ⟨_, rfl⟩
  exact ⟨h, ⟨htext ['a'] (by decide), hbehind⟩, herror hinvalid, hend⟩

end LicenseHeader
