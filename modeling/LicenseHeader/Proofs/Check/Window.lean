import LicenseHeader.Check.Content
import LicenseHeader.Proofs.Detection.Agreement
import LicenseHeader.Proofs.Detection.Pulls
import LicenseHeader.Proofs.Reader.Calls

/-!
# What a check sees of a reader

Detection among the lines of a reader pulls them while it goes on, and stops reading when it
stops. To a reader that holds lines this makes no difference: the outcome is that of
detection among a given list, which has the lines of the window, each decoded
(`Reader.Holds.detectRead_agrees`). Reader and list are in lockstep for as many pulls as the
window has room for; what the list leaves out is never pulled.

Since a pull takes just a line off, detection consumes just the lines that it pulls
(`Config.consumed_detectRead`).

## Main definitions

* `Config.bytesPulled`: the lines that a check pulls, as bytes.

## Main results

* `Reader.Holds.detectRead_agrees`: a reader and the list of its lines.
* `Config.verdict_detectRead_of_texts`: a reader whose window is valid UTF-8.
* `Config.consumed_detectRead`: how many bytes a check consumes.
-/

namespace LicenseHeader

/-- For some more pulls a reader and a list of items come to the same: the items are the
first lines that the reader holds. -/
def Reader.AheadOf (style : LineStyle) (pulls : Nat) (reader : Reader)
    (items : List (Except Failure Line)) : Prop :=
  ∃ lines, reader.Holds style lines ∧
    items = (lines.take pulls).map (RawLine.decode style)

/-- A reader and the list of its first lines answer alike. -/
theorem Reader.AheadOf.lockstep (style : LineStyle) :
    Lockstep Eq (Reader.next style) pullItem (Reader.AheadOf style) := by
  rintro pulls reader _ ⟨lines, hholds, rfl⟩
  cases lines with
  | nil =>
      obtain ⟨after, hnext, hafter, -⟩ := hholds.next_nil
      rw [hnext, List.take_nil]
      exact ⟨.none, [], hafter, by rw [List.take_nil]; rfl⟩
  | cons line lines =>
      obtain ⟨after, hnext, hafter, -⟩ := hholds.next_cons
      rw [hnext, List.take_succ_cons, List.map_cons]
      exact ⟨.some (Agree.refl _), lines, hafter, rfl⟩

/-- **A check of a reader is a check of the lines in its window.** -/
theorem Reader.Holds.detectRead_agrees {style : LineStyle} {reader : Reader}
    {lines : List RawLine} (h : reader.Holds style lines) (config : Config) :
    (config.detectRead style reader).Agrees Eq
      (fun reader items => ∃ pulls, Reader.AheadOf style pulls reader items)
      (config.detectLines ((lines.take config.window).map (RawLine.decode style))) :=
  detect_lockstep (Reader.AheadOf.lockstep style) Rule.accepts config.rules config.window
    ⟨lines, h, rfl⟩

/-- The verdict on a content whose window has given texts. -/
theorem Config.verdict_detectRead_of_texts {config : Config} {style : LineStyle}
    {script : List Event} {content : Bytes} {texts : List Line}
    (h : Event.Delivers script content)
    (htexts : ((style.split content).take config.window).map RawLine.text =
      texts.map Utf8.encode) :
    (config.detectRead style (.ofEvents script)).verdict =
      (config.detectLines (texts.map Except.ok : List (Except Failure Line))).verdict := by
  rw [← RawLine.map_decode_eq htexts]
  exact ((h.holds style).detectRead_agrees config).verdict.eq

/-! ### Bytes -/

/-- The bytes of the lines that detection pulls from a script with a content. -/
def Config.bytesPulled (config : Config) (style : LineStyle) (script : List Event)
    (content : Bytes) : Bytes :=
  ((style.split content).take (config.detectRead style (.ofEvents script)).pulled).flatMap
    RawLine.bytes

/-- A reader has handed over some of its lines: it holds the others, and has consumed the bytes
of those. -/
def Reader.Behind (style : LineStyle) (lines : List RawLine) (count : Nat) (reader : Reader) :
    Prop :=
  reader.Holds style (lines.drop count) ∧
    reader.consumed = ((lines.take count).flatMap RawLine.bytes).length

section Behind

variable {style : LineStyle} {lines : List RawLine} {count : Nat} {reader rest : Reader}

/-- A call without an answer finds no line, and takes none off. -/
theorem Reader.Behind.next_none (h : Reader.Behind style lines count reader)
    (hnext : reader.next style = (none, rest)) : Reader.Behind style lines count rest := by
  obtain ⟨hholds, hconsumed⟩ := h
  cases hlines : lines.drop count with
  | nil =>
      rw [hlines] at hholds
      obtain ⟨after, hend, hafter, hsame⟩ := hholds.next_nil
      obtain rfl : after = rest := (Prod.mk.inj (hend.symm.trans hnext)).2
      exact ⟨hlines ▸ hafter, hsame.trans hconsumed⟩
  | cons line others =>
      rw [hlines] at hholds
      obtain ⟨after, hline, -⟩ := hholds.next_cons
      exact absurd (Prod.mk.inj (hline.symm.trans hnext)).1 (by simp)

/-- A call with an answer takes a line off. -/
theorem Reader.Behind.next_some {answer : Except Failure Line}
    (h : Reader.Behind style lines count reader)
    (hnext : reader.next style = (some answer, rest)) :
    Reader.Behind style lines (count + 1) rest := by
  obtain ⟨hholds, hconsumed⟩ := h
  cases hlines : lines.drop count with
  | nil =>
      rw [hlines] at hholds
      obtain ⟨after, hend, -⟩ := hholds.next_nil
      exact absurd (Prod.mk.inj (hend.symm.trans hnext)).1 (by simp)
  | cons line others =>
      rw [hlines] at hholds
      obtain ⟨after, hline, hafter, hbytes⟩ := hholds.next_cons
      obtain rfl : after = rest := (Prod.mk.inj (hline.symm.trans hnext)).2
      have hplace : lines[count]? = some line := by
        rw [← List.head?_drop, hlines, List.head?_cons]
      have hothers : lines.drop (count + 1) = others := by
        rw [← List.tail_drop, hlines, List.tail_cons]
      refine ⟨hothers ▸ hafter, ?_⟩
      rw [hbytes, hconsumed, List.take_add_one, hplace, Option.toList_some, List.flatMap_append,
        List.length_append, List.flatMap_singleton]

end Behind

/-- **A check consumes the lines that it pulls**, with their endings, and nothing more. -/
theorem Config.consumed_detectRead {style : LineStyle} {script : List Event} {content : Bytes}
    (h : Event.Delivers script content) (config : Config) :
    (config.detectRead style (.ofEvents script)).source.consumed =
      (config.bytesPulled style script content).length := by
  have hbehind : Reader.Behind style (style.split content) 0 (.ofEvents script) :=
    ⟨h.holds style, rfl⟩
  have hkept : Reader.Behind style (style.split content)
      (config.detectRead style (.ofEvents script)).pulled
      (config.detectRead style (.ofEvents script)).source :=
    detectFrom_keeps (fun _ _ _ hbefore => hbefore.next_none)
      (fun _ _ _ _ hbefore => hbefore.next_some) hbehind [] config.rules config.window
  exact hkept.2

end LicenseHeader
