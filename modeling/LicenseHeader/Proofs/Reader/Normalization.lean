import LicenseHeader.Check.Content
import LicenseHeader.Proofs.Detection.Agreement
import LicenseHeader.Proofs.Reader.Calls

/-!
# Files and standard input

Files are read in the universal style and standard input in the feed-only style. This module
says how far the two styles differ. A content and its normalization, in which every ending
is a line feed, have lines with the same texts, the one in the universal style and the other
in the feed-only style (`map_text_split_normalizeEndings`). Where every carriage return
stands in front of a line feed nothing need be normalized: such a content has the same lines
in both styles, endings included (`split_feedOnly_eq_universal`).

What this means for readers is said by two relations. Readers that hold the same *texts*
answer alike for ever, and readers that hold the same *lines* moreover stay at the same
byte. Detection over related readers then agrees, however far it reads
(`detect_lockstep`). Failures are compared by their kind only, since the two styles word
them differently.

## Main definitions

* `BothInvalid`: failures that are both of invalid data.
* `ReturnsPaired`: contents whose carriage returns all stand in front of line feeds.
* `Reader.SameTexts`, `Reader.SameLines`: readers of the two styles with the same texts, or
  with the same lines at the same byte.

## Main results

* `map_text_split_normalizeEndings`, `split_feedOnly_eq_universal`: splitting in both styles.
* `Config.detectRead_styles_agree`: checks of files and of standard input.
-/

namespace LicenseHeader

/-! ### Normalized contents -/

/-- Bytes that end no line in the universal style end none in the feed-only style. -/
theorem LineStyle.Clean.feedOnly {text : Bytes} (h : LineStyle.universal.Clean text) :
    LineStyle.feedOnly.Clean text := fun b hb =>
  feedOnly_stops_eq_false.mpr (universal_stops_eq_false.mp (h b hb)).1

/-- Bytes that end no line in the universal style hold no carriage return. -/
theorem LineStyle.Clean.return_notMem {text : Bytes} (h : LineStyle.universal.Clean text) :
    carriageReturn ∉ text := fun hmem =>
  (universal_stops_eq_false.mp (h carriageReturn hmem)).2 rfl

/-- Behind bytes without a carriage return the line feed is the whole ending. -/
theorem RawLine.fed_of_clean {text : Bytes} (h : LineStyle.universal.Clean text) :
    RawLine.fed text = ⟨text, [lineFeed]⟩ :=
  if_neg fun hlast => h.return_notMem (List.mem_of_getLast? hlast)

/-- Bytes that end no line stand in the normalized content as they are. -/
theorem normalizeEndings_append {text : Bytes} (h : LineStyle.universal.Clean text)
    (rest : Bytes) : normalizeEndings (text ++ rest) = text ++ normalizeEndings rest := by
  induction text with
  | nil => rfl
  | cons b text ih =>
      obtain ⟨hb, hclean⟩ := List.forall_mem_cons.mp h
      have hreturn := (LineStyle.universal_stops_eq_false.mp hb).2
      rw [List.cons_append, normalizeEndings, if_neg hreturn, ih hclean]
      · rfl
      · rintro rest' rfl -
        exact hreturn rfl

/-- A line feed stays one. -/
theorem normalizeEndings_feed (rest : Bytes) :
    normalizeEndings (lineFeed :: rest) = lineFeed :: normalizeEndings rest := by
  rw [normalizeEndings.eq_def]
  exact congrArg (· :: _) (if_neg (by decide))

/-- A carriage return and a line feed become one line feed. -/
theorem normalizeEndings_pair (rest : Bytes) :
    normalizeEndings (carriageReturn :: lineFeed :: rest) =
      lineFeed :: normalizeEndings rest := rfl

/-- Another carriage return becomes a line feed. -/
theorem normalizeEndings_return {rest : Bytes} (h : rest.head? ≠ some lineFeed) :
    normalizeEndings (carriageReturn :: rest) = lineFeed :: normalizeEndings rest := by
  rw [normalizeEndings]
  · exact congrArg (· :: _) (if_pos rfl)
  · rintro rest' - rfl
    exact h rfl

/-- The text of a line in front of a line feed, and those of the lines behind it. -/
theorem map_text_split_feed {text : Bytes} (h : LineStyle.universal.Clean text)
    (rest : Bytes) :
    (LineStyle.feedOnly.split (text ++ lineFeed :: rest)).map RawLine.text =
      text :: (LineStyle.feedOnly.split rest).map RawLine.text := by
  rw [split_feedOnly_feed h.feedOnly, RawLine.fed_of_clean h, List.map_cons]

/-- **Normalizing the endings makes up for the style.** The texts of the lines of a content
in the universal style are those of its normalization in the feed-only style. -/
theorem map_text_split_normalizeEndings (content : Bytes) :
    (LineStyle.feedOnly.split (normalizeEndings content)).map RawLine.text =
      (LineStyle.universal.split content).map RawLine.text := by
  induction content using LineStyle.universal_induction with
  | clean content hclean =>
      have hnormal : normalizeEndings content = content := by
        simpa [normalizeEndings] using normalizeEndings_append hclean []
      rw [hnormal, LineStyle.split_of_clean hclean, LineStyle.split_of_clean hclean.feedOnly]
  | feed text rest hclean ih =>
      rw [normalizeEndings_append hclean, normalizeEndings_feed,
        map_text_split_feed hclean, ih, split_universal_feed hclean, List.map_cons]
  | pair text rest hclean ih =>
      rw [normalizeEndings_append hclean, normalizeEndings_pair,
        map_text_split_feed hclean, ih, split_universal_pair hclean, List.map_cons]
  | lone text rest hclean hrest ih =>
      rw [normalizeEndings_append hclean, normalizeEndings_return hrest,
        map_text_split_feed hclean, ih, split_universal_return hclean hrest, List.map_cons]

/-! ### Contents that need no normalization -/

/-- Every carriage return stands in front of a line feed. -/
def ReturnsPaired (content : Bytes) : Prop :=
  ∀ i < content.length, content[i]? = some carriageReturn → content[i + 1]? = some lineFeed

instance (content : Bytes) : Decidable (ReturnsPaired content) :=
  inferInstanceAs (Decidable (∀ i < content.length,
    content[i]? = some carriageReturn → content[i + 1]? = some lineFeed))

/-- Behind a carriage return of such a content comes a line feed. -/
theorem ReturnsPaired.head?_eq {front back : Bytes}
    (h : ReturnsPaired (front ++ carriageReturn :: back)) : back.head? = some lineFeed := by
  have hnext := h front.length (by simp) (by simp)
  rw [List.getElem?_append_right (Nat.le_add_right _ _), Nat.add_sub_cancel_left,
    List.getElem?_cons_succ] at hnext
  rw [List.head?_eq_getElem?, hnext]

/-- What stands at the end of such a content is one itself. -/
theorem ReturnsPaired.suffix {front content : Bytes} (h : ReturnsPaired (front ++ content)) :
    ReturnsPaired content := by
  intro i hi hreturn
  have hnext := h (front.length + i) (by rw [List.length_append]; omega)
    (by rw [List.getElem?_append_right (Nat.le_add_right _ _), Nat.add_sub_cancel_left, hreturn])
  rw [Nat.add_assoc, List.getElem?_append_right (Nat.le_add_right _ _),
    Nat.add_sub_cancel_left] at hnext
  exact hnext

/-- **Paired endings are the same in both styles.** -/
theorem split_feedOnly_eq_universal {content : Bytes} (h : ReturnsPaired content) :
    LineStyle.feedOnly.split content = LineStyle.universal.split content := by
  induction content using LineStyle.universal_induction with
  | clean content hclean =>
      rw [LineStyle.split_of_clean hclean, LineStyle.split_of_clean hclean.feedOnly]
  | feed text rest hclean ih =>
      rw [List.append_cons] at h
      rw [split_universal_feed hclean, split_feedOnly_feed hclean.feedOnly,
        RawLine.fed_of_clean hclean, ih h.suffix]
  | pair text rest hclean ih =>
      rw [List.append_cons, List.append_cons] at h
      -- in the feed-only style the carriage return is first read as part of the line
      have hline : LineStyle.feedOnly.Clean (text ++ [carriageReturn]) :=
        List.forall_mem_append.mpr ⟨hclean.feedOnly, by simp; decide⟩
      have hfed : RawLine.fed (text ++ [carriageReturn]) =
          ⟨text, [carriageReturn, lineFeed]⟩ := by
        rw [RawLine.fed, if_pos (by simp), List.dropLast_concat]
      have hsplit := split_feedOnly_feed hline rest
      rw [List.append_assoc, List.singleton_append] at hsplit
      rw [split_universal_pair hclean, hsplit, hfed, ih h.suffix]
  | lone text rest hclean hrest ih => exact absurd h.head?_eq hrest

/-! ### Readers of the two styles -/

/-- Two failures that are both of invalid data. -/
def BothInvalid (e e' : Failure) : Prop :=
  e.kind = .invalidData ∧ e'.kind = .invalidData

/-- The same bytes have the same text in both styles, or are invalid in both. -/
theorem RawLine.decode_agree {line line' : RawLine} (h : line.text = line'.text)
    (style style' : LineStyle) :
    Agree BothInvalid (line.decode style) (line'.decode style') := by
  rw [decode, decode, LineStyle.decode, LineStyle.decode, h]
  cases Utf8.decode line'.text with
  | ok text => exact .ok text
  | error e => exact .error ⟨rfl, rfl⟩

/-- A reader of files and one of standard input that hold lines with the same texts. -/
def Reader.SameTexts (file input : Reader) : Prop :=
  ∃ lines lines', file.Holds .universal lines ∧ input.Holds .feedOnly lines' ∧
    lines'.map RawLine.text = lines.map RawLine.text

/-- A reader of files and one of standard input that hold the same lines and have consumed
as many bytes. -/
def Reader.SameLines (file input : Reader) : Prop :=
  ∃ lines, file.Holds .universal lines ∧ input.Holds .feedOnly lines ∧
    file.consumed = input.consumed

/-- Readers with the same texts answer alike, and keep having the same texts. -/
theorem Reader.SameTexts.lockstep :
    Lockstep BothInvalid (Reader.next .universal) (Reader.next .feedOnly)
      fun _ => Reader.SameTexts := by
  rintro - file input ⟨lines, lines', hfile, hinput, htexts⟩
  cases lines with
  | nil =>
      rw [List.map_nil, List.map_eq_nil_iff] at htexts
      subst htexts
      obtain ⟨after, hnext, hafter, -⟩ := hfile.next_nil
      obtain ⟨after', hnext', hafter', -⟩ := hinput.next_nil
      rw [hnext, hnext']
      exact ⟨.none, [], [], hafter, hafter', rfl⟩
  | cons line lines =>
      rw [List.map_cons, List.map_eq_cons_iff] at htexts
      obtain ⟨line', rest', rfl, htext, hrest⟩ := htexts
      obtain ⟨after, hnext, hafter, -⟩ := hfile.next_cons
      obtain ⟨after', hnext', hafter', -⟩ := hinput.next_cons
      rw [hnext, hnext']
      exact ⟨.some (RawLine.decode_agree htext.symm _ _), lines, rest', hafter, hafter', hrest⟩

/-- Readers with the same lines answer alike, and keep having the same lines at the same
byte. -/
theorem Reader.SameLines.lockstep :
    Lockstep BothInvalid (Reader.next .universal) (Reader.next .feedOnly)
      fun _ => Reader.SameLines := by
  rintro - file input ⟨lines, hfile, hinput, hlevel⟩
  cases lines with
  | nil =>
      obtain ⟨after, hnext, hafter, hconsumed⟩ := hfile.next_nil
      obtain ⟨after', hnext', hafter', hconsumed'⟩ := hinput.next_nil
      rw [hnext, hnext']
      exact ⟨.none, [], hafter, hafter', by rw [hconsumed, hconsumed', hlevel]⟩
  | cons line lines =>
      obtain ⟨after, hnext, hafter, hconsumed⟩ := hfile.next_cons
      obtain ⟨after', hnext', hafter', hconsumed'⟩ := hinput.next_cons
      rw [hnext, hnext']
      exact ⟨.some (RawLine.decode_agree rfl _ _), lines, hafter, hafter',
        by rw [hconsumed, hconsumed', hlevel]⟩

/-- Readers in lockstep answer alike to every call. -/
theorem Reader.call_agree {level : Reader → Reader → Prop} {style style' : LineStyle}
    (hstep : Lockstep BothInvalid (Reader.next style) (Reader.next style') fun _ => level)
    {reader reader' : Reader} (h : level reader reader') (k : Nat) :
    Option.Rel (Agree BothInvalid) (reader.call style k).1 (reader'.call style' k).1 := by
  induction k generalizing reader reader' with
  | zero => exact (hstep 0 reader reader' h).1
  | succ k ih => exact ih (hstep 0 reader reader' h).2

/-- **Checks of files are checks of standard input up to the endings.** Whatever a content
is, and however it and its normalization arrive: the lines of the one in the universal style
and those of the other in the feed-only style agree call by call, and so do the verdicts of
every configuration. If every carriage return of the content stands in front of a line feed,
then the verdicts on the content itself agree in both styles, and as many bytes of it are
consumed. -/
theorem Config.detectRead_styles_agree {content : Bytes} {file : List Event}
    (hfile : Event.Delivers file content) :
    (∀ input, Event.Delivers input (normalizeEndings content) →
      (∀ k, Option.Rel (Agree BothInvalid) ((Reader.ofEvents file).call .universal k).1
        ((Reader.ofEvents input).call .feedOnly k).1) ∧
      ∀ config : Config, Agree BothInvalid
        (config.detectRead .universal (.ofEvents file)).verdict
        (config.detectRead .feedOnly (.ofEvents input)).verdict) ∧
    (ReturnsPaired content → ∀ input, Event.Delivers input content → ∀ config : Config,
      let outcome := config.detectRead .universal (.ofEvents file)
      let outcome' := config.detectRead .feedOnly (.ofEvents input)
      Agree BothInvalid outcome.verdict outcome'.verdict ∧
        outcome.source.consumed = outcome'.source.consumed) := by
  refine ⟨fun input hinput => ?_, fun hpaired input hinput config => ?_⟩
  · have hsame : (Reader.ofEvents file).SameTexts (.ofEvents input) :=
      ⟨_, _, hfile.holds .universal, hinput.holds .feedOnly,
        map_text_split_normalizeEndings content⟩
    refine ⟨Reader.call_agree Reader.SameTexts.lockstep hsame, fun config => ?_⟩
    exact (detect_lockstep Reader.SameTexts.lockstep Rule.accepts config.rules config.window
      hsame).verdict
  · have hlines := hinput.holds .feedOnly
    rw [split_feedOnly_eq_universal hpaired] at hlines
    have hsame : (Reader.ofEvents file).SameLines (.ofEvents input) :=
      ⟨_, hfile.holds .universal, hlines, rfl⟩
    have hagrees :=
      detect_lockstep Reader.SameLines.lockstep Rule.accepts config.rules config.window hsame
    obtain ⟨-, -, -, -, hlevel⟩ := hagrees.source
    exact ⟨hagrees.verdict, hlevel⟩

/-- The styles agree on two carriage returns and a line feed in front of invalid data, cut
within the last ending and normalized, and on a line with a paired ending as it is. -/
theorem Config.detectRead_styles_agree_of_cut_ending :
    let file : List Event :=
      [.data [0x61, 0x0D, 0x0D], .failure ⟨.interrupted, "again"⟩, .data [0x0A, 0xFF]]
    let input : List Event := [.data [0x61], .data [0x0A, 0x0A, 0xFF]]
    let paired : List Event := [.data [0x61, 0x0D], .data [0x0A]]
    let whole : List Event := [.data [0x61, 0x0D, 0x0A]]
    (∀ k, Option.Rel (Agree BothInvalid) ((Reader.ofEvents file).call .universal k).1
      ((Reader.ofEvents input).call .feedOnly k).1) ∧
    Agree BothInvalid (Config.moonfire.detectRead .universal (.ofEvents file)).verdict
      (Config.moonfire.detectRead .feedOnly (.ofEvents input)).verdict ∧
    (Config.moonfire.detectRead .universal (.ofEvents paired)).source.consumed =
      (Config.moonfire.detectRead .feedOnly (.ofEvents whole)).source.consumed := by
  intro file input paired whole
  have hfile : Event.Delivers file [0x61, 0x0D, 0x0D, 0x0A, 0xFF] := ⟨by decide, by decide⟩
  have hinput : Event.Delivers input (normalizeEndings [0x61, 0x0D, 0x0D, 0x0A, 0xFF]) :=
    ⟨by decide, by decide⟩
  have hpaired : Event.Delivers paired [0x61, 0x0D, 0x0A] := ⟨by decide, by decide⟩
  have hwhole : Event.Delivers whole [0x61, 0x0D, 0x0A] := ⟨by decide, by decide⟩
  obtain ⟨hcalls, hverdicts⟩ := (Config.detectRead_styles_agree hfile).1 input hinput
  obtain ⟨-, hconsumed⟩ :=
    (Config.detectRead_styles_agree hpaired).2 (by decide) whole hwhole Config.moonfire
  exact ⟨hcalls, hverdicts Config.moonfire, hconsumed⟩

end LicenseHeader
