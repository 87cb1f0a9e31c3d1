import LicenseHeader.Proofs.Check.Window
import LicenseHeader.Proofs.Detection.Completion
import LicenseHeader.Proofs.Detection.Refinement
import LicenseHeader.Proofs.Reader.Joining

/-!
# Lines of one style as pieces of the other

The two styles split a content at different places. Where the feed-only style has one line,
the universal style has as many as there are carriage returns to end them, and line feeds end
a line in both. So the universal lines are pieces of the feed-only ones, in their order.

For a rule this makes no difference if it *stays in a line*: it does not accept an empty line,
and a line ending within a text separates two places where it may be met. Then the universal
lines refine the feed-only ones, and a header that detection finds among the latter it finds
among the former, unless the window is too small for the pieces. The bytes that it has
consumed by then are no more: the pieces of the lines that were read are enough.

## Main definitions

* `Rule.StaysInLine`: rules that no line ending helps.
* `HasPieces`: universal lines that make up feed-only lines and refine them.

## Main results

* `exists_pieces`: the universal lines of a text.
* `exists_hasPieces`: universal lines refine feed-only lines.
* `Config.detectRead_universal_of_feedOnly`: a header on standard input is one in a file.
-/

namespace LicenseHeader

/-- A rule that accepts no empty line, and accepts a text with a line ending in it if and only
if it accepts what is on one side of it. -/
structure Rule.StaysInLine (rule : Rule) : Prop where
  /-- The empty line is not accepted. -/
  nil : rule.accepts [] = false
  /-- An ending separates. -/
  cut : ∀ c ∈ ['\r', '\n'], ∀ front back : Line,
    rule.accepts (front ++ c :: back) = (rule.accepts front || rule.accepts back)

/-! ### Pieces of a text -/

/-- The first universal line of a text and the rest of it are texts, and a rule that stays in
a line accepts one of them if it accepts the text. -/
theorem FirstLine.exists_texts {text : Line} {line : RawLine} {rest : Bytes}
    (h : FirstLine .universal (Utf8.encode text) line rest) :
    ∃ front back, line.text = Utf8.encode front ∧ rest = Utf8.encode back ∧
      ∀ rule : Rule, rule.StaysInLine →
        rule.accepts text = (rule.accepts front || rule.accepts back) := by
  obtain ⟨ended, back, rfl, rfl, hrest⟩ := h.exists_ended
  refine ⟨ended.text, back, rfl, hrest, fun rule hstays => ?_⟩
  cases ended.ending with
  | feed => exact hstays.cut '\n' (by decide) ended.text back
  | lone => exact hstays.cut '\r' (by decide) ended.text back
  | pair =>
      have hreturn := hstays.cut '\r' (by decide) ended.text ('\n' :: back)
      have hfeed := hstays.cut '\n' (by decide) [] back
      rw [hstays.nil, Bool.false_or] at hfeed
      exact hreturn.trans (congrArg (rule.accepts ended.text || ·) hfeed)

/-- **The universal lines of a text have texts**, and a rule that stays in a line accepts one
of them if and only if it accepts the whole. -/
theorem exists_pieces (text : Line) :
    ∃ pieces : List Line,
      (LineStyle.universal.split (Utf8.encode text)).map RawLine.text =
        pieces.map Utf8.encode ∧
      ∀ rule : Rule, rule.StaysInLine → rule.accepts text = pieces.any rule.accepts := by
  induction hcontent : Utf8.encode text using @LineStyle.line_induction .universal
    generalizing text with
  | clean content hclean =>
      rw [LineStyle.split_of_clean hclean]
      split
      · next hempty =>
          subst hempty
          obtain rfl : text = [] := Utf8.encode_inj.mp hcontent
          exact ⟨[], rfl, fun rule hstays => hstays.nil⟩
      · refine ⟨[text], ?_, fun rule _ => ?_⟩
        · rw [← hcontent]
          rfl
        · rw [List.any_cons, List.any_nil, Bool.or_false]
  | first content line rest hfirst ih =>
      subst hcontent
      obtain ⟨front, back, hline, hrest, hcut⟩ := hfirst.exists_texts
      obtain ⟨pieces, hpieces, hany⟩ := ih back hrest.symm
      refine ⟨front :: pieces, ?_, fun rule hstays => ?_⟩
      · rw [hfirst.split, List.map_cons, hpieces, hline, List.map_cons]
      · rw [hcut rule hstays, hany rule hstays, List.any_cons]

/-! ### Pieces of lines -/

/-- A feed-only line with its ending is a text too, and a rule that stays in a line accepts it
if and only if it accepts the text of the line. -/
theorem RawLine.exists_bytes_fed {before : Bytes} {text : Line}
    (h : (RawLine.fed before).text = Utf8.encode text) :
    ∃ whole : Line, (RawLine.fed before).bytes = Utf8.encode whole ∧
      ∀ rule : Rule, rule.StaysInLine → rule.accepts text = rule.accepts whole := by
  have hfeed : ∀ front : Line, ∀ rule : Rule, rule.StaysInLine →
      rule.accepts (front ++ ['\n']) = rule.accepts front := by
    intro front rule hstays
    rw [hstays.cut '\n' (by decide), hstays.nil, Bool.or_false]
  rw [fed] at h ⊢
  split at h
  · next hreturn =>
      rw [if_pos hreturn, bytes]
      refine ⟨text ++ '\r' :: ['\n'], ?_, fun rule hstays => ?_⟩
      · rw [Utf8.encode_append, ← h]
        rfl
      · have hlast : rule.accepts ['\n'] = rule.accepts [] := hfeed [] rule hstays
        rw [hstays.cut '\r' (by decide), hlast, hstays.nil, Bool.or_false]
  · next hreturn =>
      rw [if_neg hreturn, bytes]
      refine ⟨text ++ ['\n'], ?_, fun rule hstays => (hfeed text rule hstays).symm⟩
      rw [Utf8.encode_append, ← h]
      rfl

/-- The universal lines of a feed-only line are the first ones of a content that begins with
it. They have texts, and a rule that stays in a line accepts one of them if and only if it
accepts that line. -/
theorem FirstLine.exists_pieces {content rest : Bytes} {line : RawLine} {text : Line}
    (h : FirstLine .feedOnly content line rest) (htext : line.text = Utf8.encode text) :
    LineStyle.universal.split content =
        LineStyle.universal.split line.bytes ++ LineStyle.universal.split rest ∧
      ∃ pieces : List Line,
        (LineStyle.universal.split line.bytes).map RawLine.text = pieces.map Utf8.encode ∧
        ∀ rule : Rule, rule.StaysInLine → rule.accepts text = pieces.any rule.accepts := by
  cases h with
  | @fed before hclean rest =>
      obtain ⟨whole, hwhole, haccepts⟩ := RawLine.exists_bytes_fed htext
      obtain ⟨pieces, hpieces, hany⟩ := LicenseHeader.exists_pieces whole
      refine ⟨?_, pieces, ?_, fun rule hstays => ?_⟩
      · rw [RawLine.bytes_fed]
        exact split_universal_append_feed before rest
      · rw [hwhole]
        exact hpieces
      · exact (haccepts rule hstays).trans (hany rule hstays)

/-- Texts of universal lines, for those of as many feed-only lines of a content: the universal
lines make up the same bytes, and their texts refine the others. -/
structure HasPieces (rules : List Rule) (content : Bytes) (count : Nat)
    (texts pieces : List Line) : Prop where
  /-- The first universal lines have these texts. -/
  texts_eq : ((LineStyle.universal.split content).take pieces.length).map RawLine.text =
    pieces.map Utf8.encode
  /-- Whatever the texts give to a rule, the pieces do. -/
  refines : Refines Rule.accepts rules texts pieces
  /-- The lines make up the same bytes. -/
  bytes_eq : ((LineStyle.universal.split content).take pieces.length).flatMap RawLine.bytes =
    ((LineStyle.feedOnly.split content).take count).flatMap RawLine.bytes

section HasPieces

variable {rules : List Rule} {content rest : Bytes} {count : Nat} {line : RawLine}
  {text : Line} {texts pieces : List Line}

/-- A content without a line feed is the only feed-only line, and all universal lines are
pieces of it. -/
theorem exists_hasPieces_of_clean (hrules : ∀ rule ∈ rules, rule.StaysInLine)
    (hclean : LineStyle.feedOnly.Clean content) (hne : content ≠ [])
    (htext : Utf8.encode text = content) :
    ∃ pieces, HasPieces rules content (count + 1) [text] pieces := by
  obtain ⟨pieces, hpieces, hany⟩ := exists_pieces text
  rw [htext] at hpieces
  have htake : (LineStyle.universal.split content).take pieces.length =
      LineStyle.universal.split content := by
    rw [← RawLine.length_eq_of_texts hpieces, List.take_length]
  refine ⟨pieces, ?_, ?_, ?_⟩
  · rw [htake, hpieces]
  · have hrefines : Refines Rule.accepts rules [text] (pieces ++ []) :=
      Refines.nil.line fun rule hrule => hany rule (hrules rule hrule)
    rw [List.append_nil] at hrefines
    exact hrefines
  · rw [htake, LineStyle.flatMap_bytes_split, LineStyle.split_of_clean hclean, if_neg hne,
      List.take_succ_cons, List.take_nil, List.flatMap_singleton, RawLine.bytes,
      List.append_nil]

/-- A feed-only line in front of others comes with its pieces in front of theirs. -/
theorem HasPieces.exists_line (h : HasPieces rules rest count texts pieces)
    (hrules : ∀ rule ∈ rules, rule.StaysInLine)
    (hfirst : FirstLine .feedOnly content line rest) (htext : line.text = Utf8.encode text) :
    ∃ block, HasPieces rules content (count + 1) (text :: texts) (block ++ pieces) := by
  obtain ⟨hsplit, block, hblock, hany⟩ := hfirst.exists_pieces htext
  have htake : (LineStyle.universal.split content).take (block ++ pieces).length =
      LineStyle.universal.split line.bytes ++
        (LineStyle.universal.split rest).take pieces.length := by
    rw [hsplit, List.length_append, ← RawLine.length_eq_of_texts hblock,
      List.take_length_add_append]
  refine ⟨block, ?_, ?_, ?_⟩
  · rw [htake, List.map_append, hblock, h.texts_eq, List.map_append]
  · exact h.refines.line fun rule hrule => hany rule (hrules rule hrule)
  · rw [htake, hfirst.split, List.flatMap_append, h.bytes_eq, List.take_succ_cons,
      List.flatMap_cons, LineStyle.flatMap_bytes_split]

/-- **Universal lines refine feed-only lines.** Where the first feed-only lines have texts, so
have the universal lines that make up the same bytes, and those refine these. Induction on the
number of lines. -/
theorem exists_hasPieces (hrules : ∀ rule ∈ rules, rule.StaysInLine)
    (htexts : ((LineStyle.feedOnly.split content).take count).map RawLine.text =
      texts.map Utf8.encode) :
    ∃ pieces, HasPieces rules content count texts pieces := by
  induction count generalizing content texts with
  | zero =>
      obtain rfl : texts = [] := List.map_eq_nil_iff.mp htexts.symm
      exact ⟨[], rfl, .nil, rfl⟩
  | succ count ih =>
      rcases LineStyle.feedOnly.clean_or_firstLine content with hclean | ⟨line, rest, hfirst⟩
      · by_cases hempty : content = []
        · subst hempty
          obtain rfl : texts = [] := List.map_eq_nil_iff.mp htexts.symm
          exact ⟨[], rfl, .nil, rfl⟩
        · rw [LineStyle.split_of_clean hclean, if_neg hempty, List.take_succ_cons, List.take_nil,
            List.map_singleton, eq_comm, List.map_eq_singleton_iff] at htexts
          obtain ⟨text, rfl, htext⟩ := htexts
          exact exists_hasPieces_of_clean hrules hclean hempty htext
      · rw [hfirst.split, List.take_succ_cons, List.map_cons, eq_comm,
          List.map_eq_cons_iff] at htexts
        obtain ⟨text, others, rfl, htext, hothers⟩ := htexts
        obtain ⟨pieces, hpieces⟩ := ih hothers.symm
        obtain ⟨block, hblock⟩ := hpieces.exists_line hrules hfirst htext.symm
        exact ⟨block ++ pieces, hblock⟩

end HasPieces

/-! ### Verdicts -/

/-- **A header on standard input is one in a file.** Let all rules stay in a line, and let the
window have room for the universal lines of a content. If detection among its feed-only lines
finds the header, so does detection among its universal lines, and it consumes no more bytes,
however the content arrives at the one and at the other. -/
theorem Config.detectRead_universal_of_feedOnly {config : Config} (hne : config.rules ≠ [])
    (hrules : ∀ rule ∈ config.rules, rule.StaysInLine) {input file : List Event}
    {content : Bytes} (hinput : Event.Delivers input content)
    (hfile : Event.Delivers file content)
    (hwindow : (LineStyle.universal.split content).length ≤ config.window)
    (htrue : (config.detectRead .feedOnly (.ofEvents input)).verdict = .ok true) :
    (config.detectRead .universal (.ofEvents file)).verdict = .ok true ∧
      (config.detectRead .universal (.ofEvents file)).source.consumed ≤
        (config.detectRead .feedOnly (.ofEvents input)).source.consumed := by
  have hagrees := (hinput.holds .feedOnly).detectRead_agrees config
  have hagrees' := (hfile.holds .universal).detectRead_agrees config
  rw [hagrees.verdict.eq] at htrue
  -- the feed-only lines that are pulled carry the header
  obtain ⟨-, hroom, texts, -, htake, hcarries⟩ := completeAt_pulled htrue
  rw [← hagrees.pulled] at hroom htake
  rw [← List.map_take, List.take_take, Nat.min_eq_left hroom] at htake
  obtain ⟨pieces, hpieces, hrefines, hbytes⟩ :=
    exists_hasPieces hrules (RawLine.map_text_eq htake)
  -- and so do the universal lines of the same bytes
  have hlength : pieces.length ≤ (LineStyle.universal.split content).length := by
    have hsame := RawLine.length_eq_of_texts hpieces
    rw [List.length_take] at hsame
    omega
  have hcarried : config.Carries pieces :=
    hrefines.verdict_detectList hne (Nat.le_trans hlength hwindow) hcarries
  have hpos : 1 ≤ pieces.length := by
    have hone := (completeAt_pulled hcarried).1
    have hbound := (detectList_pulls Rule.accepts config.rules config.window
      (pieces.map Except.ok : List (Except Empty Line))).1
    rw [List.length_map] at hbound
    exact Nat.le_trans hone (Nat.le_trans hbound (Nat.min_le_right _ _))
  have hcomplete : config.CompleteAt (((LineStyle.universal.split content).take
      config.window).map (RawLine.decode .universal)) pieces.length := by
    refine ⟨hpos, Nat.le_trans hlength hwindow, pieces, rfl, ?_, hcarried⟩
    rw [← List.map_take, List.take_take, Nat.min_eq_left (Nat.le_trans hlength hwindow)]
    exact RawLine.map_decode_eq hpieces
  obtain ⟨hverdict, hpulled⟩ := verdict_of_completeAt hcomplete
  refine ⟨hagrees'.verdict.eq.trans hverdict, ?_⟩
  rw [← hagrees'.pulled] at hpulled
  rw [consumed_detectRead hfile, consumed_detectRead hinput, bytesPulled, bytesPulled, ← hbytes]
  -- fewer lines have no more bytes
  obtain ⟨more, hmore⟩ : (LineStyle.universal.split content).take
      (config.detectRead .universal (.ofEvents file)).pulled <+:
        (LineStyle.universal.split content).take pieces.length :=
    List.take_prefix_take_left hpulled
  rw [← hmore, List.flatMap_append, List.length_append]
  exact Nat.le_add_right _ _

end LicenseHeader
