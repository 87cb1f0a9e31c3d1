import LicenseHeader.Proofs.Check.Pieces
import LicenseHeader.Proofs.Moonfire.Contract
import LicenseHeader.Proofs.Reader.Normalization

/-!
# The Moonfire NVR header in either style

The texts of the expected header have no line ending in them. So they stay in a line, and a
header that is found on standard input, whose lines end at line feeds alone, is found in a
file with the same content as well, where carriage returns end lines too. What can make the
difference is the window, since there are more lines in the file. The converse fails: where
only carriage returns end the lines of a header, standard input has one line for all its
texts.

## Main results

* `HeaderText.isIn_append_cons_iff`: texts and line endings.
* `Config.moonfire_universal_of_feedOnly`: a header on standard input is one in a file.
-/

namespace LicenseHeader

namespace HeaderText

/-- The patterns of the texts leave out what ends a line. -/
theorem admits_ending {header : HeaderText} {cls : CharClass}
    (h : cls ∈ header.pattern.classes) {c : Char} (hc : c ∈ ['\r', '\n']) :
    cls.admits c = false := by
  have hends : ∀ cls ∈ header.pattern.classes,
      cls.admits '\r' = false ∧ cls.admits '\n' = false := by
    cases header with
    | project =>
        have hproject : projectLine = _ := String.toList_ofList
        rw [pattern, hproject]
        decide
    | copyright =>
        have hbefore : beforeYear = _ := String.toList_ofList
        have hbehind : behindYear = _ := String.toList_ofList
        rw [pattern, hbefore, hbehind]
        decide
    | license =>
        have hlicense : licenseLine = _ := String.toList_ofList
        rw [pattern, hlicense]
        decide
  obtain ⟨hreturn, hfeed⟩ := hends cls h
  rcases List.mem_cons.mp hc with rfl | hc
  · exact hreturn
  · obtain rfl := List.mem_singleton.mp hc
    exact hfeed

/-- **No text has a line ending in it**, so each is on one side of an ending. -/
theorem isIn_append_cons_iff (header : HeaderText) {c : Char} (hc : c ∈ ['\r', '\n'])
    {front back : Line} :
    header.IsIn (front ++ c :: back) ↔ header.IsIn front ∨ header.IsIn back := by
  have hnot : ∀ word : Line, header.pattern.Spells word → c ∉ word := fun word hword =>
    Pattern.char_notMem_of_spells (fun cls hcls => admits_ending hcls hc) hword
  rw [← isIn_pattern_iff, ← isIn_pattern_iff, ← isIn_pattern_iff,
    Pattern.isIn_append_cons (isPlain_pattern header) hnot, Bool.or_eq_true]

end HeaderText

/-- The rules of the expected header stay in a line. -/
theorem Config.moonfire_staysInLine {rule : Rule} (h : rule ∈ Config.moonfire.rules) :
    rule.StaysInLine := by
  obtain ⟨header, hheader⟩ := exists_headerText h
  refine ⟨?_, fun c hc front back => ?_⟩
  · rw [← Bool.not_eq_true, hheader]
    exact header.not_isIn_nil
  · rw [Bool.eq_iff_iff, Bool.or_eq_true, hheader, hheader, hheader]
    exact header.isIn_append_cons_iff hc

/-- **A Moonfire NVR header on standard input is one in a file**, for a window of any size that
has room for the lines of the file: the verdict on the file is that the header is there, and
no more bytes of it are consumed. Content on standard input and content of a file may arrive
in different pieces. -/
theorem Config.moonfire_universal_of_feedOnly {config : Config}
    (hrules : config.rules = Config.moonfire.rules) {content : Bytes}
    (hwindow : (LineStyle.universal.split content).length ≤ config.window)
    {input file : List Event} (hinput : Event.Delivers input content)
    (hfile : Event.Delivers file content)
    (htrue : (config.detectRead .feedOnly (.ofEvents input)).verdict = .ok true) :
    (config.detectRead .universal (.ofEvents file)).verdict = .ok true ∧
      (config.detectRead .universal (.ofEvents file)).source.consumed ≤
        (config.detectRead .feedOnly (.ofEvents input)).source.consumed := by
  have hne : config.rules ≠ [] := by
    rw [hrules]
    exact moonfire_rules_ne_nil
  refine Config.detectRead_universal_of_feedOnly hne (fun rule hrule => ?_) hinput hfile hwindow
    htrue
  rw [hrules] at hrule
  exact Config.moonfire_staysInLine hrule

/-- A carriage return within the first line makes it two lines of a file; three lines on standard
input carry the header, and so do the four lines of the file. -/
theorem Config.moonfire_universal_of_feedOnly_of_four_lines :
    let license := Utf8.encode HeaderText.licenseLine
    let copyright :=
      Utf8.encode (HeaderText.beforeYear ++ ['2', '0'] ++ HeaderText.behindYear)
    let project := Utf8.encode HeaderText.projectLine
    let input : List Event := [.data (0x23 :: 0x0D :: project ++ 0x0A :: copyright),
      .data (0x0D :: 0x0A :: license)]
    let file : List Event := [.data (0x23 :: 0x0D :: project), .failure ⟨.interrupted, "again"⟩,
      .data (0x0A :: copyright ++ [0x0D]), .data (0x0A :: license)]
    (Config.moonfire.detectRead .universal (.ofEvents file)).verdict = .ok true ∧
      (Config.moonfire.detectRead .universal (.ofEvents file)).source.consumed ≤
        (Config.moonfire.detectRead .feedOnly (.ofEvents input)).source.consumed := by
  intro license copyright project input file
  have htwo : isDecimalDigit '2'.toNat = true := by decide
  have hzero : isDecimalDigit '0'.toNat = true := by decide
  have hlicense : LineStyle.universal.Clean license :=
    (HeaderText.unbroken_written htwo hzero .license).clean
  have hcopyright : LineStyle.universal.Clean copyright :=
    (HeaderText.unbroken_written htwo hzero .copyright).clean
  have hproject : LineStyle.universal.Clean project :=
    (HeaderText.unbroken_written htwo hzero .project).clean
  have hne : license ≠ [] := HeaderText.encode_written_ne_nil htwo hzero .license
  have hne' : project ≠ [] := HeaderText.encode_written_ne_nil htwo hzero .project
  have hinput : Event.Delivers input (Event.contentOf input) :=
    ⟨by simp [input, Event.isDelivery], rfl⟩
  have hfile : Event.Delivers file (Event.contentOf input) :=
    ⟨by simp [file, Event.isDelivery, Failure.isInterruption],
      by simp [file, input, Event.contentOf, Event.bytes]⟩
  have hwindow : (LineStyle.universal.split (Event.contentOf input)).length ≤
      Config.moonfire.window := by
    have hcontent : Event.contentOf input = [0x23] ++ carriageReturn ::
        (project ++ lineFeed :: (copyright ++ carriageReturn :: lineFeed :: license)) := by
      simp [input, Event.contentOf, Event.bytes, carriageReturn, lineFeed]
    have hhead : (project ++ lineFeed ::
        (copyright ++ carriageReturn :: lineFeed :: license)).head? ≠ some lineFeed := by
      rw [List.head?_append_of_ne_nil _ hne']
      exact hproject.head?_ne
    rw [hcontent, split_universal_return (List.forall_mem_singleton.mpr rfl) hhead, split_universal_feed hproject,
      split_universal_pair hcopyright, LineStyle.split_of_clean hlicense, if_neg hne,
      Config.moonfire_window]
    exact Nat.le_of_ble_eq_true rfl
  have htrue : (Config.moonfire.detectRead .feedOnly (.ofEvents input)).verdict = .ok true := by
    have hfirst : RawLine.fed ([0x23, carriageReturn] ++ project) =
        ⟨[0x23, carriageReturn] ++ project, [lineFeed]⟩ := by
      rw [RawLine.fed, List.getLast?_append_of_ne_nil _ hne']
      exact if_neg fun hlast => hproject.return_notMem (List.mem_of_getLast? hlast)
    have hsecond : RawLine.fed (copyright ++ [carriageReturn]) =
        ⟨copyright, [carriageReturn, lineFeed]⟩ := by
      rw [RawLine.fed, List.getLast?_concat, if_pos rfl, List.dropLast_concat]
    have hlines : (LineStyle.feedOnly.split (Event.contentOf input)).take 10 =
        [⟨[0x23, carriageReturn] ++ project, [lineFeed]⟩, ⟨copyright, [carriageReturn, lineFeed]⟩,
          ⟨license, []⟩] := by
      have hcontent : Event.contentOf input = ([0x23, carriageReturn] ++ project) ++ lineFeed ::
          ((copyright ++ [carriageReturn]) ++ lineFeed :: license) := by
        simp [input, Event.contentOf, Event.bytes, carriageReturn, lineFeed]
      have hclean : LineStyle.feedOnly.Clean ([0x23, carriageReturn] ++ project) :=
        List.forall_mem_cons.mpr ⟨rfl,
          List.forall_mem_cons.mpr ⟨rfl, LineStyle.Clean.feedOnly hproject⟩⟩
      have hclean' : LineStyle.feedOnly.Clean (copyright ++ [carriageReturn]) :=
        List.forall_mem_append.mpr
          ⟨LineStyle.Clean.feedOnly hcopyright, List.forall_mem_singleton.mpr rfl⟩
      rw [hcontent, split_feedOnly_feed hclean, split_feedOnly_feed hclean',
        LineStyle.split_of_clean (LineStyle.Clean.feedOnly hlicense), if_neg hne, hfirst, hsecond]
      rfl
    have hvalid : ∀ line ∈ (LineStyle.feedOnly.split (Event.contentOf input)).take 10,
        Utf8.IsValid line.text := by
      rw [hlines]
      have hmarked : Utf8.IsValid ([0x23, carriageReturn] ++ project) :=
        ⟨'#' :: '\r' :: HeaderText.projectLine, rfl⟩
      exact List.forall_mem_cons.mpr ⟨hmarked, List.forall_mem_cons.mpr ⟨⟨_, rfl⟩,
        List.forall_mem_singleton.mpr ⟨_, rfl⟩⟩⟩
    obtain ⟨hfound, -⟩ := Config.verdict_moonfire hinput hvalid
    rw [hlines] at hfound
    have hstands : HeaderText.project.StandsOn ⟨[0x23, carriageReturn] ++ project, [lineFeed]⟩ :=
      ⟨'#' :: '\r' :: HeaderText.projectLine, rfl,
        (List.suffix_append ['#', '\r'] HeaderText.projectLine).isInfix⟩
    exact hfound (.of_written htwo hzero ⟨_, List.mem_cons_self, hstands⟩
      ⟨⟨copyright, [carriageReturn, lineFeed]⟩, by simp, rfl⟩ ⟨⟨license, []⟩, by simp, rfl⟩)
  exact Config.moonfire_universal_of_feedOnly rfl hwindow hinput hfile htrue

end LicenseHeader
