import LicenseHeader.Proofs.Check.Files
import LicenseHeader.Proofs.Check.Window
import LicenseHeader.Proofs.Detection.Coverage
import LicenseHeader.Proofs.Moonfire.Filenames
import LicenseHeader.Proofs.Moonfire.Rules
import LicenseHeader.Proofs.Reader.Joining

/-!
# The contract of the Moonfire NVR header

What a check with `Config.moonfire` promises about a file, from its bytes to the list of
names. The header is *complete* in some lines if each of its texts stands on a line that has
none of the texts tried before it, and *lacking* if some text stands on none of them. Where
the first ten lines are valid UTF-8, a file with a complete header passes, and a file with a
lacking one is named, however its bytes arrive and whatever comes behind the tenth line.

The steps are those of a check: the reader holds the lines of the content, detection sees
the decoded lines of the window, the rules accept what the texts stand in, and a text on a
line of its own is a rule with a line of its own.

## Main definitions

* `HeaderText.StandsOn`: whether a text stands on a line of a content.
* `HeaderText.written`: the texts as lines of their own.
* `HeaderComplete`, `HeaderLacking`: what lines have of the header.

## Main results

* `Config.verdict_moonfire`: the verdict on a content, in either style.
* `Config.moonfire_contract`: the promise.
-/

namespace LicenseHeader

/-- Whether a text of the header stands on a line of a content, which must be valid
UTF-8. -/
def HeaderText.StandsOn (header : HeaderText) (line : RawLine) : Prop :=
  ∃ text, line.text = Utf8.encode text ∧ header.IsIn text

/-- Every text stands on some line, without any of the texts that are tried before it. -/
def HeaderComplete (lines : List RawLine) : Prop :=
  ∀ header : HeaderText, ∃ line ∈ lines, header.StandsOn line ∧
    ∀ other ∈ header.earlier, ¬other.StandsOn line

/-- Some text stands on none of the lines. -/
def HeaderLacking (lines : List RawLine) : Prop :=
  ∃ header : HeaderText, ∀ line ∈ lines, ¬header.StandsOn line

/-! ### Lines and their texts -/

/-- On a line with a text stands what is in the text. -/
theorem HeaderText.standsOn_iff {header : HeaderText} {line : RawLine} {text : Line}
    (h : line.text = Utf8.encode text) : header.StandsOn line ↔ header.IsIn text := by
  constructor
  · rintro ⟨other, hother, hin⟩
    rw [h, Utf8.encode_inj] at hother
    exact hother ▸ hin
  · intro hin
    exact ⟨text, h, hin⟩

section Texts

variable {lines : List RawLine} {texts : List Line}

/-- In a complete header every rule has a line of its own. -/
theorem HeaderComplete.ownLines (hcomplete : HeaderComplete lines)
    (h : lines.map RawLine.text = texts.map Utf8.encode) :
    OwnLines Rule.accepts Config.moonfire.rules texts := by
  intro earlier rule later hrules
  have hpatterns := Config.moonfire_patterns
  rw [hrules, List.map_append, List.map_cons, eq_comm, List.map_eq_append_iff] at hpatterns
  obtain ⟨front, rest, hall, hfront, hrest⟩ := hpatterns
  obtain ⟨header, back, rfl, hheader, -⟩ := List.map_eq_cons_iff.mp hrest
  obtain ⟨line, hline, hstands, hown⟩ := hcomplete header
  obtain ⟨text, htext, heq⟩ := RawLine.exists_text_of_mem h hline
  refine ⟨text, htext, ?_, fun other hother => ?_⟩
  · rw [HeaderText.accepts_iff hheader.symm]
    exact (HeaderText.standsOn_iff heq).mp hstands
  · have hmem : other.pattern ∈ front.map HeaderText.pattern :=
      hfront ▸ List.mem_map_of_mem hother
    obtain ⟨first, hfirst, hpattern⟩ := List.mem_map.mp hmem
    rw [HeaderText.eq_earlier hall] at hfirst
    rw [← Bool.not_eq_true, HeaderText.accepts_iff hpattern.symm, ← HeaderText.standsOn_iff heq]
    exact hown first hfirst

/-- Of a lacking header some rule accepts no line. -/
theorem HeaderLacking.exists_unmet (hlacking : HeaderLacking lines)
    (h : lines.map RawLine.text = texts.map Utf8.encode) :
    ∃ rule ∈ Config.moonfire.rules, ∀ text ∈ texts, rule.accepts text = false := by
  obtain ⟨header, hnone⟩ := hlacking
  have hmem : header.pattern ∈ Config.moonfire.rules.map Rule.pattern := by
    rw [Config.moonfire_patterns]
    exact List.mem_map_of_mem header.mem_all
  obtain ⟨rule, hrule, hpattern⟩ := List.mem_map.mp hmem
  refine ⟨rule, hrule, fun text htext => ?_⟩
  obtain ⟨line, hline, heq⟩ := RawLine.exists_line_of_mem h htext
  rw [← Bool.not_eq_true, HeaderText.accepts_iff hpattern, ← HeaderText.standsOn_iff heq]
  exact hnone line hline

end Texts

/-! ### Lines that a header is written in -/

namespace HeaderText

/-- A text as a line of its own, where `d` and `e` are the last two digits of the year of the
copyright. -/
def written (d e : Char) : HeaderText → Line
  | .project => projectLine
  | .copyright => beforeYear ++ [d, e] ++ behindYear
  | .license => licenseLine

variable {d e : Char} (hd : isDecimalDigit d.toNat = true) (he : isDecimalDigit e.toNat = true)

include hd he

/-- Every text stands on its own line. -/
theorem isIn_written (header : HeaderText) : header.IsIn (header.written d e) := by
  cases header with
  | project => exact List.infix_rfl
  | copyright => exact ⟨d, e, hd, he, List.infix_rfl⟩
  | license => exact List.infix_rfl

/-- There is something on such a line. -/
theorem encode_written_ne_nil (header : HeaderText) :
    Utf8.encode (header.written d e) ≠ [] := by
  intro hnil
  have hempty : header.written d e = [] := Utf8.encode_inj.mp hnil
  exact header.not_isIn_nil (hempty ▸ header.isIn_written hd he)

/-- But for the digits of its year, the copyright line has the characters in front of the year
and behind it. -/
theorem mem_written_copyright {c : Char} (hc : isDecimalDigit c.toNat = false) :
    c ∈ written d e .copyright ↔ c ∈ beforeYear ∨ c ∈ behindYear := by
  have hne : ∀ digit : Char, isDecimalDigit digit.toNat = true → c ≠ digit := by
    rintro digit hdigit rfl
    exact Bool.false_ne_true (hc.symm.trans hdigit)
  simp [written, hne d hd, hne e he]

/-- No text stands on the line of one that is tried later: the project has a comma, and the
copyright a parenthesis, which the later lines do not have. -/
theorem not_isIn_written {header other : HeaderText} (h : other ∈ header.earlier) :
    ¬other.IsIn (header.written d e) := by
  have hproject : projectLine = _ := String.toList_ofList
  have hbefore : beforeYear = _ := String.toList_ofList
  have hbehind : behindYear = _ := String.toList_ofList
  have hlicense : licenseLine = _ := String.toList_ofList
  have hcomma : ',' ∈ projectLine := by rw [hproject]; decide
  cases header with
  | project => exact absurd h List.not_mem_nil
  | copyright =>
      obtain rfl := List.mem_singleton.mp h
      intro hinfix
      have hmem : ',' ∈ written d e .copyright := hinfix.subset hcomma
      rw [mem_written_copyright hd he (by decide), hbefore, hbehind] at hmem
      exact absurd hmem (by decide)
  | license =>
      rcases List.mem_cons.mp h with rfl | h
      · intro hinfix
        have hmem : ',' ∈ licenseLine := hinfix.subset hcomma
        rw [hlicense] at hmem
        exact absurd hmem (by decide)
      · obtain rfl := List.mem_singleton.mp h
        rintro ⟨d', e', -, -, hinfix⟩
        have hopen : '(' ∈ beforeYear := by rw [hbefore]; decide
        have hmem : '(' ∈ licenseLine :=
          hinfix.subset (List.mem_append_left _ (List.mem_append_left _ hopen))
        rw [hlicense] at hmem
        exact absurd hmem (by decide)

/-- On its own line a text stands, and none that is tried before it. -/
theorem standsOn_written {header : HeaderText} {line : RawLine}
    (h : line.text = Utf8.encode (header.written d e)) :
    header.StandsOn line ∧ ∀ other ∈ header.earlier, ¬other.StandsOn line := by
  refine ⟨⟨_, h, header.isIn_written hd he⟩, fun other hother => ?_⟩
  rw [standsOn_iff h]
  exact not_isIn_written hd he hother

/-- Nothing in these lines ends a line. -/
theorem unbroken_written (header : HeaderText) : Unbroken (header.written d e) := by
  cases header with
  | project =>
      have hproject : projectLine = _ := String.toList_ofList
      rw [written, hproject]
      decide
  | copyright =>
      have hbefore : beforeYear = _ := String.toList_ofList
      have hbehind : behindYear = _ := String.toList_ofList
      rw [Unbroken, mem_written_copyright hd he (by decide),
        mem_written_copyright hd he (by decide), hbefore, hbehind]
      decide
  | license =>
      have hlicense : licenseLine = _ := String.toList_ofList
      rw [written, hlicense]
      decide

end HeaderText

/-- Lines have a complete header if the project stands on one of them, and the two other texts
are lines of their own. -/
theorem HeaderComplete.of_written {d e : Char} (hd : isDecimalDigit d.toNat = true)
    (he : isDecimalDigit e.toNat = true) {lines : List RawLine}
    (hproject : ∃ line ∈ lines, HeaderText.project.StandsOn line)
    (hcopyright : ∃ line ∈ lines, line.text = Utf8.encode (HeaderText.copyright.written d e))
    (hlicense : ∃ line ∈ lines, line.text = Utf8.encode (HeaderText.license.written d e)) :
    HeaderComplete lines := by
  intro header
  cases header with
  | project =>
      obtain ⟨line, hline, hstands⟩ := hproject
      exact ⟨line, hline, hstands, List.forall_mem_nil _⟩
  | copyright =>
      obtain ⟨line, hline, htext⟩ := hcopyright
      exact ⟨line, hline, HeaderText.standsOn_written hd he htext⟩
  | license =>
      obtain ⟨line, hline, htext⟩ := hlicense
      exact ⟨line, hline, HeaderText.standsOn_written hd he htext⟩

/-! ### Verdicts -/

variable {content : Bytes} {script : List Event}

/-- The verdict on a content whose first ten lines are valid UTF-8. -/
theorem Config.verdict_moonfire {style : LineStyle} (h : Event.Delivers script content)
    (hvalid : ∀ line ∈ (style.split content).take 10, Utf8.IsValid line.text) :
    let first := (style.split content).take 10
    let verdict := (Config.moonfire.detectRead style (.ofEvents script)).verdict
    (HeaderComplete first → verdict = .ok true) ∧ (HeaderLacking first → verdict = .ok false) := by
  intro first verdict
  obtain ⟨texts, htexts⟩ : ∃ texts : List Line,
      first.map RawLine.text = texts.map Utf8.encode := RawLine.exists_texts hvalid
  have hlength : texts.length ≤ 10 := by
    have hsame := congrArg List.length htexts
    rw [List.length_map, List.length_map] at hsame
    rw [← hsame]
    exact List.length_take_le 10 _
  have htake : texts.take Config.moonfire.window = texts := by
    rw [Config.moonfire_window]
    exact List.take_of_length_le hlength
  have hverdict : verdict =
      (Config.moonfire.detectLines (texts.map Except.ok : List (Except Failure Line))).verdict :=
    Config.verdict_detectRead_of_texts h (by rw [Config.moonfire_window]; exact htexts)
  refine ⟨fun hcomplete => ?_, fun hlacking => ?_⟩
  · have hown := hcomplete.ownLines htexts
    rw [← htake] at hown
    exact hverdict.trans (detectList_of_ownLines Config.moonfire_rules_ne_nil hown)
  · obtain ⟨rule, hrule, hunmet⟩ := hlacking.exists_unmet htexts
    rw [← htake] at hunmet
    exact hverdict.trans (detectList_of_unmet hrule hunmet)

/-- **The contract of the expected header.** Let a script deliver a content whose first ten
lines are valid UTF-8. If the header is complete in these lines, the verdict is that it is
there, and if it is lacking, that it is not. A file that opens to such a script and whose
name calls for a header is left out of the result in the one case and named in the other, at
its place among the names before it and behind it. -/
theorem Config.moonfire_contract (h : Event.Delivers script content)
    (hvalid : ∀ line ∈ (LineStyle.universal.split content).take 10, Utf8.IsValid line.text) :
    let first := (LineStyle.universal.split content).take 10
    let verdict := (Config.moonfire.detectRead .universal (.ofEvents script)).verdict
    (HeaderComplete first → verdict = .ok true) ∧
    (HeaderLacking first → verdict = .ok false) ∧
    ∀ (files : FileView) (path : Bytes), files path = .ok script →
      Config.moonfire.requiresHeader path = true → ∀ front back,
        let result := (Config.moonfire.missingFiles files (front ++ path :: back)).result
        (HeaderComplete first → result = do
          let missing ← (Config.moonfire.missingFiles files front).result
          let others ← (Config.moonfire.missingFiles files back).result
          return missing ++ others) ∧
        (HeaderLacking first → result = do
          let missing ← (Config.moonfire.missingFiles files front).result
          let others ← (Config.moonfire.missingFiles files back).result
          return missing ++ path :: others) := by
  intro first verdict
  obtain ⟨hcomplete, hlacking⟩ := Config.verdict_moonfire h hvalid
  refine ⟨hcomplete, hlacking, fun files path hfile hname front back => ⟨fun hfirst => ?_,
    fun hfirst => ?_⟩⟩
  · have hfound := Config.result_checkFile_of_ok hfile (hcomplete hfirst)
    exact Config.result_missingFiles_of_checked hname hfound front back
  · have hfound := Config.result_checkFile_of_ok hfile (hlacking hfirst)
    exact Config.result_missingFiles_of_checked hname hfound front back

/-- Three lines in reverse order, with three different endings and an interruption, complete
the header of a file; the first of them alone does not. -/
theorem Config.moonfire_contract_of_three_lines :
    let license := Utf8.encode HeaderText.licenseLine
    let copyright :=
      Utf8.encode (HeaderText.beforeYear ++ ['2', '0'] ++ HeaderText.behindYear)
    let project := Utf8.encode HeaderText.projectLine
    let whole : List Event :=
      [.data (license ++ [0x0D]), .failure ⟨.interrupted, "again"⟩, .data (copyright ++ [0x0D]),
        .data (0x0A :: project)]
    let part : List Event := [.data license]
    let name := Bytes.ofString "src/main.rs"
    (Config.moonfire.detectRead .universal (.ofEvents whole)).verdict = .ok true ∧
      (Config.moonfire.missingFiles (fun _ => .ok whole) [name]).result = .ok [] ∧
      (Config.moonfire.detectRead .universal (.ofEvents part)).verdict = .ok false ∧
      (Config.moonfire.missingFiles (fun _ => .ok part) [name]).result = .ok [name] := by
  intro license copyright project whole part name
  have hname : Config.moonfire.requiresHeader name = true := by
    rw [Config.requiresHeader_moonfire_iff]
    refine ⟨Bytes.ofString "src/main", Bytes.ofString "rs", by decide, ?_, rfl⟩
    rw [SourceName.spells_ending]
    decide
  have htwo : isDecimalDigit '2'.toNat = true := by decide
  have hzero : isDecimalDigit '0'.toNat = true := by decide
  have hlicense : LineStyle.universal.Clean license :=
    (HeaderText.unbroken_written htwo hzero .license).clean
  have hcopyright : LineStyle.universal.Clean copyright :=
    (HeaderText.unbroken_written htwo hzero .copyright).clean
  have hproject : LineStyle.universal.Clean project :=
    (HeaderText.unbroken_written htwo hzero .project).clean
  have hne : license ≠ [] := HeaderText.encode_written_ne_nil htwo hzero .license
  have hne' : project ≠ [] := HeaderText.encode_written_ne_nil htwo hzero .project
  have hwhole : (LineStyle.universal.split (Event.contentOf whole)).take 10 =
      [⟨license, [0x0D]⟩, ⟨copyright, [0x0D, 0x0A]⟩, ⟨project, []⟩] := by
    have hcontent : Event.contentOf whole = license ++ carriageReturn ::
        (copyright ++ carriageReturn :: lineFeed :: project) := by
      simp [whole, Event.contentOf, Event.bytes, carriageReturn, lineFeed]
    have hhead : (copyright ++ carriageReturn :: lineFeed :: project).head? ≠ some lineFeed := by
      have hcopyright' : copyright ≠ [] :=
        HeaderText.encode_written_ne_nil htwo hzero .copyright
      rw [List.head?_append_of_ne_nil _ hcopyright']
      exact hcopyright.head?_ne
    rw [hcontent, split_universal_return hlicense hhead, split_universal_pair hcopyright,
      LineStyle.split_of_clean hproject, if_neg hne']
    rfl
  have hpart : (LineStyle.universal.split (Event.contentOf part)).take 10 =
      [⟨license, []⟩] := by
    have hcontent : Event.contentOf part = license := List.append_nil license
    rw [hcontent, LineStyle.split_of_clean hlicense, if_neg hne]
    rfl
  have hcomplete : HeaderComplete [⟨license, [0x0D]⟩, ⟨copyright, [0x0D, 0x0A]⟩,
      ⟨project, []⟩] :=
    .of_written htwo hzero ⟨⟨project, []⟩, by simp, _, rfl, List.infix_rfl⟩
      ⟨⟨copyright, [0x0D, 0x0A]⟩, by simp, rfl⟩ ⟨⟨license, [0x0D]⟩, by simp, rfl⟩
  have hlacking : HeaderLacking [⟨license, []⟩] := by
    have htext : (⟨license, []⟩ : RawLine).text =
        Utf8.encode (HeaderText.license.written '2' '0') := rfl
    obtain ⟨-, hnone⟩ := HeaderText.standsOn_written htwo hzero htext
    exact ⟨.project, List.forall_mem_singleton.mpr (hnone .project List.mem_cons_self)⟩
  have hvalid : ∀ line ∈ (LineStyle.universal.split (Event.contentOf whole)).take 10,
      Utf8.IsValid line.text := by
    rw [hwhole]
    exact List.forall_mem_cons.mpr ⟨⟨_, rfl⟩, List.forall_mem_cons.mpr ⟨⟨_, rfl⟩,
      List.forall_mem_singleton.mpr ⟨_, rfl⟩⟩⟩
  have hvalid' : ∀ line ∈ (LineStyle.universal.split (Event.contentOf part)).take 10,
      Utf8.IsValid line.text := by
    rw [hpart]
    exact List.forall_mem_singleton.mpr ⟨_, rfl⟩
  have hwhole' : Event.Delivers whole (Event.contentOf whole) :=
    ⟨by simp [whole, Event.isDelivery, Failure.isInterruption], rfl⟩
  have hpart' : Event.Delivers part (Event.contentOf part) :=
    ⟨by simp [part, Event.isDelivery, hne], rfl⟩
  obtain ⟨htrue, -, hfile⟩ := Config.moonfire_contract hwhole' hvalid
  obtain ⟨-, hfalse, hfile'⟩ := Config.moonfire_contract hpart' hvalid'
  rw [hwhole] at htrue hfile
  rw [hpart] at hfalse hfile'
  exact ⟨htrue hcomplete, (hfile (fun _ => .ok whole) name rfl hname [] []).1 hcomplete,
    hfalse hlacking, (hfile' (fun _ => .ok part) name rfl hname [] []).2 hlacking⟩

end LicenseHeader
