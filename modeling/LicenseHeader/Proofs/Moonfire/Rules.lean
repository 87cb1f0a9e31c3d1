import LicenseHeader.Config
import LicenseHeader.Proofs.Pattern.Words
import LicenseHeader.Proofs.Text.Ranges

/-!
# The texts of the Moonfire NVR header

The expected header of Moonfire NVR has three texts: what project a file belongs to, whose
copyright it is, and under which license. `Config.moonfire` gives them as patterns. This
module says without patterns what they ask of a line. The patterns are plain, so each is
found where one of its words is; the words of the first are a single text, those of the
second leave two decimal digits open, and those of the third may have a period at the end,
which makes no difference to a search.

## Main definitions

* `HeaderText`: the three texts.
* `HeaderText.IsIn`: whether a line contains a text.

## Main results

* `Config.moonfire_patterns`: the patterns of the configuration.
* `HeaderText.isIn_pattern_iff`: what each of them is found in.
* `Config.moonfire_rules_accept_iff`: the rules of the configuration and what they accept.
-/

namespace LicenseHeader

/-- The texts of the expected header. -/
inductive HeaderText where
  /-- The project that a file belongs to. -/
  | project
  /-- Whose copyright it is, and since when. -/
  | copyright
  /-- The identifier of its license. -/
  | license
  deriving DecidableEq, Repr

namespace HeaderText

/-- All texts, in the order in which they are tried. -/
def all : List HeaderText := [.project, .copyright, .license]

/-- The texts that are tried before one. -/
def earlier : HeaderText → List HeaderText
  | .project => []
  | .copyright => [.project]
  | .license => [.project, .copyright]

/-- The line that names the project. -/
def projectLine : Line :=
  "This file is part of Moonfire NVR, a security camera network video recorder.".toList

/-- The copyright line up to the last two digits of the year. -/
def beforeYear : Line := "Copyright (C) 20".toList

/-- The copyright line behind the year. -/
def behindYear : Line :=
  " The Moonfire NVR Authors; see AUTHORS and LICENSE.txt.".toList

/-- The line that identifies the license. -/
def licenseLine : Line :=
  "SPDX-License-Identifier: GPL-v3.0-or-later WITH GPL-3.0-linking-exception".toList

/-- Whether a line contains a text of the header. The year ends in any two decimal digits,
of whatever script. -/
def IsIn : HeaderText → Line → Prop
  | .project, line => projectLine <:+: line
  | .copyright, line =>
    ∃ d e : Char, isDecimalDigit d.toNat = true ∧ isDecimalDigit e.toNat = true ∧
      beforeYear ++ [d, e] ++ behindYear <:+: line
  | .license, line => licenseLine <:+: line

/-- No text is in an empty line. -/
theorem not_isIn_nil (header : HeaderText) : ¬header.IsIn [] := by
  cases header with
  | project =>
      -- a literal is the string of its characters, and `_` are these
      have hproject : projectLine = _ := String.toList_ofList
      rw [IsIn, List.infix_nil, hproject]
      exact List.cons_ne_nil _ _
  | copyright =>
      rintro ⟨d, e, -, -, hinfix⟩
      simp at hinfix
  | license =>
      have hlicense : licenseLine = _ := String.toList_ofList
      rw [IsIn, List.infix_nil, hlicense]
      exact List.cons_ne_nil _ _

/-- The texts in front of one in the list of all are those that are tried before it. -/
theorem eq_earlier {front back : List HeaderText} {header : HeaderText}
    (h : all = front ++ header :: back) : front = header.earlier := by
  rcases front with _ | ⟨first, _ | ⟨second, _ | ⟨third, front⟩⟩⟩
  · obtain ⟨rfl, -⟩ := List.cons.inj h
    rfl
  · obtain ⟨hfirst, h⟩ := List.cons.inj h
    obtain ⟨rfl, -⟩ := List.cons.inj h
    rw [← hfirst]
    rfl
  · obtain ⟨hfirst, h⟩ := List.cons.inj h
    obtain ⟨hsecond, h⟩ := List.cons.inj h
    obtain ⟨rfl, -⟩ := List.cons.inj h
    rw [← hfirst, ← hsecond]
    rfl
  · simp [all] at h

/-- Every text is among all. -/
theorem mem_all (header : HeaderText) : header ∈ all := by
  cases header <;> decide

/-! ### Patterns -/

/-- The class of decimal digits. -/
def digit : CharClass := ⟨true, digitRanges⟩

/-- The class of the period. -/
def period : CharClass := ⟨true, [(0x2E, 0x2E)]⟩

/-- The pattern of a text. -/
def pattern : HeaderText → Pattern
  | .project => .literal projectLine .empty
  | .copyright =>
    .literal beforeYear
      (.seq (.repeated (.one digit) 2 (some 0)) (.literal behindYear .empty))
  | .license => .literal licenseLine (.seq (.repeated (.one period) 0 (some 1)) .empty)

/-- The patterns of the texts have no conditions on a place. -/
theorem isPlain_pattern (header : HeaderText) : header.pattern.isPlain = true := by
  cases header <;> simp [pattern, Pattern.isPlain]

/-- A class twice in a row has the words of two characters. -/
theorem spells_twice {cls : CharClass} {word : Line} :
    (Pattern.repeated (.one cls) 2 (some 0)).Spells word ↔
      ∃ d e, cls.admits d = true ∧ cls.admits e = true ∧ word = [d, e] := by
  constructor
  · rintro ⟨n, hn, words, hlength, hwords, rfl⟩
    rw [Nat.le_zero.mp (hn 0 rfl), Nat.add_zero] at hlength
    obtain ⟨first, rest, rfl⟩ := List.exists_cons_of_length_eq_add_one hlength
    obtain ⟨second, rfl⟩ := List.length_eq_one_iff.mp (Nat.succ.inj hlength)
    obtain ⟨d, hd, rfl⟩ := CharClass.spells_iff_admits.mp (hwords first (by simp))
    obtain ⟨e, he, rfl⟩ := CharClass.spells_iff_admits.mp (hwords second (by simp))
    exact ⟨d, e, hd, he, rfl⟩
  · rintro ⟨d, e, hd, he, rfl⟩
    refine ⟨0, fun m _ => Nat.zero_le m, [[d], [e]], rfl, ?_, rfl⟩
    have hfirst := CharClass.spells_iff_admits.mpr ⟨d, hd, rfl⟩
    have hsecond := CharClass.spells_iff_admits.mpr ⟨e, he, rfl⟩
    exact List.forall_mem_cons.mpr ⟨hfirst, List.forall_mem_singleton.mpr hsecond⟩

/-- The words of a text alone. -/
theorem spells_text {text word : Line} :
    (Pattern.literal text .empty).Spells word ↔ word = text := by
  rw [Pattern.spells_literal]
  constructor
  · rintro ⟨_, rfl, rfl⟩
    exact List.append_nil text
  · rintro rfl
    exact ⟨[], rfl, (List.append_nil word).symm⟩

/-- A text is found in the lines that contain it. -/
theorem isIn_text_iff {text line : Line} :
    (Pattern.literal text .empty).isIn line = true ↔ text <:+: line := by
  have hplain : (Pattern.literal text .empty).isPlain = true := Pattern.isPlain_literal text .empty
  rw [Pattern.isIn_iff_contains_word hplain]
  constructor
  · rintro ⟨word, hword, hinfix⟩
    rw [spells_text] at hword
    rw [hword] at hinfix
    exact hinfix
  · intro hinfix
    exact ⟨text, by rw [spells_text], hinfix⟩

/-- The words of the copyright pattern. -/
theorem spells_copyright {word : Line} :
    (pattern .copyright).Spells word ↔
      ∃ d e : Char, isDecimalDigit d.toNat = true ∧ isDecimalDigit e.toNat = true ∧
        word = beforeYear ++ [d, e] ++ behindYear := by
  rw [pattern, Pattern.spells_literal]
  constructor
  · rintro ⟨_, ⟨year, tail, hyear, htail, rfl⟩, rfl⟩
    rw [spells_twice] at hyear
    rw [spells_text] at htail
    obtain ⟨d, e, hd, he, rfl⟩ := hyear
    rw [htail]
    exact ⟨d, e, hd, he, (List.append_assoc _ _ _).symm⟩
  · rintro ⟨d, e, hd, he, rfl⟩
    refine ⟨_, ⟨[d, e], behindYear, ?_, ?_, rfl⟩, List.append_assoc _ _ _⟩
    · rw [spells_twice]
      exact ⟨d, e, hd, he, rfl⟩
    · rw [spells_text]

/-- **The patterns are found where their texts are.** -/
theorem isIn_pattern_iff (header : HeaderText) (line : Line) :
    header.pattern.isIn line = true ↔ header.IsIn line := by
  cases header with
  | project => exact isIn_text_iff
  | copyright =>
      rw [Pattern.isIn_iff_contains_word (isPlain_pattern .copyright)]
      constructor
      · rintro ⟨word, hword, hinfix⟩
        rw [spells_copyright] at hword
        obtain ⟨d, e, hd, he, rfl⟩ := hword
        exact ⟨d, e, hd, he, hinfix⟩
      · rintro ⟨d, e, hd, he, hinfix⟩
        refine ⟨_, ?_, hinfix⟩
        rw [spells_copyright]
        exact ⟨d, e, hd, he, rfl⟩
  | license =>
      rw [Pattern.isIn_iff_contains_word (isPlain_pattern .license)]
      constructor
      · -- whether the period stands there or not, the text does
        rintro ⟨word, hword, hinfix⟩
        obtain ⟨tail, -, rfl⟩ := Pattern.spells_literal.mp hword
        exact (List.prefix_append licenseLine tail).isInfix.trans hinfix
      · intro hinfix
        have hnone :
            (Pattern.seq (.repeated (.one period) 0 (some 1)) .empty).Spells ([] : Line) :=
          ⟨[], [], Pattern.spells_optional.mpr (.inl rfl), rfl, rfl⟩
        exact ⟨licenseLine,
          Pattern.spells_literal.mpr ⟨[], hnone, (List.append_nil licenseLine).symm⟩, hinfix⟩

end HeaderText

/-! ### The configuration -/

/-- The expected header is looked for in the first ten lines. -/
theorem Config.moonfire_window : Config.moonfire.window = 10 :=
  (of_ofStrings ofStrings_moonfire).2.2

/-- The patterns of the expected header are those of its texts. -/
theorem Config.moonfire_patterns :
    Config.moonfire.rules.map Rule.pattern = HeaderText.all.map HeaderText.pattern := by
  obtain ⟨hrules, -⟩ := of_ofStrings ofStrings_moonfire
  -- both sides are compared as lists of characters, since strings would have to be decoded
  have hproject : HeaderText.projectLine = _ := String.toList_ofList
  have hbefore : HeaderText.beforeYear = _ := String.toList_ofList
  have hbehind : HeaderText.behindYear = _ := String.toList_ofList
  have hlicense : HeaderText.licenseLine = _ := String.toList_ofList
  refine @Rule.patterns_of_mapM .lines [_, _, _] _ _ hrules ?_
  simp only [HeaderText.all, List.map_cons, List.map_nil, HeaderText.pattern]
  rw [hproject, hbefore, hbehind, hlicense]
  decide +kernel

/-- The expected header has rules. -/
theorem Config.moonfire_rules_ne_nil : Config.moonfire.rules ≠ [] := by
  intro hnil
  have hpatterns := Config.moonfire_patterns
  rw [hnil] at hpatterns
  exact absurd hpatterns.symm (List.cons_ne_nil _ _)

/-- A rule with the pattern of a text accepts the lines that the text is in. -/
theorem HeaderText.accepts_iff {header : HeaderText} {rule : Rule}
    (h : rule.pattern = header.pattern) (line : Line) :
    rule.accepts line = true ↔ header.IsIn line := by
  rw [Rule.accepts, h]
  exact header.isIn_pattern_iff line

/-- The rules of the expected header are about its texts. -/
theorem Config.exists_headerText {rule : Rule} (h : rule ∈ Config.moonfire.rules) :
    ∃ header : HeaderText, ∀ line, rule.accepts line = true ↔ header.IsIn line := by
  have hpattern : rule.pattern ∈ Config.moonfire.rules.map Rule.pattern :=
    List.mem_map_of_mem h
  rw [moonfire_patterns] at hpattern
  obtain ⟨header, -, hheader⟩ := List.mem_map.mp hpattern
  exact ⟨header, header.accepts_iff hheader.symm⟩

/-- The expected header has three rules, one for each text. -/
theorem Config.exists_moonfire_rules :
    ∃ project copyright license : Rule,
      Config.moonfire.rules = [project, copyright, license] ∧
        (∀ line, project.accepts line = true ↔ HeaderText.project.IsIn line) ∧
        (∀ line, copyright.accepts line = true ↔ HeaderText.copyright.IsIn line) ∧
        ∀ line, license.accepts line = true ↔ HeaderText.license.IsIn line := by
  have hpatterns : Config.moonfire.rules.map Rule.pattern =
      [HeaderText.project.pattern, HeaderText.copyright.pattern, HeaderText.license.pattern] :=
    Config.moonfire_patterns
  obtain ⟨project, rest, hrules, hproject, hrest⟩ := List.map_eq_cons_iff.mp hpatterns
  obtain ⟨copyright, rest, rfl, hcopyright, hrest⟩ := List.map_eq_cons_iff.mp hrest
  obtain ⟨license, rest, rfl, hlicense, hrest⟩ := List.map_eq_cons_iff.mp hrest
  obtain rfl := List.map_eq_nil_iff.mp hrest
  exact ⟨project, copyright, license, hrules, HeaderText.accepts_iff hproject,
    HeaderText.accepts_iff hcopyright, HeaderText.accepts_iff hlicense⟩

/-- **The rules of the expected header accept the lines that contain their texts.** The first
one wants the name of the project. The second one wants the copyright, in a year whose last two
digits are any decimal digits, among them those of ASCII and others. The third one wants the
identifier of the license, and accepts no line more and none less for the period that may stand
behind it. -/
theorem Config.moonfire_rules_accept_iff :
    (∃ project copyright license : Rule,
      Config.moonfire.rules = [project, copyright, license] ∧ ∀ line : Line,
        (project.accepts line = true ↔ HeaderText.projectLine <:+: line) ∧
        (copyright.accepts line = true ↔
          ∃ d e : Char, InDigitRun d.toNat ∧ InDigitRun e.toNat ∧
            HeaderText.beforeYear ++ [d, e] ++ HeaderText.behindYear <:+: line) ∧
        (license.accepts line = true ↔ HeaderText.licenseLine <:+: line) ∧
        license.accepts line = (Pattern.literal HeaderText.licenseLine .empty).isIn line) ∧
    (∀ n, isAsciiDigit n = true → InDigitRun n) ∧
    ∃ ch : Char, InDigitRun ch.toNat ∧ isAsciiDigit ch.toNat = false := by
  refine ⟨?_, fun n hn => ?_, '٣', by decide, by decide⟩
  · obtain ⟨project, copyright, license, hrules, hproject, hcopyright, hlicense⟩ :=
      exists_moonfire_rules
    refine ⟨project, copyright, license, hrules, fun line => ⟨hproject line, ?_, hlicense line, ?_⟩⟩
    · simp only [← isDecimalDigit_iff]
      exact hcopyright line
    · rw [Bool.eq_iff_iff, HeaderText.isIn_text_iff]
      exact hlicense line
  · rw [isAsciiDigit, Bool.and_eq_true, decide_eq_true_iff, decide_eq_true_iff] at hn
    exact ⟨0x30, by decide, hn⟩

end LicenseHeader
