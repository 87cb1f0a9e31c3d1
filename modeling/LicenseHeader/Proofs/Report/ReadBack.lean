import LicenseHeader.Proofs.Check.Verdicts
import LicenseHeader.Proofs.Moonfire.Contract
import LicenseHeader.Report.Basic

/-!
# Reading a report back

A report lists names, each on a line of its own, and writes them as they are. Names in general
may have line feeds, and then a list cannot be told from another one. The names of source
files have none, and only they are ever listed. So a report can be split at its line feeds, and
what comes out are the names and, above them, the banner. The banner in turn is not the name
of a source file. Hence the names in a report are those of its lines that need a header
(`filter_splitOn_standardOutput`), whether there is a banner, and of whatever colour.

## Main results

* `Report.splitOn_nameLines`: splitting the names.
* `Report.filter_splitOn_standardOutput`: reading a report of any kind.
* `Config.moonfire_report_readBack`: reading the report on a check.
-/

namespace LicenseHeader

namespace Report

/-! ### Lines of a report -/

/-- Names without line feeds come back when they are split. Behind the last of them nothing
is left. -/
theorem splitOn_nameLines {names : List Bytes} (h : ∀ name ∈ names, lineFeed ∉ name) :
    (nameLines names).splitOn lineFeed = names ++ [[]] := by
  induction names with
  | nil => rfl
  | cons name names ih =>
      obtain ⟨hname, hnames⟩ := List.forall_mem_cons.mp h
      have hcons : nameLines (name :: names) = name ++ lineFeed :: nameLines names := by
        simp [nameLines]
      rw [hcons, List.splitOn_append_cons_self_of_not_mem hname, ih hnames, List.cons_append]

/-- The banner is a line, and there is no period in it. -/
theorem banner_eq (colored : Bool) :
    ∃ text, banner colored = text ++ [lineFeed] ∧ lineFeed ∉ text ∧ 0x2E ∉ text := by
  have hbanner : bannerText.toList = _ := String.toList_ofList
  have hred : "\x1b[31m".toList = _ := String.toList_ofList
  have hplain : "\x1b[39m\n".toList = _ := String.toList_ofList
  have hfeed : "\n".toList = _ := String.toList_ofList
  refine ⟨(banner colored).dropLast, ?_⟩
  cases colored with
  | true =>
      rw [banner, if_pos rfl, Bytes.ofString, String.toList_append, String.toList_append, hred,
        hbanner, hplain]
      decide
  | false =>
      rw [banner, if_neg Bool.false_ne_true, Bytes.ofString, String.toList_append, hbanner, hfeed]
      decide

/-- What stands in a report that is not empty: the names, in quiet mode, and otherwise a first
line and the names. -/
theorem standardOutput_cases (mode : OutputMode) (colored : Bool) {missing : List Bytes}
    (hne : missing ≠ []) :
    (mode = .quiet → standardOutput mode colored missing = nameLines missing) ∧
    (mode ≠ .quiet → ∃ first, lineFeed ∉ first ∧ 0x2E ∉ first ∧
      standardOutput mode colored missing = first ++ lineFeed :: nameLines missing) := by
  obtain ⟨name, names, rfl⟩ := List.exists_cons_of_ne_nil hne
  constructor
  · rintro rfl
    rfl
  · intro hmode
    obtain ⟨first, hbanner, hclean, hperiod⟩ := banner_eq colored
    refine ⟨first, hclean, hperiod, ?_⟩
    rw [standardOutput, if_neg hmode, hbanner, List.append_assoc]
    rfl

section Lacking

variable {missing : List Bytes}
  (h : ∀ name ∈ missing, Config.moonfire.requiresHeader name = true)

include h

/-- The names of source files come back when they are split. -/
theorem splitOn_nameLines_of_required :
    (nameLines missing).splitOn lineFeed = missing ++ [[]] := by
  have hclean : ∀ name ∈ missing, lineFeed ∉ name := by
    intro name hname
    exact SourceName.lineFeed_notMem (h name hname)
  exact splitOn_nameLines hclean

/-- **The names in a report are those of its lines that need a header.** -/
theorem filter_splitOn_standardOutput (mode : OutputMode) (colored : Bool) :
    ((standardOutput mode colored missing).splitOn lineFeed).filter
      Config.moonfire.requiresHeader = missing := by
  -- a line without a period, such as the banner, is not the name of a source file
  have hother : ∀ line lines, 0x2E ∉ line →
      (line :: lines).filter Config.moonfire.requiresHeader =
        lines.filter Config.moonfire.requiresHeader := by
    intro line lines hline
    exact List.filter_cons_of_neg fun hname => hline (SourceName.period_mem hname)
  have hnames : ((nameLines missing).splitOn lineFeed).filter Config.moonfire.requiresHeader =
      missing := by
    rw [splitOn_nameLines_of_required h, List.filter_append, List.filter_eq_self.mpr h,
      hother [] [] List.not_mem_nil]
    exact List.append_nil missing
  by_cases hnil : missing = []
  · subst hnil
    exact hnames
  · obtain ⟨hquiet, hbanner⟩ := standardOutput_cases mode colored hnil
    by_cases hmode : mode = .quiet
    · rw [hquiet hmode, hnames]
    · obtain ⟨first, hclean, hperiod, hreport⟩ := hbanner hmode
      rw [hreport, List.splitOn_append_cons_self_of_not_mem hclean, hother first _ hperiod,
        hnames]

end Lacking

end Report

/-! ### Reports on checks -/

section Checks

variable {files : FileView} {paths missing : List Bytes}
  (h : (Config.moonfire.missingFiles files paths).result = .ok missing)

include h

/-- The files in the result of a check are source files. -/
theorem Config.requiresHeader_of_mem_missing {name : Bytes} (hname : name ∈ missing) :
    Config.moonfire.requiresHeader name = true := by
  rw [result_missingFiles] at h
  exact requiresHeader_of_mem_lacking h hname

/-- The names in the report on a check are those of its lines that need a header. -/
theorem Config.filter_splitOn_report (mode : OutputMode) (colored : Bool) :
    ((Report.ofResult mode colored (Config.moonfire.checkFiles files paths).result).splitOn
      lineFeed).filter Config.moonfire.requiresHeader = missing := by
  have hrequired : ∀ name ∈ missing, Config.moonfire.requiresHeader name = true := by
    intro name hname
    exact requiresHeader_of_mem_missing h hname
  rw [result_checkFiles, h]
  exact Report.filter_splitOn_standardOutput hrequired mode colored

end Checks

/-- **The report on a check can be read back.** -/
theorem Config.moonfire_report_readBack (files : FileView) (paths : List Bytes)
    (mode : OutputMode) (colored : Bool)
    (h : (Config.moonfire.checkFiles files paths).result.map Status.ofMissing =
      .ok .missingHeader) :
    let stdout := Report.ofResult mode colored (Config.moonfire.checkFiles files paths).result
    ∃ missing, (Config.moonfire.missingFiles files paths).result = .ok missing ∧
      [] ∉ missing ∧
      (mode = .quiet → stdout.splitOn lineFeed = missing ++ [[]]) ∧
      (mode ≠ .quiet → ∃ first rest, stdout = first ++ lineFeed :: rest ∧ lineFeed ∉ first ∧
        rest.splitOn lineFeed = missing ++ [[]]) ∧
      ∀ (files' : FileView) (paths' : List Bytes) (mode' : OutputMode) (colored' : Bool)
        (missing' : List Bytes),
        (Config.moonfire.missingFiles files' paths').result = .ok missing' →
        Report.ofResult mode' colored' (Config.moonfire.checkFiles files' paths').result =
          stdout →
        missing' = missing := by
  intro stdout
  cases hresult : (Config.moonfire.missingFiles files paths).result with
  | error e =>
      rw [result_checkFiles, hresult] at h
      exact nomatch h
  | ok missing =>
      have hrequired : ∀ name ∈ missing, Config.moonfire.requiresHeader name = true := by
        intro name hname
        exact requiresHeader_of_mem_missing hresult hname
      have hstdout : stdout = Report.standardOutput mode colored missing := by
        simp only [stdout, result_checkFiles, hresult]
        rfl
      have hne : missing ≠ [] := by
        rintro rfl
        rw [result_checkFiles, hresult] at h
        exact absurd (Except.ok.inj h) (by decide)
      obtain ⟨hquiet, hbanner⟩ := Report.standardOutput_cases mode colored hne
      refine ⟨missing, rfl, fun hmem => ?_, fun hmode => ?_, fun hmode => ?_, ?_⟩
      · have hperiod : 0x2E ∈ ([] : Bytes) := SourceName.period_mem (hrequired [] hmem)
        exact absurd hperiod List.not_mem_nil
      · rw [hstdout, hquiet hmode, Report.splitOn_nameLines_of_required hrequired]
      · obtain ⟨first, hclean, -, hreport⟩ := hbanner hmode
        exact ⟨first, Report.nameLines missing, hstdout.trans hreport, hclean,
          Report.splitOn_nameLines_of_required hrequired⟩
      · intro files' paths' mode' colored' missing' hresult' hsame
        rw [← filter_splitOn_report hresult' mode' colored', hsame]
        exact filter_splitOn_report hresult mode colored

/-- A name need not be text, and it may be given twice. One with a line feed is that of no
source file and does not disturb the list. -/
theorem Config.moonfire_report_readBack_of_repeated_name :
    let files : FileView := fun _ => .ok []
    let name : Bytes := [0xE9, 0x2E, 0x72, 0x73]
    let check := Config.moonfire.checkFiles files [name, lineFeed :: name, name]
    check.result.map Status.ofMissing = .ok .missingHeader ∧
      (Report.ofResult .quiet false check.result).splitOn lineFeed = [name, name, []] := by
  intro files name check
  have hname : Config.moonfire.requiresHeader name = true := by
    rw [Config.requiresHeader_moonfire_iff]
    refine ⟨[0xE9], [0x72, 0x73], by decide, ?_, rfl⟩
    rw [SourceName.spells_ending]
    decide
  have hother : Config.moonfire.requiresHeader (lineFeed :: name) = false := by
    rw [← Bool.not_eq_true]
    exact fun hsource => SourceName.lineFeed_notMem hsource List.mem_cons_self
  have hfound : (Config.moonfire.checkFile files name).result = .ok false := by
    have hempty : Event.Delivers [] [] := ⟨List.forall_mem_nil _, rfl⟩
    have hvalid : ∀ line ∈ (LineStyle.universal.split []).take 10, Utf8.IsValid line.text :=
      List.forall_mem_nil _
    obtain ⟨-, hlacking⟩ := Config.verdict_moonfire hempty hvalid
    exact Config.result_checkFile_of_ok rfl (hlacking ⟨.project, List.forall_mem_nil _⟩)
  have hresult : (Config.moonfire.missingFiles files [name, lineFeed :: name, name]).result =
      .ok [name, name] := by
    simp only [Config.result_missingFiles, Config.result_lackingFiles_cons, hname, hother, hfound]
    rfl
  have hstatus : check.result.map Status.ofMissing = .ok .missingHeader := by
    rw [Config.result_checkFiles, hresult]
    rfl
  obtain ⟨missing, hmissing, -, hquiet, -⟩ :=
    Config.moonfire_report_readBack files [name, lineFeed :: name, name] .quiet false hstatus
  obtain rfl := Except.ok.inj (hmissing.symm.trans hresult)
  exact ⟨hstatus, hquiet rfl⟩

end LicenseHeader
