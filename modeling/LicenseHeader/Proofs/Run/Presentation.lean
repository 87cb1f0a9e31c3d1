import LicenseHeader.Proofs.Check.Files
import LicenseHeader.Run

/-!
# What options have no bearing on

Options and environment decide how a run presents what it found. What it finds is a matter
of the names that it is given and of what is read: the code of a run and the names that it
lists are functions of these alone (`Options.code_run`, `Options.stdout_run`). All that the
presentation adds to standard output is the banner, which stands above the names or does not,
and is plain or red. So of two runs on the same names, one can be told from the other only by
its banner and by standard error.

## Main definitions

* `statusOf`: what a run says in one word.
* `Report.HasBanner`, `Report.IsAbove`: what stands above the names in a report.

## Main results

* `Options.code_run`, `Options.stdout_run`: a single run.
* `run_independent_of_presentation`: two runs on the same names.
-/

namespace LicenseHeader

/-! ### Accepted arguments -/

/-- Quiet is accepted only where no more detail is asked for. -/
theorem Options.verbose_eq_zero {arguments : List Bytes} {options : Options}
    (h : ofArguments arguments = .ok options) (hquiet : options.quiet = true) :
    options.verbose = 0 := by
  obtain ⟨state, -, hfinish⟩ := exists_of_bind_eq_ok h
  obtain ⟨settled, -, hoptions⟩ := exists_of_bind_eq_ok hfinish
  -- the end of the line refuses quiet together with more detail
  split at hoptions
  · exact absurd hoptions (by simp)
  · next hboth =>
      obtain rfl := Except.ok.inj hoptions
      have hsettled : settled.quiet = true := hquiet
      simpa [hsettled] using hboth

/-- The names stand alone if and only if the arguments ask for quiet. -/
theorem Options.mode_eq_quiet_iff {arguments : List Bytes} {options : Options}
    (h : ofArguments arguments = .ok options) :
    options.mode = .quiet ↔ options.quiet = true := by
  cases hquiet : options.quiet with
  | true =>
      rw [mode, verbose_eq_zero h hquiet, hquiet]
      exact ⟨fun _ => rfl, fun _ => rfl⟩
  | false =>
      rw [mode, hquiet]
      split <;> simp

/-! ### Single runs -/

section Exits

variable {β : Type} (presentation : Presentation) (status : β → Status) (stdout : β → Bytes)
  (check : Logged (Except CheckError β))

/-- The code of a check is that of its status. -/
theorem Presentation.code_exit :
    (presentation.exit status stdout check).code = codeOf (check.result.map status) := rfl

/-- A check that an error ended writes nothing to standard output. -/
theorem Presentation.stdout_exit :
    (presentation.exit status stdout check).stdout = (check.result.map stdout).toOption.getD [] := by
  rw [exit]
  cases check.result <;> rfl

end Exits

/-- What a run says in one word, given the names in its arguments. -/
def statusOf (files : FileView) (input : List Event) (paths : List Bytes) :
    Except CheckError Status :=
  if paths.isEmpty then (Config.moonfire.checkInput input).result.map Status.ofFound
  else (Config.moonfire.checkFiles files paths).result.map Status.ofMissing

section Runs

variable (options : Options) (environment : Environment) (files : FileView)
  (input : List Event)

/-- The code of a run is that of its status. -/
theorem Options.code_run :
    (options.run environment files input).code =
      codeOf (statusOf files input options.files) := by
  cases hfiles : options.files with
  | nil => simp only [run, hfiles, statusOf, Presentation.code_exit, List.isEmpty_nil, if_true]
  | cons path paths =>
      simp only [run, hfiles, statusOf, Presentation.code_exit, List.isEmpty_cons,
        Bool.false_eq_true, if_false]

/-- The standard output of a run is its report on the names. Without names there is none. -/
theorem Options.stdout_run :
    (options.run environment files input).stdout =
      Report.ofResult options.mode (options.colors.colored environment)
        (Config.moonfire.missingFiles files options.files).result := by
  cases hfiles : options.files with
  | nil =>
      simp only [run, hfiles, Presentation.stdout_exit]
      rw [Config.result_missingFiles_nil]
      cases (Config.moonfire.checkInput input).result <;> rfl
  | cons path paths =>
      simp only [run, hfiles, Presentation.stdout_exit]
      rw [Config.result_checkFiles]
      cases (Config.moonfire.missingFiles files (path :: paths)).result <;> rfl

end Runs

/-! ### What a run says -/

/-- The code of a check is nought if and only if its status is clean, and otherwise one. -/
theorem codeOf_spec (status : Except CheckError Status) :
    (codeOf status = 0 ↔ status = .ok .clean) ∧ (codeOf status = 0 ∨ codeOf status = 1) := by
  rcases status with e | status
  · exact ⟨by simp [codeOf], .inr rfl⟩
  · cases status with
    | clean => exact ⟨⟨fun _ => rfl, fun _ => rfl⟩, .inl rfl⟩
    | missingHeader => exact ⟨by simp [codeOf, Status.code], .inr rfl⟩

/-- Without names, all is well if standard input has the header. -/
theorem statusOf_nil {files : FileView} {input : List Event} :
    statusOf files input [] = .ok .clean ↔
      (Config.moonfire.detectRead .feedOnly (.ofEvents input)).verdict = .ok true := by
  rw [statusOf, List.isEmpty_nil, if_pos rfl, Config.result_checkInput]
  rcases (Config.moonfire.detectRead .feedOnly (.ofEvents input)).verdict with e | found
  · exact ⟨nofun, nofun⟩
  · cases found with
    | true => exact ⟨fun _ => rfl, fun _ => rfl⟩
    | false => exact ⟨nofun, nofun⟩

/-- With names, all is well if the check ends and no file lacks the header. -/
theorem statusOf_of_ne_nil {files : FileView} {input : List Event} {paths : List Bytes}
    (h : paths ≠ []) :
    statusOf files input paths = .ok .clean ↔
      (Config.moonfire.missingFiles files paths).result = .ok [] := by
  have hempty : paths.isEmpty = false := List.isEmpty_eq_false_iff.mpr h
  rw [statusOf, hempty, if_neg Bool.false_ne_true, Config.result_checkFiles]
  rcases (Config.moonfire.missingFiles files paths).result with e | missing
  · exact ⟨nofun, nofun⟩
  · cases missing with
    | nil => exact ⟨fun _ => rfl, fun _ => rfl⟩
    | cons name names => exact ⟨nofun, nofun⟩

/-! ### What a run writes -/

namespace Report

/-- Whether a report begins with the banner: if it lists names and quiet is not asked for. -/
def HasBanner (result : Except CheckError (List Bytes)) (quiet : Bool) : Prop :=
  quiet = false ∧ ∃ missing, result = .ok missing ∧ missing ≠ []

/-- What stands above the names in a report: the banner, plain or between the escapes that
turn red on and off, or else nothing. -/
def IsAbove (result : Except CheckError (List Bytes)) (quiet : Bool) (above : Bytes) : Prop :=
  (HasBanner result quiet → above = Bytes.ofString (bannerText ++ "\n") ∨
    above = Bytes.ofString ("\x1b[31m" ++ bannerText ++ "\x1b[39m\n")) ∧
  (¬HasBanner result quiet → above = [])

/-- A report is the one in quiet mode below its banner. -/
theorem exists_above {mode : OutputMode} {quiet : Bool} (h : mode = .quiet ↔ quiet = true)
    (colored : Bool) (result : Except CheckError (List Bytes)) :
    ∃ above, IsAbove result quiet above ∧
      ofResult mode colored result = above ++ ofResult .quiet false result := by
  by_cases hbanner : HasBanner result quiet
  · obtain ⟨hquiet, missing, hresult, hne⟩ := id hbanner
    have hmode : mode ≠ .quiet := by
      intro hmode
      rw [h.mp hmode] at hquiet
      exact absurd hquiet (by decide)
    obtain ⟨name, names, rfl⟩ := List.exists_cons_of_ne_nil hne
    refine ⟨banner colored, ⟨fun _ => ?_, fun hnone => absurd hbanner hnone⟩, ?_⟩
    · cases colored with
      | false =>
          left
          rw [banner, if_neg Bool.false_ne_true]
      | true =>
          right
          rw [banner, if_pos rfl]
    · rw [hresult, ofResult, standardOutput, if_neg hmode]
      rfl
  · have hsame : ofResult mode colored result = ofResult .quiet false result := by
      rcases result with e | _ | ⟨name, names⟩
      · rfl
      · rfl
      · have hquiet : quiet = true := eq_true_of_ne_false fun hquiet =>
          hbanner ⟨hquiet, _, rfl, List.cons_ne_nil name names⟩
        rw [h.mpr hquiet]
        rfl
    exact ⟨[], ⟨fun hsome => absurd hsome hbanner, fun _ => rfl⟩, hsame⟩

end Report

/-! ### Two runs -/

/-- **The presentation of a run has no bearing on what it says.** -/
theorem run_independent_of_presentation (files : FileView) (input : List Event)
    {environment environment' : Environment} {arguments arguments' : List Bytes}
    {options options' : Options} (h : Options.ofArguments arguments = .ok options)
    (h' : Options.ofArguments arguments' = .ok options')
    (hfiles : options'.files = options.files) :
    let exit := run environment files input arguments
    let exit' := run environment' files input arguments'
    let missing := (Config.moonfire.missingFiles files options.files).result
    let names := Report.ofResult .quiet false missing
    exit'.code = exit.code ∧
    (∃ banner banner', exit.stdout = banner ++ names ∧ exit'.stdout = banner' ++ names ∧
      Report.IsAbove missing options.quiet banner ∧
      Report.IsAbove missing options'.quiet banner') ∧
    (exit.code = 0 ∨ exit.code = 1) ∧
    (options.files = [] → exit.stdout = [] ∧
      (exit.code = 0 ↔
        (Config.moonfire.detectRead .feedOnly (.ofEvents input)).verdict = .ok true)) ∧
    (options.files ≠ [] → (exit.code = 0 ↔ missing = .ok [])) := by
  intro exit exit' missing names
  have hexit : exit = options.run environment files input := by
    simp only [exit, run, h]
  have hexit' : exit' = options'.run environment' files input := by
    simp only [exit', run, h']
  have hcode : exit.code = codeOf (statusOf files input options.files) := by
    rw [hexit, options.code_run]
  have hcode' : exit'.code = codeOf (statusOf files input options.files) := by
    rw [hexit', options'.code_run, hfiles]
  have hstdout : exit.stdout =
      Report.ofResult options.mode (options.colors.colored environment) missing := by
    rw [hexit, options.stdout_run]
  have hstdout' : exit'.stdout =
      Report.ofResult options'.mode (options'.colors.colored environment') missing := by
    rw [hexit', options'.stdout_run, hfiles]
  obtain ⟨hclean, hone⟩ := codeOf_spec (statusOf files input options.files)
  refine ⟨hcode'.trans hcode.symm, ?_, hcode ▸ hone, fun hnil => ⟨?_, ?_⟩, fun hne => ?_⟩
  · obtain ⟨banner, habove, hreport⟩ :=
      Report.exists_above (Options.mode_eq_quiet_iff h) (options.colors.colored environment) missing
    obtain ⟨banner', habove', hreport'⟩ :=
      Report.exists_above (Options.mode_eq_quiet_iff h') (options'.colors.colored environment')
        missing
    exact ⟨banner, banner', hstdout.trans hreport, hstdout'.trans hreport', habove, habove'⟩
  · rw [hstdout]
    simp only [missing, hnil]
    rw [Config.result_missingFiles_nil]
    rfl
  · rw [hcode, hclean, hnil]
    exact statusOf_nil
  · rw [hcode, hclean]
    exact statusOf_of_ne_nil hne

/-- A run in colour that tells all it can and one that is quiet end alike, and below the banner
of the first stands what the second writes. -/
theorem run_independent_of_presentation_of_quiet_run :
    let files : FileView := fun _ => .ok []
    let name := Bytes.ofString "a.rs"
    let arguments := [Bytes.ofString "-vvv", Bytes.ofString "--colors=always", name]
    let arguments' := [Bytes.ofString "-q", name]
    let exit := run ⟨some "trace", none, some "1", none⟩ files [] arguments
    let exit' := run ⟨none, some "1", none, none⟩ files [] arguments'
    Options.ofArguments arguments = .ok ⟨[name], 3, false, .always⟩ ∧
      Options.ofArguments arguments' = .ok ⟨[name], 0, true, .auto⟩ ∧
      exit'.code = exit.code ∧ ∃ banner, exit.stdout = banner ++ exit'.stdout := by
  intro files name arguments arguments' exit exit'
  have h : Options.ofArguments arguments = .ok ⟨[name], 3, false, .always⟩ := rfl
  have h' : Options.ofArguments arguments' = .ok ⟨[name], 0, true, .auto⟩ := rfl
  obtain ⟨hcode, ⟨banner, banner', hstdout, hstdout', -, -, hnone⟩, -⟩ :=
    run_independent_of_presentation files [] h h' rfl
  have hquiet : banner' = [] := hnone fun ⟨hloud, _⟩ => absurd hloud (by decide)
  rw [hquiet, List.nil_append] at hstdout'
  exact ⟨h, h', hcode, banner, by rw [hstdout, hstdout']⟩

end LicenseHeader
