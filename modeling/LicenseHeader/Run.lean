import LicenseHeader.Arguments.Basic
import LicenseHeader.Arguments.Help
import LicenseHeader.Report.Diagnostics

/-!
# Runs

A run of the program from its arguments and surroundings to what it writes and the code it
ends with. Options and environment decide what is shown; what is checked, and the code,
depend on the file names alone.

## Main definitions

* `Environment`: the variables that a run looks at.
* `Exit`: what a run leaves behind.
* `run`: a run.
-/

namespace LicenseHeader

/-- The variables of the environment that a run looks at. -/
structure Environment where
  /-- A written filter, which replaces the one that the options ask for. -/
  logFilter : Option String
  /-- Turns off the colours of levels, unless it is empty. -/
  noColor : Option String
  /-- Makes output count as supporting colours. -/
  forceColor : Option String
  /-- Does the same, under an older name. -/
  olderForceColor : Option String
  deriving DecidableEq, Repr

/-- What a run leaves behind. -/
structure Exit where
  /-- The code. -/
  code : Nat
  /-- What was written to standard output. -/
  stdout : Bytes
  /-- What was written to standard error. -/
  stderr : Bytes
  deriving DecidableEq, Repr

/-! ### Presentation -/

/-- How a run presents its results. -/
structure Presentation where
  /-- How much is written. -/
  mode : OutputMode
  /-- Whether the report is coloured. -/
  coloredReport : Bool
  /-- Which diagnostics are shown. -/
  filter : Filter
  /-- Whether the levels of diagnostics are coloured. -/
  coloredLevels : Bool
  deriving DecidableEq, Repr

/-- Whether colours are forced. A value that is a number forces them unless it is zero, and any
other value unless it is `false`. The older variable counts if the newer one is not set, and
forces them unless it is `0`. -/
def Environment.forcesColor (environment : Environment) : Bool :=
  match environment.forceColor, environment.olderForceColor with
  | some value, _ => value != "false" && decimal? value.toList != some 0
  | none, some value => value != "0"
  | none, none => false

/-- Whether the report is coloured. Standard output counts as supporting colours only if
they are forced. -/
def ColorChoice.colored (environment : Environment) : ColorChoice → Bool
  | .auto => environment.forcesColor
  | .never => false
  | .always => true

/-- The output mode that the options ask for. -/
def Options.mode (options : Options) : OutputMode :=
  if options.verbose != 0 then .verbose
  else if options.quiet then .quiet
  else .normal

/-- The filter of a run: a filter in the environment that can be read goes before the one
of the options. -/
def Environment.filter (environment : Environment) (options : Options) : Filter :=
  (environment.logFilter.bind Filter.ofString?).getD
    (Filter.ofFlags options.quiet options.verbose)

/-- How a run with these options presents its results. -/
def Presentation.ofOptions (environment : Environment) (options : Options) : Presentation :=
  ⟨options.mode, options.colors.colored environment, environment.filter options,
    environment.noColor.all String.isEmpty⟩

/-! ### Exits -/

/-- The code of a status. -/
def Status.code : Status → Nat
  | .clean => 0
  | .missingHeader => 1

/-- The code of a check. -/
def codeOf (status : Except CheckError Status) : Nat :=
  match status with
  | .ok status => status.code
  | .error _ => 1

/-- The exit of a check whose report is `stdout`. -/
def Presentation.exit {β : Type} (presentation : Presentation) (status : β → Status)
    (stdout : β → Bytes) (check : Logged (Except CheckError β)) : Exit :=
  ⟨codeOf (check.result.map status),
    match check.result with
    | .ok result => stdout result
    | .error _ => [],
    Report.standardError presentation.mode presentation.filter presentation.coloredLevels
      check⟩

/-- What is wrong with a command line, in a sentence. -/
def Refusal.complaint : Refusal → String
  | .help _ | .version => ""
  | .conflict => "error: an argument cannot be used twice or with another one\n"
  | .invalidValue => "error: invalid value for an argument\n"
  | .tooManyValues => "error: unexpected value for an argument that takes none\n"
  | .unknownArgument => "error: unexpected argument\n"

/-- The exit of a command line that leads to no check. Being asked for help or for the
version is no error. -/
def Refusal.exit (refusal : Refusal) : Exit :=
  match refusal with
  | .help full => ⟨0, Bytes.ofString (helpText full), []⟩
  | .version => ⟨0, Bytes.ofString versionText, []⟩
  | refusal => ⟨2, [], Bytes.ofString refusal.complaint⟩

/-! ### Runs -/

/-- A run with accepted arguments: a check of the files that are named, or of standard
input if none is. -/
def Options.run (environment : Environment) (files : FileView) (input : List Event)
    (options : Options) : Exit :=
  let presentation := Presentation.ofOptions environment options
  match options.files with
  | [] =>
    presentation.exit Status.ofFound (fun _ => []) (Config.moonfire.checkInput input)
  | paths =>
    presentation.exit Status.ofMissing
      (Report.standardOutput presentation.mode presentation.coloredReport)
      (Config.moonfire.checkFiles files paths)

/-- A run of the program. -/
def run (environment : Environment) (files : FileView) (input : List Event)
    (arguments : List Bytes) : Exit :=
  match Options.ofArguments arguments with
  | .ok options => options.run environment files input
  | .error refusal => refusal.exit

end LicenseHeader
