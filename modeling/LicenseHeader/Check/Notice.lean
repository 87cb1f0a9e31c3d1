import LicenseHeader.Check.Error
import LicenseHeader.Detection.Basic

/-!
# Notices

While a check runs it tells what it does. Verdicts on single files and diagnostics are kept
in the order in which they arise, each as what it says and not as text, so that what is
shown of them can be decided afterwards and has no bearing on the result.

## Main definitions

* `Level`: how much detail a diagnostic goes into.
* `Diagnostic`, with its level, the part of the program that it comes from, and its wording.
* `Notice`: a verdict or a diagnostic.
* `Logged`: a result together with the notices on the way to it.
-/

namespace LicenseHeader

/-- The levels of detail. -/
inductive Level where
  | error
  | warn
  | info
  | debug
  | trace
  deriving DecidableEq, Repr

/-- The rank of a level: more detail ranks higher. -/
def Level.rank : Level → Nat
  | .error => 1
  | .warn => 2
  | .info => 3
  | .debug => 4
  | .trace => 5

/-- What is told for diagnosis. -/
inductive Diagnostic where
  /-- So many names are about to be checked. -/
  | checkingFiles (count : Nat)
  /-- Standard input is about to be read. -/
  | readingInput
  /-- Standard input has no header. -/
  | inputLacksHeader
  /-- A file of this name needs no header. -/
  | exempt (name : Bytes)
  /-- A line meets the rule that was written like this. -/
  | lineMeets (line : Nat) (written : String)
  /-- So many rules were not met. -/
  | rulesNotMet (count : Nat)
  /-- So many of all the names are those of files without a header. -/
  | filesLackHeader (lacking total : Nat)
  deriving DecidableEq, Repr

/-- The level of a diagnostic. -/
def Diagnostic.level : Diagnostic → Level
  | .checkingFiles _ => .info
  | .readingInput | .inputLacksHeader | .filesLackHeader .. => .debug
  | .exempt _ | .lineMeets .. | .rulesNotMet _ => .trace

/-- The name of the part of the program that a diagnostic comes from, by which diagnostics
can be selected. -/
def Diagnostic.target : Diagnostic → String
  | .checkingFiles _ | .readingInput | .inputLacksHeader => "has_license::cli::check"
  | .exempt _ => "has_license::file_filter"
  | .lineMeets .. | .rulesNotMet _ => "has_license::license_detection"
  | .filesLackHeader .. => "has_license::processor"

/-- The wording of a diagnostic. -/
def Diagnostic.message : Diagnostic → String
  | .checkingFiles count => "Checking " ++ toString count ++ " file(s)"
  | .readingInput => "Reading standard input"
  | .inputLacksHeader => "Standard input is missing the header"
  | .exempt name => "Exempt by filename: " ++ shownPath name
  | .lineMeets line written => "Line " ++ toString line ++ " matches '" ++ written ++ "'"
  | .rulesNotMet count => toString count ++ " expected line(s) not found"
  | .filesLackHeader lacking total =>
    toString lacking ++ " of " ++ toString total ++ " file(s) missing the header"

/-- What is told during a check. -/
inductive Notice where
  /-- Whether a file that needs a header has it. -/
  | verdict (path : Bytes) (found : Bool)
  /-- Something for diagnosis. -/
  | diagnostic (diagnostic : Diagnostic)
  deriving DecidableEq, Repr

/-- A result, and what was told on the way to it. -/
structure Logged (β : Type) where
  /-- The result. -/
  result : β
  /-- The notices, in their order. -/
  notices : List Notice
  deriving Repr

/-! ### Notices of a detection -/

/-- What is told of a detection, given how its rules were written: each line that meets a
rule, and how many rules were not met if the window or the lines came to their end. -/
def Outcome.notices {ρ σ ε : Type} (written : ρ → String) (outcome : Outcome ρ σ ε) :
    List Notice :=
  outcome.hits.map (fun hit => .diagnostic (.lineMeets hit.line (written hit.rule))) ++
    match outcome.verdict with
    | .ok false => [.diagnostic (.rulesNotMet outcome.outstanding.length)]
    | _ => []

end LicenseHeader
