import LicenseHeader.Report.Basic
import LicenseHeader.Report.Filter

/-!
# Diagnostics on standard error

A diagnostic is written on a line of its own, behind its level in five columns. The level
is coloured, each level in its own colour, unless colours are turned off. Characters that
could steer a terminal are written as escapes.

## Main definitions

* `Diagnostic.line`: a diagnostic as it is written.
* `Report.standardError`: the notices of a check, and the error that ended it.
-/

namespace LicenseHeader

/-! ### Levels -/

/-- The name of a level, in five columns. -/
def Level.label : Level → String
  | .error => "ERROR"
  | .warn => " WARN"
  | .info => " INFO"
  | .debug => "DEBUG"
  | .trace => "TRACE"

/-- The terminal code for the colour of a level. -/
def Level.color : Level → String
  | .error => "31"
  | .warn => "33"
  | .info => "32"
  | .debug => "34"
  | .trace => "35"

/-! ### Messages -/

/-- The digits of a number below 256 in base sixteen. -/
def hexPair (n : Nat) : List Char :=
  Nat.toDigits 16 (n / 16) ++ Nat.toDigits 16 (n % 16)

/-- A character as it is written in a message. The controls that terminals act on are
spelled out; line feeds and tabs are not among them. -/
def escapeControl (c : Char) : List Char :=
  let n := c.toNat
  if n = 0x07 ∨ n = 0x08 ∨ n = 0x0C ∨ n = 0x1B ∨ n = 0x7F then '\\' :: 'x' :: hexPair n
  else if 0x80 ≤ n ∧ n ≤ 0x9F then '\\' :: 'u' :: '\x7b' :: hexPair n ++ ['\x7d']
  else [c]

/-- A diagnostic as it is written. -/
def Diagnostic.line (colored : Bool) (diagnostic : Diagnostic) : Bytes :=
  let level := diagnostic.level
  let label :=
    if colored then "\x1b[" ++ level.color ++ "m" ++ level.label ++ "\x1b[0m"
    else level.label
  let message := diagnostic.message.toList.flatMap escapeControl
  Bytes.ofString label ++ Utf8.encode (' ' :: message) ++ [lineFeed]

/-! ### Standard error -/

namespace Report

/-- What is shown of a notice. -/
def shownNotice (mode : OutputMode) (filter : Filter) (colored : Bool) (notice : Notice) :
    Bytes :=
  match notice with
  | .verdict .. => shownVerdict mode notice
  | .diagnostic diagnostic =>
    if filter.shows diagnostic then diagnostic.line colored else []

/-- The last words of a check that an error ended: the error, and the failure that caused
it. -/
def fatal (e : CheckError) : Bytes :=
  Bytes.ofString ("Error: " ++ e.message ++ "\n\nCaused by:\n    " ++ e.failure.message ++ "\n")

/-- The notices of a check, and the error if one ended it. -/
def standardError {β : Type} (mode : OutputMode) (filter : Filter) (colored : Bool)
    (check : Logged (Except CheckError β)) : Bytes :=
  check.notices.flatMap (shownNotice mode filter colored) ++
    match check.result with
    | .ok _ => []
    | .error e => fatal e

end Report

end LicenseHeader
