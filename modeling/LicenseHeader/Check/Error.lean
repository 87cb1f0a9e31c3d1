import LicenseHeader.Failure
import LicenseHeader.Text.Utf8

/-!
# Errors of a check

A check ends with an error when what it needs cannot be opened or read. The error names the
file, and keeps the failure beneath it unchanged.

## Main definitions

* `CheckError`: the errors.
* `CheckError.message`, `CheckError.failure`: their wording, and what caused them.
-/

namespace LicenseHeader

/-- Why a check could not be completed. -/
inductive CheckError where
  /-- A file could not be opened. -/
  | opening (path : Bytes) (failure : Failure)
  /-- A file could not be read, or was not valid UTF-8. -/
  | reading (path : Bytes) (failure : Failure)
  /-- Standard input could not be read, or was not valid UTF-8. -/
  | standardInput (failure : Failure)
  deriving DecidableEq, Repr

/-- The failure that caused an error. -/
def CheckError.failure : CheckError → Failure
  | .opening _ failure => failure
  | .reading _ failure => failure
  | .standardInput failure => failure

/-- A path as people are shown it. -/
def shownPath (path : Bytes) : String :=
  String.ofList (Utf8.decodeLossy path)

/-- The wording of an error. -/
def CheckError.message : CheckError → String
  | .opening path failure =>
    "Failed to open file '" ++ shownPath path ++ "': " ++ failure.message
  | .reading path failure =>
    "Failed to read file '" ++ shownPath path ++ "': " ++ failure.message
  | .standardInput failure => "Failed to read standard input: " ++ failure.message

end LicenseHeader
