import LicenseHeader.Check.Files

/-!
# Reports

What a check writes. On standard output stand the names of the files that lack their
header, each byte for byte as it was given and followed by a line feed, below a banner that
is left out in quiet mode. Verdicts on single files go to standard error, in verbose mode
alone.

## Main definitions

* `OutputMode`, `Status`: how much is written, and what a check says in one word.
* `Report.standardOutput`, `Report.ofResult`: the report on the files that lack their
  header.
* `Report.verdicts`: the verdict lines.
-/

namespace LicenseHeader

/-- How much is written. -/
inductive OutputMode where
  /-- The report with its banner. -/
  | normal
  /-- The names alone. -/
  | quiet
  /-- The report with its banner, and a verdict on every file. -/
  | verbose
  deriving DecidableEq, Repr

/-- What a check says in one word. -/
inductive Status where
  /-- Everything has its header. -/
  | clean
  /-- Something lacks its header. -/
  | missingHeader
  deriving DecidableEq, Repr

/-- The status of a check of files, given those that lack their header. -/
def Status.ofMissing (missing : List Bytes) : Status :=
  if missing.isEmpty then .clean else .missingHeader

/-- The status of a check of standard input. -/
def Status.ofFound (found : Bool) : Status :=
  if found then .clean else .missingHeader

namespace Report

/-! ### Standard output -/

/-- The text above the names of the files that lack their header. -/
def bannerText : String :=
  "The following files are missing expected copyright/license headers:"

/-- The banner, in red if it is coloured, and its line feed. -/
def banner (colored : Bool) : Bytes :=
  if colored then Bytes.ofString ("\x1b[31m" ++ bannerText ++ "\x1b[39m\n")
  else Bytes.ofString (bannerText ++ "\n")

/-- The names, each followed by a line feed. -/
def nameLines (names : List Bytes) : Bytes :=
  names.flatMap fun name => name ++ [lineFeed]

/-- The report on the files that lack their header. Nothing is written if there are none. -/
def standardOutput (mode : OutputMode) (colored : Bool) (missing : List Bytes) : Bytes :=
  match missing with
  | [] => []
  | _ :: _ => (if mode = .quiet then [] else banner colored) ++ nameLines missing

/-- The report on a check of files. One that an error ended has none, whatever it found
before. -/
def ofResult (mode : OutputMode) (colored : Bool)
    (result : Except CheckError (List Bytes)) : Bytes :=
  match result with
  | .ok missing => standardOutput mode colored missing
  | .error _ => []

/-! ### Verdicts -/

/-- The line that tells the verdict on one file. -/
def verdictLine (path : Bytes) (found : Bool) : Bytes :=
  Bytes.ofString ((if found then "ok: " else "missing: ") ++ shownPath path ++ "\n")

/-- What is shown of a notice where diagnostics are not. -/
def shownVerdict (mode : OutputMode) : Notice → Bytes
  | .verdict path found => if mode = .verbose then verdictLine path found else []
  | .diagnostic _ => []

/-- The verdict lines among notices. -/
def verdicts (mode : OutputMode) (notices : List Notice) : Bytes :=
  notices.flatMap (shownVerdict mode)

end Report

end LicenseHeader
