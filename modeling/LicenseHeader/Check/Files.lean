import LicenseHeader.Check.Content
import LicenseHeader.Check.Notice

/-!
# Checking files and standard input

Files are looked at one by one, in the order of their names, and only those whose name
calls for a header. A file that cannot be opened or read ends the check. What a file holds
is given by a view of the files that there are: each path either fails to open, or opens to
what will happen when it is read.

## Main definitions

* `FileView`: what opening a path leads to.
* `Config.checkFile`: whether one file has its header.
* `Config.missingFiles`: the files that lack their header.
* `Config.checkFiles`, `Config.checkInput`: a whole check, of files or of standard input.
-/

namespace LicenseHeader

/-- What opening a path leads to: a failure, or the events that a reader will meet. -/
abbrev FileView := Bytes → Except Failure (List Event)

/-- Whether the file at a path has its header, whatever its name. -/
def Config.checkFile (config : Config) (files : FileView) (path : Bytes) :
    Logged (Except CheckError Bool) :=
  match files path with
  | .error failure => ⟨.error (.opening path failure), []⟩
  | .ok events =>
    let outcome := config.detectRead .universal (.ofEvents events)
    ⟨outcome.verdict.mapError (.reading path), outcome.notices Rule.written⟩

/-- The files among those named that need a header and lack it. -/
def Config.lackingFiles (config : Config) (files : FileView) :
    List Bytes → Logged (Except CheckError (List Bytes))
  | [] => ⟨.ok [], []⟩
  | path :: paths =>
    if config.requiresHeader path then
      let file := config.checkFile files path
      match file.result with
      | .error e => ⟨.error e, file.notices⟩
      | .ok found =>
        let others := config.lackingFiles files paths
        ⟨others.result.map (if found then id else (path :: ·)),
          file.notices ++ .verdict path found :: others.notices⟩
    else
      let others := config.lackingFiles files paths
      ⟨others.result, .diagnostic (.exempt path) :: others.notices⟩

/-- The files that lack their header, and a word on how many these are. -/
def Config.missingFiles (config : Config) (files : FileView) (paths : List Bytes) :
    Logged (Except CheckError (List Bytes)) :=
  let lacking := config.lackingFiles files paths
  match lacking.result with
  | .error _ => lacking
  | .ok missing =>
    ⟨lacking.result,
      lacking.notices ++ [.diagnostic (.filesLackHeader missing.length paths.length)]⟩

/-- A check of files: those that lack their header, if all could be read. -/
def Config.checkFiles (config : Config) (files : FileView) (paths : List Bytes) :
    Logged (Except CheckError (List Bytes)) :=
  let missing := config.missingFiles files paths
  ⟨missing.result, .diagnostic (.checkingFiles paths.length) :: missing.notices⟩

/-- Whether standard input has the header. -/
def Config.inputHasHeader (config : Config) (input : List Event) :
    Logged (Except CheckError Bool) :=
  let outcome := config.detectRead .feedOnly (.ofEvents input)
  ⟨outcome.verdict.mapError .standardInput, outcome.notices Rule.written⟩

/-- A check of standard input. -/
def Config.checkInput (config : Config) (input : List Event) :
    Logged (Except CheckError Bool) :=
  let found := config.inputHasHeader input
  ⟨found.result,
    .diagnostic .readingInput :: found.notices ++
      match found.result with
      | .ok false => [.diagnostic .inputLacksHeader]
      | _ => []⟩

end LicenseHeader
