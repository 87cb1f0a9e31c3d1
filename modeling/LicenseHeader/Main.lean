import LicenseHeader.Run

/-!
# The program

The outer layer: it fetches the arguments, the environment and what is to be checked, calls
`run`, and writes what that leaves behind.

## Main definitions

* `main`: the program.
-/

namespace LicenseHeader

/-- The kind of failure that a code of the system stands for. -/
def kindOfCode (code : Nat) : FailureKind :=
  match code with
  | 1 | 13 => .permissionDenied
  | 2 => .notFound
  | 4 => .interrupted
  | 11 => .wouldBlock
  | 20 => .notADirectory
  | 21 => .isADirectory
  | 22 => .invalidInput
  | 32 => .brokenPipe
  | 36 => .invalidFilename
  | 110 => .timedOut
  | _ => .other

/-- The failure with a code of the system and its description. -/
def failureOfCode (code : UInt32) (description : String) : Failure :=
  ⟨kindOfCode code.toNat, description ++ " (os error " ++ toString code.toNat ++ ")"⟩

/-- The failure that an error of the system reports. -/
def failureOfError (e : IO.Error) : Failure :=
  match e with
  | .alreadyExists _ code description
  | .invalidArgument _ code description
  | .permissionDenied _ code description
  | .resourceExhausted _ code description
  | .inappropriateType _ code description
  | .noSuchThing _ code description
  | .interrupted _ code description
  | .noFileOrDirectory _ code description
  | .otherError code description
  | .resourceBusy code description
  | .resourceVanished code description
  | .unsupportedOperation code description
  | .hardwareFault code description
  | .unsatisfiedConstraints code description
  | .illegalOperation code description
  | .protocolError code description
  | .timeExpired code description => failureOfCode code description
  | .unexpectedEof => ⟨.unexpectedEnd, "unexpected end of file"⟩
  | .userError description => ⟨.other, description⟩

/-- How many bytes are read at once. -/
def readSize : USize := 8192

/-- Reads pieces until the input ends or fails, or until there are more bytes that end
lines than `limit`; `pieces` holds those read so far, the last one first. -/
partial def readPieces (read : USize → IO ByteArray) (limit : Nat) (pieces : List Event) :
    IO (List Event) := do
  match ← (read readSize).toBaseIO with
  | .error e =>
    let failure := failureOfError e
    let pieces := .failure failure :: pieces
    if failure.isInterruption then readPieces read limit pieces else return pieces.reverse
  | .ok array =>
    let bytes := array.toList
    let pieces := .data bytes :: pieces
    let ends := bytes.countP LineStyle.universal.stops
    if bytes.isEmpty || limit < ends then return pieces.reverse
    else readPieces read (limit - ends) pieces

/-- How many bytes that end lines are enough for a window: two for each line, and one
more. -/
def enoughEnds (config : Config) : Nat := 2 * config.window + 1

/-- What opening a file leads to. -/
def readFile (config : Config) (path : Bytes) : IO (Except Failure (List Event)) := do
  match ← (IO.FS.Handle.mk (shownPath path) .read).toBaseIO with
  | .error e => return .error (failureOfError e)
  | .ok handle => return .ok (← readPieces handle.read (enoughEnds config) [])

/-- Reads the files that a check looks at, up to the first one that ends it. -/
def readFiles (config : Config) (loaded : List (Bytes × Except Failure (List Event))) :
    List Bytes → IO (List (Bytes × Except Failure (List Event)))
  | [] => return loaded
  | path :: paths => do
    if config.requiresHeader path then
      let content ← readFile config path
      let loaded := (path, content) :: loaded
      match (config.checkFile (fun _ => content) path).result with
      | .ok _ => readFiles config loaded paths
      | .error _ => return loaded
    else readFiles config loaded paths

/-- The view of files that were read. -/
def viewOf (loaded : List (Bytes × Except Failure (List Event))) : FileView := fun path =>
  match loaded.find? fun entry => entry.1 == path with
  | some entry => entry.2
  | none => .ok []

/-- Writes bytes to a stream. -/
def writeBytes (stream : IO.FS.Stream) (bytes : Bytes) : IO Unit := do
  stream.write (ByteArray.mk bytes.toArray)
  stream.flush

end LicenseHeader

open LicenseHeader in
/-- The program. -/
def main (arguments : List String) : IO UInt32 := do
  let arguments := arguments.map Bytes.ofString
  let environment : Environment :=
    ⟨← IO.getEnv "RUST_LOG", ← IO.getEnv "NO_COLOR", ← IO.getEnv "FORCE_COLOR",
      ← IO.getEnv "CLICOLOR_FORCE"⟩
  let config := Config.moonfire
  let paths :=
    match Options.ofArguments arguments with
    | .ok options => some options.files
    | .error _ => none
  let loaded ← readFiles config [] (paths.getD [])
  let input ←
    if paths = some [] then readPieces (← IO.getStdin).read (enoughEnds config) []
    else pure []
  let exit := run environment (viewOf loaded) input arguments
  writeBytes (← IO.getStdout) exit.stdout
  writeBytes (← IO.getStderr) exit.stderr
  return exit.code.toUInt32
