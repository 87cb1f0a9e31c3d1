import LicenseHeader.Text.Basic

/-!
# Arguments

The command line is read from left to right, and the first argument that is refused
decides, as does the first that asks for help or for the version. File names and the value
of `--colors` are looked at late, though: only when something of another kind has been
recognised behind them, or at the end. Until then they are *pending*.

## Main definitions

* `Options`: an accepted command line.
* `Refusal`: why a command line leads to no check.
* `Arguments`: what has been read of a command line.
* `Arguments.read`, `Arguments.finish`: one more argument, and the end.
* `Options.ofArguments`: the options that a command line asks for.
-/

namespace LicenseHeader

/-- When output is coloured. -/
inductive ColorChoice where
  /-- When the output supports colours. -/
  | auto
  /-- Never. -/
  | never
  /-- Always. -/
  | always
  deriving DecidableEq, Repr

/-- An accepted command line. -/
structure Options where
  /-- The files to check; standard input is checked if there are none. -/
  files : List Bytes
  /-- How many times more detail was asked for, up to 255. -/
  verbose : Nat
  /-- Whether only names are to be printed. -/
  quiet : Bool
  /-- When output is coloured. -/
  colors : ColorChoice
  deriving DecidableEq, Repr

/-- Why a command line leads to no check. -/
inductive Refusal where
  /-- Help is asked for, in short or in full. -/
  | help (full : Bool)
  /-- The version is asked for. -/
  | version
  /-- Options exclude each other, or are given twice. -/
  | conflict
  /-- A value is not one of those allowed, or a file name is empty. -/
  | invalidValue
  /-- An option that takes no value has one. -/
  | tooManyValues
  /-- An option does not exist. -/
  | unknownArgument
  deriving DecidableEq, Repr

/-- What has been read and is still to be looked at. -/
inductive Pending where
  /-- Nothing. -/
  | nothing
  /-- File names, the last one first. -/
  | files (names : List Bytes)
  /-- `--colors` as an argument of its own, and its value if one has followed. -/
  | colors (value : Option Bytes)
  deriving DecidableEq, Repr

/-- What has been read of a command line. -/
structure Arguments where
  /-- The file names that were accepted, the last one first. -/
  files : List Bytes
  /-- How many times more detail was asked for. -/
  verbose : Nat
  /-- Whether only names are to be printed. -/
  quiet : Bool
  /-- When output is coloured, if that was said. -/
  colors : Option ColorChoice
  /-- What is still to be looked at. -/
  pending : Pending
  /-- Whether all that follows are file names. -/
  namesOnly : Bool
  deriving DecidableEq, Repr

/-! ### Values -/

/-- The most detail that is counted. -/
def mostVerbose : Nat := 255

/-- The choice that a value of `--colors` names. -/
def ColorChoice.ofBytes? (value : Bytes) : Option ColorChoice :=
  if value = Bytes.ofString "auto" then some .auto
  else if value = Bytes.ofString "never" then some .never
  else if value = Bytes.ofString "always" then some .always
  else none

namespace Arguments

/-- A command line of which nothing has been read. -/
def initially : Arguments := ⟨[], 0, false, none, .nothing, false⟩

/-- Sets when output is coloured. This can be said once; without a value it means
always. -/
def setColors (state : Arguments) (value : Option Bytes) : Except Refusal Arguments :=
  match state.colors with
  | some _ => .error .conflict
  | none =>
    match value with
    | none => .ok { state with colors := some .always }
    | some value =>
      match ColorChoice.ofBytes? value with
      | some choice => .ok { state with colors := some choice }
      | none => .error .invalidValue

/-- Looks at what is pending. -/
def settle (state : Arguments) : Except Refusal Arguments :=
  match state.pending with
  | .nothing => .ok state
  | .files names =>
    if names.any List.isEmpty then .error .invalidValue
    else .ok { state with files := names ++ state.files, pending := .nothing }
  | .colors value => setColors { state with pending := .nothing } value

/-! ### Options -/

/-- The options that take no value. -/
inductive Switch where
  | verbose
  | quiet
  | help (full : Bool)
  | version
  deriving DecidableEq, Repr

/-- The switch of a long name. -/
def Switch.ofName? (name : Bytes) : Option Switch :=
  if name = Bytes.ofString "verbose" then some .verbose
  else if name = Bytes.ofString "quiet" then some .quiet
  else if name = Bytes.ofString "help" then some (.help true)
  else if name = Bytes.ofString "version" then some .version
  else none

/-- The switch of a letter: `v`, `q`, `h` or `V`. -/
def Switch.ofLetter? (letter : UInt8) : Option Switch :=
  match letter with
  | 0x76 => some .verbose
  | 0x71 => some .quiet
  | 0x68 => some (.help false)
  | 0x56 => some .version
  | _ => none

/-- Turns a switch, after looking at what is pending. Quiet can be asked for once. -/
def turn (state : Arguments) (switch : Switch) : Except Refusal Arguments := do
  let state ← state.settle
  match switch with
  | .verbose => .ok { state with verbose := min mostVerbose (state.verbose + 1) }
  | .quiet => if state.quiet then .error .conflict else .ok { state with quiet := true }
  | .help full => .error (.help full)
  | .version => .error .version

/-- Reads letters that share one hyphen. -/
def readLetters (state : Arguments) : Bytes → Except Refusal Arguments
  | [] => .ok state
  | letter :: letters =>
    match Switch.ofLetter? letter with
    | none => .error .unknownArgument
    | some switch =>
      match state.turn switch with
      | .error refusal => .error refusal
      | .ok state => readLetters state letters

/-- Reads a long option behind its hyphens. An equals sign sets off its value. -/
def readLong (state : Arguments) (written : Bytes) : Except Refusal Arguments :=
  let (name, rest) := written.span (· != 0x3D)
  let value := rest.tail?
  if name = Bytes.ofString "colors" then do
    let state ← state.settle
    match value with
    | some _ => state.setColors value
    | none => .ok { state with pending := .colors none }
  else
    match Switch.ofName? name, value with
    | none, _ => .error .unknownArgument
    | some _, some _ => .error .tooManyValues
    | some switch, none => state.turn switch

/-! ### Names -/

/-- Reads a file name. -/
def readName (state : Arguments) (name : Bytes) : Except Refusal Arguments :=
  match state.pending with
  | .files names => .ok { state with pending := .files (name :: names) }
  | _ => do
    let state ← state.settle
    .ok { state with pending := .files [name] }

/-- Reads an argument that is no option: the value of `--colors` if that stands right
before it and has none, and else a file name. -/
def readValue (state : Arguments) (value : Bytes) : Except Refusal Arguments :=
  match state.pending with
  | .colors none => .ok { state with pending := .colors (some value) }
  | _ => state.readName value

/-! ### The whole line -/

/-- Reads one argument. Two hyphens alone make names of all that follows, and one hyphen
alone is a name. -/
def read (state : Arguments) (argument : Bytes) : Except Refusal Arguments :=
  if state.namesOnly then state.readName argument
  else
    match argument with
    | 0x2D :: 0x2D :: [] => .ok { state with namesOnly := true }
    | 0x2D :: 0x2D :: long => state.readLong long
    | 0x2D :: letter :: letters => state.readLetters (letter :: letters)
    | argument => state.readValue argument

/-- The options, when all arguments have been read. Quiet excludes more detail. -/
def finish (state : Arguments) : Except Refusal Options := do
  let state ← state.settle
  if state.quiet && state.verbose != 0 then .error .conflict
  else .ok ⟨state.files.reverse, state.verbose, state.quiet, state.colors.getD .auto⟩

end Arguments

/-- The options that a command line asks for. -/
def Options.ofArguments (arguments : List Bytes) : Except Refusal Options := do
  (← arguments.foldlM Arguments.read .initially).finish

end LicenseHeader
