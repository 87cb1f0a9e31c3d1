import LicenseHeader.Check.Notice
import LicenseHeader.Pattern.Reading

/-!
# Selection of diagnostics

Which diagnostics are shown is a matter of directives, each of which sets a level for all
diagnostics, for those whose target begins in a certain way, or for those with a certain
field. Of the directives that apply to a diagnostic the most specific one counts: a longer
target goes before a shorter one and any target before none, then a field before none, and of
several directives that are equally specific the last one counts.

A written filter is a list of directives between commas. The full form of a directive is
`target[span{field=value}]=level`, of which most may be left out: a level alone stands
for all targets, and a target alone for its finest level. No diagnostic stands in a span or
has fields with values to compare, so directives about those select none.

## Main definitions

* `Directive`, `Filter`: the directives.
* `Filter.shows`: whether a diagnostic is shown.
* `Filter.ofString?`: the filter that a string spells.
* `Filter.ofFlags`: the filter that the options ask for.
-/

namespace LicenseHeader

/-- A rule for diagnostics: those to which it applies are shown up to the rank `limit`. -/
structure Directive where
  /-- The beginning of the targets, if it matters. -/
  target : Option (List Char)
  /-- The name of a field that they have, if it matters. -/
  field : Option (List Char)
  /-- Whether it is about a span or the value of a field. -/
  isAboutSpans : Bool
  /-- The greatest rank of level that is shown; none at zero. -/
  limit : Nat
  deriving DecidableEq, Repr

/-- Directives in the order in which they were given. -/
abbrev Filter := List Directive

/-! ### Selection -/

/-- The only field of a diagnostic, which holds its wording. -/
def messageField : List Char := "message".toList

/-- Whether a directive applies to diagnostics of a target. -/
def Directive.appliesTo (directive : Directive) (target : List Char) : Bool :=
  !directive.isAboutSpans && directive.target.all (·.isPrefixOf target) &&
    directive.field.all (· == messageField)

/-- How specific a directive is. Targets are compared by their lengths, where none is shorter
than the empty one, and after them fields. -/
def Directive.specificity (directive : Directive) : Nat × Nat :=
  ((directive.target.map fun target => target.length + 1).getD 0,
    if directive.field.isSome then 1 else 0)

/-- The more specific of two directives, the later one if they are equally so. -/
def Directive.moreSpecific (chosen : Option Directive) (later : Directive) :
    Option Directive :=
  match chosen with
  | none => some later
  | some chosen =>
    let (target, field) := chosen.specificity
    let (target', field') := later.specificity
    if target < target' || (target == target' && field ≤ field') then some later
    else some chosen

/-- The directive that counts for a target. -/
def Filter.directiveFor (filter : Filter) (target : List Char) : Option Directive :=
  (filter.filter (Directive.appliesTo · target)).foldl Directive.moreSpecific none

/-- Whether a diagnostic is shown. -/
def Filter.shows (filter : Filter) (diagnostic : Diagnostic) : Bool :=
  match filter.directiveFor diagnostic.target.toList with
  | some directive => diagnostic.level.rank ≤ directive.limit
  | none => false

/-! ### Levels -/

/-- The names of levels, with `off` for none, by rank. -/
def levelNames : List String :=
  ["off", "error", "warn", "info", "debug", "trace"]

/-- A character as a letter of a level's name, whose case does not count. -/
def lowerCase (c : Char) : Char :=
  if 'A' ≤ c ∧ c ≤ 'Z' then Char.ofNat (c.toNat + 32) else c

/-- The number that is written in decimal digits, behind a plus sign or not. -/
def decimal? (written : List Char) : Option Nat :=
  let digits :=
    match written with
    | '+' :: digits => digits
    | digits => digits
  if !digits.isEmpty && digits.all fun c => isAsciiDigit c.toNat then
    some (digits.foldl (fun value c => value * 10 + (c.toNat - 0x30)) 0)
  else none

/-- The rank of a level that is written by its name or its rank. -/
def limitOf? (written : List Char) : Option Nat :=
  match decimal? written with
  | some rank => if rank ≤ Level.trace.rank then some rank else none
  | none => levelNames.findIdx? fun name => name.toList == written.map lowerCase

/-- The rank behind an equals sign. Nothing there means the finest level. -/
def limitBehind? (written : List Char) : Option Nat :=
  if written.isEmpty then some Level.trace.rank else limitOf? written

/-! ### Directives -/

/-- Whether a directive can begin with a character. -/
def startsDirective (c : Char) : Bool :=
  c == '[' || c == '-' || c == ':' || c == '_' || isAlphanumeric c.toNat

/-- A text without the blanks around it. -/
def trimmed (written : List Char) : List Char :=
  let isBlank (c : Char) : Bool := isBlank c.toNat
  ((written.dropWhile isBlank).reverse.dropWhile isBlank).reverse

/-- The rank at the end of a directive, from the place `place` on: the finest level if nothing
is left of `seen`, and else what stands in `written` behind an equals sign. -/
def limitAt? (written seen : List Char) (place : Nat) : Option Nat :=
  match seen.drop place with
  | [] => some Level.trace.rank
  | '=' :: _ => limitBehind? (written.drop (place + 1))
  | _ => none

/-- A directive whose opening bracket stands in front of the place `inside`. A value must be
readable as a pattern. -/
def Directive.withBracket? (target : Option (List Char)) (written seen : List Char)
    (inside : Nat) : Option Directive :=
  let stop := inside + (seen.drop inside).findIdx fun c => c == ']' || c == '\x7b'
  match seen.drop stop with
  | ']' :: _ => (limitAt? written seen (stop + 1)).map (⟨target, none, true, ·⟩)
  | '\x7b' :: behind =>
    let close := stop + 1 + behind.findIdx (· == '\x7d')
    let field := (written.drop (stop + 1)).take (close - (stop + 1))
    match seen.drop close, field.span (· != '=') with
    | '\x7d' :: ']' :: _, (name, []) =>
      if name.isEmpty then none
      else
        (limitAt? written seen (close + 2)).map (⟨target, some name, inside != stop, ·⟩)
    | '\x7d' :: ']' :: _, (name, _ :: value) =>
      match Pattern.ofString .lines (String.ofList (value.takeWhile (· != '='))) with
      | .ok _ => (limitAt? written seen (close + 2)).map (⟨target, some name, true, ·⟩)
      | .error _ => none
    | _, _ => none
  | _ => none

/-- The directive that a piece of a written filter spells. Its parts are found where they stand
in the text without the blanks around it, and are cut out of the text with these blanks at the
same places; so blanks in front shift all parts, and blanks at the end belong to the last
one. -/
def Directive.ofChars? (written : List Char) : Option Directive :=
  let seen := trimmed written
  if !seen.head?.any startsDirective then none
  else
    let place := seen.findIdx fun c => c == '=' || c == '['
    let target := if place = 0 then none else some (written.take place)
    match seen.drop place with
    | [] =>
      match limitOf? written with
      | some limit => some ⟨none, none, false, limit⟩
      | none => some ⟨some written, none, false, Level.trace.rank⟩
    | '=' :: _ =>
      (limitBehind? (written.drop (place + 1))).map (⟨target, none, false, ·⟩)
    | _ => Directive.withBracket? target written seen (place + 1)

/-! ### Written filters -/

/-- The pieces of a text between commas; `piece` holds the unfinished one in reverse. -/
def commaPieces (piece : List Char) : List Char → List (List Char)
  | [] => [piece.reverse]
  | ',' :: rest => piece.reverse :: commaPieces [] rest
  | c :: rest => commaPieces (c :: piece) rest

/-- The filter that a string spells. Empty pieces count for nothing, and no piece at all asks
for errors alone. -/
def Filter.ofString? (written : String) : Option Filter :=
  match (commaPieces [] written.toList).filter fun piece => !piece.isEmpty with
  | [] => some [⟨none, none, false, Level.error.rank⟩]
  | pieces => pieces.mapM Directive.ofChars?

/-! ### Options -/

/-- The level that the options ask for: quiet shows errors alone, and each step of
verbosity goes one level beyond warnings. -/
def levelOfFlags (quiet : Bool) (verbose : Nat) : Level :=
  if quiet then .error
  else
    match verbose with
    | 0 => .warn
    | 1 => .info
    | 2 => .debug
    | _ => .trace

/-- The filter that the options ask for. -/
def Filter.ofFlags (quiet : Bool) (verbose : Nat) : Filter :=
  [⟨none, none, false, (levelOfFlags quiet verbose).rank⟩]

end LicenseHeader
