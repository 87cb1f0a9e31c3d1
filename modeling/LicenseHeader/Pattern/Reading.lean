import LicenseHeader.Pattern.Footprint
import LicenseHeader.Pattern.Token

/-!
# Reading patterns

Tokens are put together from left to right. What has been read of the innermost open group
is kept beside the groups around it, so a closing parenthesis, a bar or a repetition only
ever touches the innermost one. A change of flags lasts to the end of its group, across the
bars in it.

A pattern for lines must not match part of a scalar: a class of single bytes that reaches
beyond ASCII is refused there, even if only one of its items does, and accepted in a pattern
for byte strings. Refused as well is a pattern whose parts are nested too deep, or whose
automaton would take too much memory. So the outline and the depth of every part are kept
beside the part.

## Main definitions

* `Subject`: what a pattern is to be searched for in.
* `Part`: a part of a pattern that has been read.
* `Pattern.ofTokens`: the pattern that tokens spell.
* `Pattern.ofString`: the pattern that a string spells.
-/

namespace LicenseHeader

/-- What a pattern is to be searched for in. -/
inductive Subject where
  /-- Lines of text. -/
  | lines
  /-- Byte strings. -/
  | bytes
  deriving DecidableEq, Repr

/-! ### Flags -/

/-- The flags in force at one point of a pattern. -/
structure Flags where
  /-- Whether letters match in either case. -/
  foldCase : Bool
  /-- Whether the dot matches the line feed. -/
  dotAll : Bool
  /-- Whether `^` and `$` match at line feeds. -/
  multiLine : Bool
  /-- Whether characters are scalars, and not bytes. -/
  scalars : Bool
  deriving DecidableEq, Repr

/-- The flags at the beginning of a pattern. -/
def Flags.initially : Flags := ⟨false, false, false, true⟩

/-- The flags with one of them turned on or off. -/
def Flags.set (flags : Flags) (value : Bool) : Flag → Flags
  | .foldCase => { flags with foldCase := value }
  | .dotAll => { flags with dotAll := value }
  | .multiLine => { flags with multiLine := value }
  | .scalars => { flags with scalars := value }

/-- The flags after a change. -/
def Flags.change (flags : Flags) (change : FlagChange) : Flags :=
  let flags := change.on.foldl (fun flags flag => flags.set true flag) flags
  change.off.foldl (fun flags flag => flags.set false flag) flags

/-! ### Parts -/

/-- A part of a pattern that has been read. -/
structure Part where
  /-- The part. -/
  pattern : Pattern
  /-- Its outline. -/
  outline : Outline
  /-- How deep its parts are nested. Single characters and places have no parts. -/
  depth : Nat
  deriving DecidableEq, Repr

/-- A place that fulfils a condition. -/
def Part.look (assertion : Assertion) : Part :=
  ⟨.look assertion, .look assertion, 0⟩

/-- A part that is repeated. -/
def Part.repeated (part : Part) (least : Nat) (more : Option Nat) : Part :=
  ⟨.repeated part.pattern least more, part.outline.repetition least more, part.depth + 1⟩

/-- The depth of parts that are put together, and of one of them if it is the only one. -/
def depthOf (count : Nat) (parts : List Part) : Nat :=
  let deepest := parts.foldl (fun depth part => max depth part.depth) 0
  if count ≤ 1 then deepest else deepest + 1

/-- Parts one after the other, given from the last to the first, with `settings` changes of
flags between them, which are parts as well. -/
def Part.sequence (settings : Nat) (reversed : List Part) : Part :=
  ⟨Pattern.sequence (reversed.map Part.pattern),
    Outline.concat (reversed.reverse.map Part.outline),
    depthOf (settings + reversed.length) reversed⟩

/-- Any of several branches, of which `last` stands behind the others and those are given from
the last to the first. -/
def Part.alternatives (reversed : List Part) (last : Part) : Part :=
  let branches := (last :: reversed).reverse
  ⟨Pattern.alternatives (reversed.map Part.pattern) last.pattern,
    Outline.choice (branches.map Part.outline), depthOf branches.length branches⟩

/-! ### Single characters -/

/-- Whether a class of a pattern matches whole scalars only. -/
def Subject.allows (subject : Subject) (cls : CharClass) : Bool :=
  subject = .bytes || cls.scalars || cls.isAscii

/-- A class as a part, unless it would match part of a scalar in a line. -/
def Part.ofClass (subject : Subject) (cls : CharClass) (depth : Nat) :
    Except PatternError Part :=
  if subject.allows cls then .ok ⟨.one cls, .ofClass cls, depth⟩ else .error .partOfScalar

/-- Whether a character is read as a single byte: where characters are bytes, those of
ASCII are, and those that are written as bytes. -/
def Literal.isByte (flags : Flags) (l : Literal) : Bool :=
  !flags.scalars && (l.char.toNat < 0x80 || l.twoDigits)

/-- The class of a character that stands for itself. -/
def Literal.toClass (flags : Flags) (l : Literal) : CharClass :=
  let scalars := !l.isByte flags
  .ofItems scalars (flags.foldCase && (flags.scalars || !scalars)) false
    [.range l.char.toNat l.char.toNat]

/-- An item of a class; where characters are bytes, its ends must be bytes too. -/
def WrittenItem.toItem (subject : Subject) (flags : Flags) (written : WrittenItem) :
    Except PatternError ClassItem := do
  let item ←
    match written with
    | .named item => .ok item
    | .range lo hi =>
      if flags.scalars || (lo.isByte flags && hi.isByte flags) then
        .ok (.range lo.char.toNat hi.char.toNat)
      else .error .scalarAmongBytes
  if subject.allows (.ofItems flags.scalars false false [item]) then .ok item
  else .error .partOfScalar

/-! ### Groups -/

/-- What has been read of an open group. -/
structure OpenGroup where
  /-- Its number, if its stretch is remembered. -/
  number : Option Nat
  /-- The flags in force. -/
  flags : Flags
  /-- The branches that a bar has ended, the last one first. -/
  branches : List Part
  /-- The parts of the branch that is being read, the last one first. -/
  parts : List Part
  /-- How many changes of flags stand among the parts. -/
  settings : Nat
  /-- Whether the last thing read can be repeated. -/
  repeatable : Bool
  deriving DecidableEq, Repr

/-- A group of which nothing has been read. -/
def OpenGroup.beginWith (number : Option Nat) (flags : Flags) : OpenGroup :=
  ⟨number, flags, [], [], 0, false⟩

/-- The group with one more part. -/
def OpenGroup.push (group : OpenGroup) (part : Part) : OpenGroup :=
  { group with parts := part :: group.parts, repeatable := true }

/-- The branch that is being read. -/
def OpenGroup.branch (group : OpenGroup) : Part :=
  Part.sequence group.settings group.parts

/-- What stands inside a group that is complete. -/
def OpenGroup.content (group : OpenGroup) : Part :=
  match group.branches with
  | [] => group.branch
  | branches => Part.alternatives branches group.branch

/-- A group that is complete, as a part of the one around it. -/
def OpenGroup.toPart (group : OpenGroup) : Part :=
  let content := group.content
  ⟨content.pattern,
    match group.number with
    | some number => .group number content.outline
    | none => content.outline,
    content.depth + 1⟩

/-- What has been read of a pattern. -/
structure PartialPattern where
  /-- The innermost open group. -/
  group : OpenGroup
  /-- The groups around it, the innermost first. -/
  around : List OpenGroup
  /-- How many groups have a number so far. -/
  numbered : Nat
  /-- The names of groups so far. -/
  names : List (List Char)
  deriving DecidableEq, Repr

namespace PartialPattern

/-- The beginning of every pattern. -/
def initially : PartialPattern := ⟨OpenGroup.beginWith none .initially, [], 0, []⟩

/-- One more part in the innermost group. -/
def push (state : PartialPattern) (part : Part) : PartialPattern :=
  { state with group := state.group.push part }

/-- One more class in the innermost group. -/
def pushClass (subject : Subject) (state : PartialPattern) (cls : CharClass) (depth : Nat) :
    Except PatternError PartialPattern :=
  (Part.ofClass subject cls depth).map state.push

/-- Puts a group that begins around what will be read. -/
def enter (state : PartialPattern) (inner : OpenGroup) : PartialPattern :=
  { state with group := inner, around := state.group :: state.around }

/-- Reads one token. -/
def read (subject : Subject) (state : PartialPattern) (token : Token) :
    Except PatternError PartialPattern :=
  let group := state.group
  let flags := group.flags
  match token with
  | .literal l => state.pushClass subject (l.toClass flags) 0
  | .named item => state.pushClass subject (.ofItems flags.scalars false false [item]) 0
  | .bracket negated items => do
    let depth := if items.length ≤ 1 then 1 else 2
    let items ← items.mapM (WrittenItem.toItem subject flags)
    state.pushClass subject (.ofItems flags.scalars flags.foldCase negated items) depth
  | .dot =>
    state.pushClass subject (if flags.dotAll then .all flags.scalars else .dot flags.scalars) 0
  | .caret => .ok (state.push (.look (if flags.multiLine then .lineStart else .textStart)))
  | .dollar => .ok (state.push (.look (if flags.multiLine then .lineEnd else .textEnd)))
  | .look assertion => .ok (state.push (.look assertion))
  | .edge edge => .ok (state.push (.look (.word edge flags.scalars)))
  | .openGroup change => .ok (state.enter (.beginWith none (flags.change change)))
  | .openNumbered name =>
    if name.any state.names.contains then .error .groupNameTwice
    else
      let number := state.numbered + 1
      let state := state.enter (.beginWith (some number) flags)
      .ok { state with numbered := number, names := name.toList ++ state.names }
  | .setFlags change =>
    let group :=
      { group with
        flags := flags.change change, settings := group.settings + 1, repeatable := false }
    .ok { state with group }
  | .closeGroup =>
    match state.around with
    | [] => .error .groupUnopened
    | outer :: around => .ok { state with group := outer.push group.toPart, around }
  | .bar =>
    let group :=
      { group with
        branches := group.branch :: group.branches, parts := [], settings := 0,
        repeatable := false }
    .ok { state with group }
  | .repetition least more =>
    match group.repeatable, group.parts with
    | true, part :: parts =>
      .ok { state with group := { group with parts := part.repeated least more :: parts } }
    | _, _ => .error .repetitionOfNothing

/-- The greatest depth to which parts may be nested. -/
def deepest : Nat := 250

/-- The pattern, if every group is closed, and neither its depth nor its size too great. -/
def finish (state : PartialPattern) : Except PatternError Pattern :=
  match state.around with
  | _ :: _ => .error .groupUnclosed
  | [] =>
    let part := state.group.content
    if deepest < part.depth then .error .nesting
    else if part.outline.isTooLarge then .error .tooLarge
    else .ok part.pattern

end PartialPattern

/-! ### Patterns -/

/-- The pattern that tokens spell. -/
def Pattern.ofTokens (subject : Subject) (tokens : List Token) :
    Except PatternError Pattern := do
  (← tokens.foldlM (PartialPattern.read subject) .initially).finish

/-- The pattern that a string spells. -/
def Pattern.ofString (subject : Subject) (written : String) : Except PatternError Pattern := do
  Pattern.ofTokens subject (← Token.scan written.toList)

end LicenseHeader
