import LicenseHeader.Pattern.Basic

/-!
# Outlines

What remains of a pattern once it is simplified: the form from which an automaton for it
would be built. Literals that follow each other are one, a choice between single characters
is a class, what all branches of a choice begin with is said once, and a repetition of
something that takes no character happens at most once. Two patterns of one outline need the
same automaton.

## Main definitions

* `Outline`: the outlines.
* `Outline.ofClass`, `Outline.concat`, `Outline.choice`, `Outline.repetition`: the outlines of
  patterns, given those of their parts.
* `Outline.needsCharacter`, `Outline.takesNothing`, `Outline.beginsAtStart`,
  `Outline.finishesAtEnd`: what can be told from an outline about all that it describes.
-/

namespace LicenseHeader

/-- A simplified pattern. -/
inductive Outline where
  /-- The empty stretch. -/
  | empty
  /-- Some bytes in a row. -/
  | literal (bytes : Bytes)
  /-- One character of a class. -/
  | oneOf (cls : CharClass)
  /-- The empty stretch at a place that fulfils a condition. -/
  | look (assertion : Assertion)
  /-- A group whose stretch is remembered. -/
  | group (number : Nat) (o : Outline)
  /-- So many stretches in a row and then further ones, at most `more` if that is given. -/
  | repeated (o : Outline) (least : Nat) (more : Option Nat)
  /-- One stretch and then what follows it. -/
  | seq (o rest : Outline)
  /-- A stretch of the first branch or of those behind it. -/
  | alt (o rest : Outline)
  deriving DecidableEq, Repr

namespace Outline

/-! ### What can be told from an outline -/

/-- Whether it describes nothing at all, since a class in it is empty. -/
def isHopeless : Outline → Bool
  | .empty | .literal _ | .look _ => false
  | .oneOf cls => cls.ranges.isEmpty
  | .group _ o => o.isHopeless
  | .repeated o _ _ => o.isHopeless
  | .seq o rest => o.isHopeless || rest.isHopeless
  | .alt o rest => o.isHopeless || rest.isHopeless

/-- Whether every stretch that it describes takes a character. -/
def needsCharacter : Outline → Bool
  | .empty | .look _ => false
  | .literal _ | .oneOf _ => true
  | .group _ o => o.needsCharacter
  | .repeated o least _ => least != 0 && o.needsCharacter
  | .seq o rest => o.needsCharacter || rest.needsCharacter
  | .alt o rest => o.needsCharacter && rest.needsCharacter

/-- Whether no stretch that it describes takes a character. -/
def takesNothing : Outline → Bool
  | .empty | .look _ => true
  | .literal _ | .oneOf _ => false
  | .group _ o => o.takesNothing
  | .repeated o _ _ => o.takesNothing
  | .seq o rest => o.takesNothing && rest.takesNothing
  | .alt o rest => o.takesNothing && rest.takesNothing

/-- Whether every stretch that it describes begins at the start of the haystack. -/
def beginsAtStart : Outline → Bool
  | .look assertion => assertion = .textStart
  | .empty | .literal _ | .oneOf _ => false
  | .group _ o => o.beginsAtStart
  | .repeated o least _ => least != 0 && o.beginsAtStart
  | .seq o rest => o.beginsAtStart || (o.takesNothing && rest.beginsAtStart)
  | .alt o rest => o.beginsAtStart && rest.beginsAtStart

/-- Whether every stretch that it describes finishes at the end of the haystack, where
`before` says so of what stands in front of it. -/
def finishesAtEnd (before : Bool) : Outline → Bool
  | .look assertion => assertion = .textEnd || before
  | .empty => before
  | .literal _ | .oneOf _ => false
  | .group _ o => o.finishesAtEnd before
  | .repeated o least _ =>
    (least != 0 && o.finishesAtEnd false) || (o.takesNothing && before)
  | .seq o rest => rest.finishesAtEnd (o.finishesAtEnd before)
  | .alt o rest =>
    (o.finishesAtEnd false && rest.finishesAtEnd false) ||
      (o.takesNothing && rest.takesNothing && before)

/-! ### Classes -/

/-- The outline of a class. A class of one character is a literal. -/
def ofClass (cls : CharClass) : Outline :=
  match cls.ranges with
  | [(lo, hi)] =>
    if lo = hi then
      .literal (if cls.scalars then Utf8.encode [Char.ofNat lo] else [lo.toUInt8])
    else .oneOf cls
  | _ => .oneOf cls

/-! ### Sequences -/

/-- Puts the parts of a sequence onto `before`, the last one first. Empty stretches are left
out. -/
def partsOnto (before : List Outline) : Outline → List Outline
  | .seq o rest => rest.partsOnto (o :: before)
  | .empty => before
  | o => o :: before

/-- The parts of a sequence. -/
def parts (o : Outline) : List Outline :=
  (o.partsOnto []).reverse

/-- Puts a part in front of others. Two literals become one. -/
def join : Outline → List Outline → List Outline
  | .literal bytes, .literal bytes' :: parts => .literal (bytes ++ bytes') :: parts
  | o, parts => o :: parts

/-- The sequence of parts that are no sequences. -/
def ofParts (parts : List Outline) : Outline :=
  match parts.reverse with
  | [] => .empty
  | last :: before => before.foldl (fun rest o => .seq o rest) last

/-- One outline after the other. -/
def concat : List Outline → Outline
  | [o] => o
  | outlines => ofParts ((outlines.foldl partsOnto []).foldl (fun parts o => join o parts) [])

/-! ### Repetitions -/

/-- A repetition. One of something that takes no character happens at most once. -/
def repetition (o : Outline) (least : Nat) (more : Option Nat) : Outline :=
  let (least, more) :=
    if o.takesNothing then
      (min least 1, if least = 0 then some (min 1 (more.getD 1)) else some 0)
    else (least, more)
  match least, more with
  | 0, some 0 => .empty
  | 1, some 0 => o
  | least, more => .repeated o least more

/-! ### Choices -/

/-- Puts the branches of a choice onto `before`, the last one first. -/
def branchesOnto (before : List Outline) : Outline → List Outline
  | .alt o rest => rest.branchesOnto (o :: before)
  | o => o :: before

/-- The branches of a choice. -/
def branches (o : Outline) : List Outline :=
  (o.branchesOnto []).reverse

/-- The choice between branches that are no choices. -/
def ofBranches (branches : List Outline) : Outline :=
  match branches.reverse with
  | [] => .oneOf ⟨false, []⟩
  | last :: before => before.foldl (fun rest o => .alt o rest) last

/-- The scalar that a literal spells, if it is a single one. -/
def scalar? : Outline → Option Nat
  | .literal bytes =>
    match Utf8.front? bytes with
    | some (c, width) => if width = bytes.length then some c.toNat else none
    | none => none
  | _ => none

/-- The byte that a literal holds, if it is a single one. -/
def byte? : Outline → Option Nat
  | .literal [b] => some b.toNat
  | _ => none

/-- The class of an outline that is one, over scalars or over bytes. Only a class within ASCII
can be both. -/
def class? (scalars : Bool) : Outline → Option Ranges
  | .oneOf cls => if cls.scalars = scalars || cls.isAscii then some cls.ranges else none
  | _ => none

/-- The class of all that one of several branches accepts, if all are single scalars, or
single bytes, or else if all are classes. -/
def mergeBranches (branches : List Outline) : Option CharClass :=
  let ofNumbers (numbers : List Nat) : Ranges :=
    numbers.foldl (fun ranges n => Ranges.insert n n ranges) []
  let ofRanges (sets : List Ranges) : Ranges :=
    sets.foldl (fun ranges set => Ranges.union set ranges) []
  ((branches.mapM scalar?).map fun numbers => ⟨true, ofNumbers numbers⟩) <|>
    ((branches.mapM byte?).map fun numbers => ⟨false, ofNumbers numbers⟩) <|>
    ((branches.mapM (class? true)).map fun sets => ⟨true, ofRanges sets⟩) <|>
    ((branches.mapM (class? false)).map fun sets => ⟨false, ofRanges sets⟩)

/-- How many parts two sequences have in common at their beginning. -/
def commonLength : List Outline → List Outline → Nat
  | o :: parts, o' :: parts' => if o = o' then commonLength parts parts' + 1 else 0
  | _, _ => 0

/-- How many parts all branches have in common at their beginning, if all are sequences. -/
def sharedLength : List Outline → Nat
  | .seq o rest :: branches =>
    let parts := (Outline.seq o rest).parts
    branches.foldl
      (fun shared branch =>
        match branch with
        | .seq .. => min shared (commonLength parts branch.parts)
        | _ => 0)
      parts.length
  | _ => 0

/-- How many outlines are in an outline, itself among them, and `others` besides. -/
def countFrom (others : Nat) : Outline → Nat
  | .empty | .literal _ | .oneOf _ | .look _ => others + 1
  | .group _ o => o.countFrom (others + 1)
  | .repeated o _ _ => o.countFrom (others + 1)
  | .seq o rest => rest.countFrom (o.countFrom (others + 1))
  | .alt o rest => rest.countFrom (o.countFrom (others + 1))

/-- The choice between branches. Branches of branches are branches, and what all of them begin
with is put in front of the choice between their remainders. Each round takes away a part of
every branch, so as many rounds as there are outlines in the branches are enough. -/
def choiceIn : Nat → List Outline → Outline
  | rounds, outlines =>
    match (outlines.foldl branchesOnto []).reverse with
    | [o] => o
    | branches =>
      match mergeBranches branches with
      | some cls => ofClass cls
      | none =>
        match rounds, sharedLength branches with
        | rounds + 1, shared + 1 =>
          let remainders := branches.map fun branch => concat (branch.parts.drop (shared + 1))
          let front := (branches.head?.map fun branch => branch.parts.take (shared + 1)).getD []
          concat (front ++ [choiceIn rounds remainders])
        | _, _ => ofBranches branches

/-- The choice between outlines. -/
def choice (outlines : List Outline) : Outline :=
  choiceIn (outlines.foldl countFrom 0) outlines

end Outline

end LicenseHeader
