import LicenseHeader.Pattern.Basic

/-!
# Tokens of written patterns

A written pattern is cut into tokens before its groups and repetitions are put together.
Every token is decided by the characters that spell it: what a flag changes about its
meaning is left for later.

## Main definitions

* `PatternError`: why a written pattern is none.
* `Token`: the tokens.
* `Token.scan`: the tokens of a written pattern.
-/

namespace LicenseHeader

/-! ### Errors -/

/-- Why a written pattern is none. -/
inductive PatternError where
  /-- A group is still open at the end. -/
  | groupUnclosed
  /-- A group is closed that was never opened. -/
  | groupUnopened
  /-- A group that looks ahead or behind. -/
  | lookAround
  /-- A group whose name is empty, unfinished or badly made. -/
  | groupName
  /-- Two groups of one name. -/
  | groupNameTwice
  /-- Flags that are unknown, repeated, missing or unfinished. -/
  | flags
  /-- A repetition of nothing. -/
  | repetitionOfNothing
  /-- Counts that are unfinished, malformed or too large. -/
  | count
  /-- A least count above the greatest one. -/
  | countsInverted
  /-- A class is still open at the end. -/
  | classUnclosed
  /-- Something in a class that is no character and no set of characters. -/
  | classItem
  /-- Two ends of a range that are no characters or stand in the wrong order. -/
  | classRange
  /-- A class inside a class, or an operation on classes. -/
  | classOperation
  /-- An escape that is unfinished or has no meaning. -/
  | escape
  /-- A reference to a group. -/
  | backReference
  /-- A number that is no Unicode scalar. -/
  | codePoint
  /-- A pattern for lines that could match part of a scalar. -/
  | partOfScalar
  /-- A character beyond ASCII in a class of bytes. -/
  | scalarAmongBytes
  /-- Parts that stand too deep inside each other. -/
  | nesting
  /-- A pattern whose automaton takes too much memory. -/
  | tooLarge
  deriving DecidableEq, Repr

/-- The wording of an error. -/
def PatternError.message : PatternError → String
  | .groupUnclosed => "unclosed group"
  | .groupUnopened => "unopened group"
  | .lookAround => "look-around is not supported"
  | .groupName => "invalid group name"
  | .groupNameTwice => "duplicate group name"
  | .flags => "invalid flags"
  | .repetitionOfNothing => "repetition operator missing expression"
  | .count => "invalid repetition count"
  | .countsInverted => "invalid repetition count range"
  | .classUnclosed => "unclosed character class"
  | .classItem => "invalid escape sequence in a character class"
  | .classRange => "invalid character class range"
  | .classOperation => "set operations in a character class are not supported"
  | .escape => "invalid escape sequence"
  | .backReference => "backreferences are not supported"
  | .codePoint => "not a Unicode scalar value"
  | .partOfScalar => "pattern can match invalid UTF-8"
  | .scalarAmongBytes => "Unicode is not allowed here"
  | .nesting => "parts are nested too deep"
  | .tooLarge => "pattern exceeds the size limit"

/-! ### Tokens -/

/-- A character that stands for itself. -/
structure Literal where
  /-- The character. -/
  char : Char
  /-- Whether it was written as a backslash, an x and two hexadecimal digits, which is how
  single bytes are written. -/
  twoDigits : Bool
  deriving DecidableEq, Repr

/-- An item of a class as it is written. -/
inductive WrittenItem where
  /-- The characters from one to another. -/
  | range (lo hi : Literal)
  /-- A named set. -/
  | named (item : ClassItem)
  deriving DecidableEq, Repr

/-- What the flags of a pattern turn on and off. -/
inductive Flag where
  /-- Letters match in either case. -/
  | foldCase
  /-- The dot matches the line feed too. -/
  | dotAll
  /-- `^` and `$` match at line feeds too. -/
  | multiLine
  /-- Characters are scalars, and not bytes. -/
  | scalars
  deriving DecidableEq, Repr

/-- The flags to turn on and those to turn off. -/
structure FlagChange where
  /-- Flags to turn on. -/
  on : List Flag
  /-- Flags to turn off. -/
  off : List Flag
  deriving DecidableEq, Repr

/-- What an escape stands for. -/
inductive Escape where
  /-- A character. -/
  | literal (literal : Literal)
  /-- A named set. -/
  | named (item : ClassItem)
  /-- An end of the haystack. -/
  | look (assertion : Assertion)
  /-- An edge of words. -/
  | edge (edge : WordEdge)
  deriving DecidableEq, Repr

/-- The tokens of a written pattern. -/
inductive Token where
  /-- A character. -/
  | literal (literal : Literal)
  /-- A named set. -/
  | named (item : ClassItem)
  /-- A class in brackets. -/
  | bracket (negated : Bool) (items : List WrittenItem)
  /-- `.` -/
  | dot
  /-- `^` -/
  | caret
  /-- `$` -/
  | dollar
  /-- An end of the haystack, whatever the flags. -/
  | look (assertion : Assertion)
  /-- An edge of words. -/
  | edge (edge : WordEdge)
  /-- The beginning of a group, with the flags that it changes inside. -/
  | openGroup (change : FlagChange)
  /-- The beginning of a group whose stretch is remembered, with its name. -/
  | openNumbered (name : Option (List Char))
  /-- A change of flags for the rest of the group. -/
  | setFlags (change : FlagChange)
  /-- The end of a group. -/
  | closeGroup
  /-- `|` -/
  | bar
  /-- A repetition of the item before it: so many and then at most so many more. -/
  | repetition (least : Nat) (more : Option Nat)
  deriving DecidableEq, Repr

/-- A part of a written pattern that was read, and the characters behind it. -/
abbrev Scanned (β : Type) := β × List Char

/-! ### Escapes -/

/-- The value of a hexadecimal digit. -/
def hexValue? (c : Char) : Option Nat :=
  let n := c.toNat
  if 0x30 ≤ n ∧ n ≤ 0x39 then some (n - 0x30)
  else if 0x41 ≤ n ∧ n ≤ 0x46 then some (n - 0x41 + 10)
  else if 0x61 ≤ n ∧ n ≤ 0x66 then some (n - 0x61 + 10)
  else none

/-- The number that hexadecimal digits write behind the digits of `value`. -/
def hexNumber? (value : Nat) : List Char → Option Nat
  | [] => some value
  | c :: cs =>
    match hexValue? c with
    | some digit => hexNumber? (value * 16 + digit) cs
    | none => none

/-- The scalar of a number that hexadecimal digits write. -/
def scalarOfHex (digits : List Char) : Except PatternError Char :=
  match hexNumber? 0 digits with
  | none => .error .escape
  | some n => if n.isValidChar then .ok (Char.ofNat n) else .error .codePoint

/-- A scalar written by its number, behind the letter that says how many digits it has
unless braces enclose them. -/
def scanHex (width : Nat) : List Char → Except PatternError (Scanned Literal)
  | '\x7b' :: cs =>
    match cs.span (· != '\x7d') with
    | ([], _) => .error .escape
    | (_, []) => .error .escape
    | (digits, _ :: rest) => (scalarOfHex digits).map fun c => (⟨c, false⟩, rest)
  | cs =>
    if (cs.take width).length == width then
      (scalarOfHex (cs.take width)).map fun c => (⟨c, width == 2⟩, cs.drop width)
    else .error .escape

/-- Whether a backslash before a character takes away any meaning that it has. This holds
of the characters of ASCII except letters, digits and the two angles. -/
def isEscapable (c : Char) : Bool :=
  let n := c.toNat
  n < 0x80 && !isAsciiLetter n && !isAsciiDigit n && c != '<' && c != '>'

/-- What the characters behind a backslash stand for. -/
def scanEscape : List Char → Except PatternError (Scanned Escape)
  | [] => .error .escape
  | c :: cs =>
    let literal (c : Char) : Except PatternError (Scanned Escape) :=
      .ok (.literal ⟨c, false⟩, cs)
    let hex (width : Nat) : Except PatternError (Scanned Escape) :=
      (scanHex width cs).map fun (literal, rest) => (.literal literal, rest)
    match c with
    | 'x' => hex 2
    | 'u' => hex 4
    | 'U' => hex 8
    | 'd' => .ok (.named (.digit false), cs)
    | 'D' => .ok (.named (.digit true), cs)
    | 's' => .ok (.named (.blank false), cs)
    | 'S' => .ok (.named (.blank true), cs)
    | 'w' => .ok (.named (.word false), cs)
    | 'W' => .ok (.named (.word true), cs)
    | 'a' => literal '\x07'
    | 't' => literal '\t'
    | 'n' => literal '\n'
    | 'v' => literal '\x0b'
    | 'f' => literal '\x0c'
    | 'r' => literal '\r'
    | 'A' => .ok (.look .textStart, cs)
    | 'z' => .ok (.look .textEnd, cs)
    | 'b' => .ok (.edge .boundary, cs)
    | 'B' => .ok (.edge .noBoundary, cs)
    | '<' => .ok (.edge .start, cs)
    | '>' => .ok (.edge .finish, cs)
    | c =>
      if isEscapable c then literal c
      else if isAsciiDigit c.toNat then .error .backReference
      else .error .escape

/-! ### Classes -/

/-- One end of a range, or a single item. -/
def scanClassItem : List Char → Except PatternError (Scanned Escape)
  | [] => .error .classUnclosed
  | '\\' :: cs => scanEscape cs
  | c :: cs => .ok (.literal ⟨c, false⟩, cs)

/-- An item that is no range. -/
def WrittenItem.ofEscape : Escape → Except PatternError WrittenItem
  | .literal l => .ok (.range l l)
  | .named item => .ok (.named item)
  | _ => .error .classItem

/-- The range between two items, which must be characters in order. -/
def WrittenItem.ofEnds : Escape → Escape → Except PatternError WrittenItem
  | .literal lo, .literal hi =>
    if lo.char.toNat ≤ hi.char.toNat then .ok (.range lo hi) else .error .classRange
  | _, _ => .error .classRange

/-- The items of a class up to its closing bracket; `items` holds those read so far, the
last one first. Every round reads at least one character, so as many rounds as there are
characters are enough. -/
def scanClassItems (items : List WrittenItem) :
    Nat → List Char → Except PatternError (Scanned (List WrittenItem))
  | 0, _ => .error .classUnclosed
  | rounds + 1, cs =>
    match cs with
    | [] => .error .classUnclosed
    | ']' :: rest => .ok (items.reverse, rest)
    | '[' :: _ => .error .classOperation
    | '&' :: '&' :: _ => .error .classOperation
    | '-' :: '-' :: _ => .error .classOperation
    | '~' :: '~' :: _ => .error .classOperation
    | cs => do
      let (first, rest) ← scanClassItem cs
      let single : Except PatternError (Scanned (List WrittenItem)) := do
        let item ← WrittenItem.ofEscape first
        scanClassItems (item :: items) rounds rest
      match rest with
      | '-' :: ']' :: _ => single
      | '-' :: '-' :: _ => single
      | '-' :: more =>
        let (last, rest) ← scanClassItem more
        let item ← WrittenItem.ofEnds first last
        scanClassItems (item :: items) rounds rest
      | _ => single

/-- A character that stands for itself as an item of a class. -/
def WrittenItem.ofChar (c : Char) : WrittenItem :=
  .range ⟨c, false⟩ ⟨c, false⟩

/-- A class behind its opening bracket, with at most `length` characters behind that. Hyphens
at its beginning stand for themselves, and so does a closing bracket that comes first. -/
def scanClass (length : Nat) (cs : List Char) : Except PatternError (Scanned Token) := do
  let (negated, cs) :=
    match cs with
    | '^' :: cs => (true, cs)
    | cs => (false, cs)
  let (hyphens, cs) := cs.span (· == '-')
  let (first, cs) :=
    match hyphens, cs with
    | [], ']' :: cs => ([WrittenItem.ofChar ']'], cs)
    | hyphens, cs => (hyphens.map WrittenItem.ofChar, cs)
  let (items, cs) ← scanClassItems first (length + 1) cs
  return (.bracket negated items, cs)

/-! ### Repetitions -/

/-- The greatest count that may be written. -/
def greatestCount : Nat := 4294967295

/-- A number between blanks, or nothing if there is none. -/
def scanNumber (cs : List Char) : Except PatternError (Scanned (Option Nat)) :=
  let cs := cs.dropWhile fun c => isBlank c.toNat
  let (digits, cs) := cs.span fun c => isAsciiDigit c.toNat
  let cs := cs.dropWhile fun c => isBlank c.toNat
  let value := digits.foldl (fun value c => value * 10 + (c.toNat - 0x30)) 0
  if digits.isEmpty then .ok (none, cs)
  else if value ≤ greatestCount then .ok (some value, cs)
  else .error .count

/-- Counts behind their opening brace: the least one, and how many more there may be. -/
def scanCounts (cs : List Char) : Except PatternError (Scanned (Nat × Option Nat)) := do
  match ← scanNumber cs with
  | (some least, '\x7d' :: cs) => return ((least, some 0), cs)
  | (some least, ',' :: '\x7d' :: cs) => return ((least, none), cs)
  | (some least, ',' :: cs) =>
    match ← scanNumber cs with
    | (some most, '\x7d' :: cs) =>
      if least ≤ most then return ((least, some (most - least)), cs)
      else .error .countsInverted
    | _ => .error .count
  | _ => .error .count

/-- A repetition together with the question mark that makes it lazy, which has no bearing
on whether a pattern is found. -/
def repetitionOf (least : Nat) (more : Option Nat) : List Char → Scanned Token
  | '?' :: cs => (.repetition least more, cs)
  | cs => (.repetition least more, cs)

/-! ### Groups -/

/-- Whether a character may begin the name of a group. -/
def startsGroupName (c : Char) : Bool :=
  c == '_' || isAlphabetic c.toNat

/-- Whether a character may go on with the name of a group. -/
def continuesGroupName (c : Char) : Bool :=
  c == '_' || c == '.' || c == '[' || c == ']' || isAlphanumeric c.toNat

/-- A group behind the angle that opens its name. -/
def scanGroupName (cs : List Char) : Except PatternError (Scanned Token) :=
  match cs.span (· != '>') with
  | (first :: name, _ :: rest) =>
    if startsGroupName first && name.all continuesGroupName then
      .ok (.openNumbered (some (first :: name)), rest)
    else .error .groupName
  | _ => .error .groupName

/-- The flag of a letter. -/
def Flag.ofLetter? : Char → Option Flag
  | 'i' => some .foldCase
  | 's' => some .dotAll
  | 'm' => some .multiLine
  | 'u' => some .scalars
  | _ => none

/-- Flags up to the parenthesis that ends them or the colon that begins their group.
`off` is none until a hyphen has been read, and behind that hyphen some flag must stand. -/
def scanFlags (on : List Flag) (off : Option (List Flag)) :
    List Char → Except PatternError (Scanned Token)
  | [] => .error .flags
  | ')' :: cs =>
    match on, off with
    | [], none => .error .repetitionOfNothing
    | _, some [] => .error .flags
    | on, off => .ok (.setFlags ⟨on, off.getD []⟩, cs)
  | ':' :: cs =>
    match off with
    | some [] => .error .flags
    | off => .ok (.openGroup ⟨on, off.getD []⟩, cs)
  | '-' :: cs =>
    match off with
    | none => scanFlags on (some []) cs
    | some _ => .error .flags
  | c :: cs =>
    match Flag.ofLetter? c with
    | none => .error .flags
    | some flag =>
      if on.contains flag || (off.getD []).contains flag then .error .flags
      else
        match off with
        | none => scanFlags (flag :: on) none cs
        | some off => scanFlags on (some (flag :: off)) cs

/-- A group behind its opening parenthesis. -/
def scanGroup : List Char → Except PatternError (Scanned Token)
  | '?' :: '=' :: _ => .error .lookAround
  | '?' :: '!' :: _ => .error .lookAround
  | '?' :: '<' :: '=' :: _ => .error .lookAround
  | '?' :: '<' :: '!' :: _ => .error .lookAround
  | '?' :: 'P' :: '<' :: cs => scanGroupName cs
  | '?' :: '<' :: cs => scanGroupName cs
  | '?' :: cs => scanFlags [] none cs
  | cs => .ok (.openNumbered none, cs)

/-! ### All tokens -/

/-- The token of an escape. -/
def Token.ofEscape : Escape → Token
  | .literal l => .literal l
  | .named item => .named item
  | .look assertion => .look assertion
  | .edge e => .edge e

/-- The token that begins with the character `c`, with at most `length` characters behind
it. -/
def Token.scanOne (length : Nat) (c : Char) (cs : List Char) :
    Except PatternError (Scanned Token) :=
  match c with
  | '(' => scanGroup cs
  | ')' => .ok (.closeGroup, cs)
  | '|' => .ok (.bar, cs)
  | '[' => scanClass length cs
  | '?' => .ok (repetitionOf 0 (some 1) cs)
  | '*' => .ok (repetitionOf 0 none cs)
  | '+' => .ok (repetitionOf 1 none cs)
  | '\x7b' => (scanCounts cs).map fun ((least, more), rest) => repetitionOf least more rest
  | '.' => .ok (.dot, cs)
  | '^' => .ok (.caret, cs)
  | '$' => .ok (.dollar, cs)
  | '\\' => (scanEscape cs).map fun (escape, rest) => (Token.ofEscape escape, rest)
  | c => .ok (.literal ⟨c, false⟩, cs)

/-- The tokens of the characters behind those of `tokens`, which are reversed. Every round
reads at least one character, so as many rounds as there are characters are enough. -/
def Token.scanFrom (tokens : List Token) : Nat → List Char → Except PatternError (List Token)
  | _, [] => .ok tokens.reverse
  | 0, _ => .ok tokens.reverse
  | rounds + 1, c :: cs =>
    match Token.scanOne rounds c cs with
    | .error e => .error e
    | .ok (token, rest) => Token.scanFrom (token :: tokens) rounds rest

/-- The tokens of a written pattern. -/
def Token.scan (written : List Char) : Except PatternError (List Token) :=
  Token.scanFrom [] written.length written

end LicenseHeader
