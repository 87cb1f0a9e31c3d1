import LicenseHeader.Failure
import LicenseHeader.Pattern.Reading
import LicenseHeader.Pattern.Search

/-!
# Configurations

A configuration says which header is expected, of which files, and within how many lines.
Its patterns are read once, so a configuration that exists has no malformed pattern.

## Main definitions

* `Rule`: a pattern together with the text that it was read from.
* `Config`, `Config.ofStrings`: configurations.
* `Config.moonfire`: the expected header of Moonfire NVR.

## Main results

* `Config.of_ofStrings`: what a configuration was read from.
* `Rule.patterns_of_mapM`: the patterns of rules, from the characters that spell them.
-/

namespace LicenseHeader

/-- A pattern together with the text that it was read from. -/
structure Rule where
  /-- The text. -/
  written : String
  /-- The pattern. -/
  pattern : Pattern
  deriving DecidableEq, Repr

/-- Whether a rule accepts a line. -/
def Rule.accepts (rule : Rule) (line : Line) : Bool :=
  rule.pattern.isIn line

/-- A configuration. -/
structure Config where
  /-- The rules that a header must meet, in the order in which they are tried. -/
  rules : List Rule
  /-- The pattern of the names of files that need a header. -/
  filenames : Rule
  /-- How many lines at the beginning of a file are searched. -/
  window : Nat
  deriving DecidableEq, Repr

/-- A pattern that could not be read. -/
structure ConfigError where
  /-- The text of the pattern. -/
  written : String
  /-- Why it is no pattern. -/
  cause : PatternError
  deriving DecidableEq, Repr

/-- What an error is about, without its cause. -/
def ConfigError.summary (e : ConfigError) : String :=
  "Invalid pattern '" ++ e.written ++ "': "

/-- The wording of an error. -/
def ConfigError.message (e : ConfigError) : String :=
  e.summary ++ e.cause.message

/-- Reads a pattern. -/
def Rule.ofString (subject : Subject) (written : String) : Except ConfigError Rule :=
  match Pattern.ofString subject written with
  | .ok pattern => .ok ⟨written, pattern⟩
  | .error cause => .error ⟨written, cause⟩

/-- Reads a configuration. Of several malformed patterns the first rule counts, and the
pattern of file names comes last. -/
def Config.ofStrings (rules : List String) (filenames : String) (window : Nat) :
    Except ConfigError Config := do
  let rules ← rules.mapM (Rule.ofString .lines)
  let filenames ← Rule.ofString .bytes filenames
  return ⟨rules, filenames, window⟩

/-- What a configuration was read from. -/
theorem Config.of_ofStrings {rules : List String} {filenames : String} {window : Nat}
    {config : Config} (h : Config.ofStrings rules filenames window = .ok config) :
    rules.mapM (Rule.ofString .lines) = .ok config.rules ∧
      Rule.ofString .bytes filenames = .ok config.filenames ∧ config.window = window := by
  obtain ⟨read, hrules, hrest⟩ := exists_of_bind_eq_ok h
  obtain ⟨name, hname, hconfig⟩ := exists_of_bind_eq_ok hrest
  obtain rfl := Except.ok.inj hconfig
  exact ⟨hrules, hname, rfl⟩

/-- A rule has the pattern that the characters of its text spell. -/
theorem Rule.pattern_of_ofString {subject : Subject} {chars : List Char} {rule : Rule}
    {pattern : Pattern} (h : Rule.ofString subject (String.ofList chars) = .ok rule)
    (hread : (Token.scan chars >>= Pattern.ofTokens subject).toOption = some pattern) :
    rule.pattern = pattern := by
  rw [Rule.ofString, Pattern.ofString, String.toList_ofList] at h
  cases hfound : Token.scan chars >>= Pattern.ofTokens subject with
  | error cause =>
      rw [hfound] at hread
      exact nomatch hread
  | ok found =>
      rw [hfound] at h hread
      obtain rfl := Except.ok.inj h
      exact Option.some.inj hread

/-- Rules have the patterns that the characters of their texts spell. -/
theorem Rule.patterns_of_mapM {subject : Subject} {written : List (List Char)}
    {rules : List Rule} {patterns : List Pattern}
    (h : (written.map String.ofList).mapM (Rule.ofString subject) = .ok rules)
    (hread : written.mapM (fun chars =>
      (Token.scan chars >>= Pattern.ofTokens subject).toOption) = some patterns) :
    rules.map Rule.pattern = patterns := by
  induction written generalizing rules patterns with
  | nil =>
      obtain rfl := Except.ok.inj h
      exact Option.some.inj hread
  | cons chars written ih =>
      rw [List.map_cons, List.mapM_cons] at h
      obtain ⟨rule, hrule, h⟩ := exists_of_bind_eq_ok h
      obtain ⟨rest, hrest, h⟩ := exists_of_bind_eq_ok h
      obtain rfl := Except.ok.inj h
      rw [List.mapM_cons] at hread
      obtain ⟨pattern, hpattern, hread⟩ := Option.bind_eq_some_iff.mp hread
      obtain ⟨others, hothers, hread⟩ := Option.bind_eq_some_iff.mp hread
      obtain rfl := Option.some.inj hread
      rw [List.map_cons, pattern_of_ofString hrule hpattern, ih hrest hothers]

/-- Whether a file of this name needs a header. Names are byte strings, and directories are
part of them. -/
def Config.requiresHeader (config : Config) (name : Bytes) : Bool :=
  config.filenames.pattern.isIn name

/-! ### Moonfire NVR -/

/-- The patterns of the expected header. -/
def moonfireRules : List String :=
  ["This file is part of Moonfire NVR, a security camera network video recorder\\.",
    "Copyright \\(C\\) 20\\d\x7b2\x7d The Moonfire NVR Authors; see AUTHORS and LICENSE\\.txt\\.",
    "SPDX-License-Identifier: GPL-v3\\.0-or-later WITH GPL-3\\.0-linking-exception\\.?"]

/-- The pattern of the names of source files. The dot stands for any byte but a line feed,
so names need not be valid UTF-8. -/
def sourceFilenames : String :=
  "(?-u)^.*\\.([jt]sx?|html|css|py|rs|sh|sql)$"

/-- How many lines are searched for the expected header. -/
def defaultWindow : Nat := 10

/-- The expected header of Moonfire NVR. Its patterns are well formed, so this is a
configuration outright. -/
def Config.moonfire : Config :=
  (Config.ofStrings moonfireRules sourceFilenames defaultWindow).toOption.get
    (by decide +kernel)

/-- The expected header is what its patterns are read as. -/
theorem Config.ofStrings_moonfire :
    Config.ofStrings moonfireRules sourceFilenames defaultWindow = .ok Config.moonfire := by
  have hget : ∀ (read : Except ConfigError Config) (h : read.toOption.isSome = true),
      read = .ok (read.toOption.get h) := by
    intro read h
    cases read with
    | error e => exact absurd h Bool.false_ne_true
    | ok config => rfl
  exact hget _ _

end LicenseHeader
