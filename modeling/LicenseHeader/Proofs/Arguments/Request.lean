import LicenseHeader.Arguments.Basic

/-!
# Requests

What the arguments of a command line ask for. The options are given by their spellings: a long
name, a choice of colours, or letters behind one hyphen. A *request* counts the letters and
gathers the choices and the files. Requests add up, so a command line has a request without
being read from left to right.

The answer to a request refuses what is asked for twice, and names only together with more
detail. The sum of the options is the same in every order, but for the list of the colour
choices; and where this list matters it has one element at most. So the order of the options
makes no difference to the answer (`Request.answer_of_perm`).

## Main definitions

* `OptionArgument`: the options that can be repeated and moved.
* `IsFileArgument`: file names that may stand between options.
* `Interleaved`: two lists in their order, mixed into one.
* `Request`, `Request.answer`: what a command line asks for, and the answer.

## Main results

* `Request.of_append`: the request of options and names is the sum of their requests.
* `Request.answer_of_perm`: the order of the options makes no difference.
-/

namespace LicenseHeader

/-! ### Option arguments -/

/-- The letters of the options that ask for something. -/
inductive OptionLetter where
  /-- More detail. -/
  | verbose
  /-- Names only. -/
  | quiet
  deriving DecidableEq, Repr

/-- The byte of a letter. -/
def OptionLetter.byte : OptionLetter → UInt8
  | .verbose => 0x76
  | .quiet => 0x71

/-- The switch of a letter. -/
def OptionLetter.switch : OptionLetter → Arguments.Switch
  | .verbose => .verbose
  | .quiet => .quiet

/-- An argument that is an option. -/
inductive OptionArgument where
  /-- One letter by its long name. -/
  | long (letter : OptionLetter)
  /-- When output is coloured. -/
  | colors (choice : ColorChoice)
  /-- One letter or more behind a hyphen. -/
  | short (first : OptionLetter) (others : List OptionLetter)
  deriving DecidableEq, Repr

/-- The long name of a letter. -/
def OptionLetter.name : OptionLetter → Bytes
  | .verbose => Bytes.ofString "verbose"
  | .quiet => Bytes.ofString "quiet"

/-- The word for a choice of colours. -/
def ColorChoice.word : ColorChoice → Bytes
  | .auto => Bytes.ofString "auto"
  | .never => Bytes.ofString "never"
  | .always => Bytes.ofString "always"

/-- How an option is written. -/
def OptionArgument.written : OptionArgument → Bytes
  | .long letter => Bytes.ofString "--" ++ letter.name
  | .colors choice => Bytes.ofString "--colors=" ++ choice.word
  | .short first others => 0x2D :: (first :: others).map OptionLetter.byte

/-- The letters of an option. -/
def OptionArgument.letters : OptionArgument → List OptionLetter
  | .long letter => [letter]
  | .colors _ => []
  | .short first others => first :: others

/-- The choice of colours that an option makes. -/
def OptionArgument.choice? : OptionArgument → Option ColorChoice
  | .colors choice => some choice
  | _ => none

/-- An argument that is a file name wherever no value is asked for: a single hyphen, or bytes
that do not begin with one. -/
def IsFileArgument (argument : Bytes) : Prop :=
  argument = [0x2D] ∨ ∃ b rest, argument = b :: rest ∧ b ≠ 0x2D

/-- The third list has the elements of the first two, those of each in their order. -/
inductive Interleaved {α : Type} : List α → List α → List α → Prop
  /-- Nothing. -/
  | nil : Interleaved [] [] []
  /-- An element of the first list comes first. -/
  | left {left right mixed : List α} (a : α) (h : Interleaved left right mixed) :
      Interleaved (a :: left) right (a :: mixed)
  /-- An element of the second list comes first. -/
  | right {left right mixed : List α} (a : α) (h : Interleaved left right mixed) :
      Interleaved left (a :: right) (a :: mixed)

/-! ### Requests -/

/-- What arguments ask for. -/
@[ext] structure Request where
  /-- The files, in their order. -/
  files : List Bytes
  /-- How many times more detail is asked for. -/
  verbose : Nat
  /-- How many times it is asked for names only. -/
  quiet : Nat
  /-- The choices of colours. -/
  colors : List ColorChoice
  deriving DecidableEq, Repr

namespace Request

/-- What letters ask for. -/
def ofLetters (letters : List OptionLetter) : Request :=
  ⟨[], letters.count .verbose, letters.count .quiet, []⟩

/-- What options and file names ask for. -/
def of (options : List OptionArgument) (files : List Bytes) : Request :=
  ⟨files, (options.flatMap OptionArgument.letters).count .verbose,
    (options.flatMap OptionArgument.letters).count .quiet,
    options.filterMap OptionArgument.choice?⟩

/-- Requests add up. -/
instance : Append Request where
  append first second := ⟨first.files ++ second.files, first.verbose + second.verbose,
    first.quiet + second.quiet, first.colors ++ second.colors⟩

/-- What is asked for is not asked for twice, except for more detail. -/
def Once (request : Request) : Prop :=
  request.quiet ≤ 1 ∧ request.colors.length ≤ 1

/-- The answer to a request. More detail is counted up to 255, and excluded by names only. -/
def answer (request : Request) : Except Refusal Options :=
  if 1 < request.quiet ∨ 1 < request.colors.length ∨ 0 < request.quiet ∧ 0 < request.verbose then
    .error .conflict
  else
    .ok ⟨request.files, min 255 request.verbose, decide (0 < request.quiet),
      request.colors.head?.getD .auto⟩

section Sums

variable (first second third : Request)

@[simp] theorem files_append : (first ++ second).files = first.files ++ second.files := rfl

@[simp] theorem verbose_append : (first ++ second).verbose = first.verbose + second.verbose := rfl

@[simp] theorem quiet_append : (first ++ second).quiet = first.quiet + second.quiet := rfl

@[simp] theorem colors_append : (first ++ second).colors = first.colors ++ second.colors := rfl

@[simp] theorem colors_ofLetters (letters : List OptionLetter) : (ofLetters letters).colors = [] :=
  rfl

/-- Requests may be added in any grouping. -/
theorem append_assoc : first ++ second ++ third = first ++ (second ++ third) := by
  ext1
  · exact List.append_assoc _ _ _
  · exact Nat.add_assoc _ _ _
  · exact Nat.add_assoc _ _ _
  · exact List.append_assoc _ _ _

end Sums

/-- What is asked for twice stays so. -/
theorem Once.of_append {first second : Request} (h : (first ++ second).Once) : first.Once := by
  obtain ⟨hquiet, hcolors⟩ := h
  rw [quiet_append] at hquiet
  rw [colors_append, List.length_append] at hcolors
  exact ⟨by omega, by omega⟩

/-- More detail and more files may be asked for at any time. -/
theorem Once.append {first second : Request} (h : first.Once) (hquiet : second.quiet = 0)
    (hcolors : second.colors = []) : (first ++ second).Once := by
  refine ⟨?_, ?_⟩
  · rw [quiet_append, hquiet]
    exact h.1
  · rw [colors_append, hcolors, List.append_nil]
    exact h.2

/-- Asking for nothing adds nothing. -/
theorem append_empty (request : Request) : request ++ ofLetters [] = request := by
  ext1
  · exact List.append_nil _
  · rfl
  · rfl
  · exact List.append_nil _

/-- Adding to nothing gives what is added. -/
theorem empty_append (request : Request) : ofLetters [] ++ request = request := by
  ext1
  · rfl
  · exact Nat.zero_add _
  · exact Nat.zero_add _
  · rfl

/-- Letters ask for the sum of what they ask for. -/
theorem ofLetters_append (letters letters' : List OptionLetter) :
    ofLetters (letters ++ letters') = ofLetters letters ++ ofLetters letters' := by
  rw [ofLetters, List.count_append, List.count_append]
  rfl

/-- Options and names ask for the sum of what they ask for. -/
theorem of_append (options options' : List OptionArgument) (files files' : List Bytes) :
    of (options ++ options') (files ++ files') = of options files ++ of options' files' := by
  rw [of, List.flatMap_append, List.filterMap_append, List.count_append, List.count_append]
  rfl

/-- One option asks for its letters and its choice. -/
theorem of_singleton (option : OptionArgument) :
    of [option] [] = ⟨[], option.letters.count .verbose, option.letters.count .quiet,
      option.choice?.toList⟩ := by
  rw [of, List.flatMap_singleton]
  cases option <;> rfl

/-! ### Answers -/

/-- The order of the options makes no difference to the answer. -/
theorem answer_of_perm {options options' : List OptionArgument}
    (h : options'.Perm options) (files : List Bytes) :
    (of options' files).answer = (of options files).answer := by
  have hletters := h.flatMap_right OptionArgument.letters
  have hchoices := h.filterMap OptionArgument.choice?
  have hverbose := hletters.count_eq .verbose
  have hquiet := hletters.count_eq .quiet
  rw [answer, answer, of, of]
  simp only [hverbose, hquiet, hchoices.length_eq]
  split
  · rfl
  · next hanswered =>
      -- there is one choice of colours at most, and so no other order of them
      have hsame : options'.filterMap OptionArgument.choice? =
          options.filterMap OptionArgument.choice? := by
        cases hlist : options.filterMap OptionArgument.choice? with
        | nil =>
            rw [hlist] at hchoices
            exact hchoices.eq_nil
        | cons choice others =>
            rw [hlist, List.length_cons] at hanswered
            have hnone : others = [] := List.length_eq_zero_iff.mp (by omega)
            rw [hlist, hnone] at hchoices
            rw [hchoices.eq_singleton, hnone]
      rw [hsame]

/-- No request is answered with names only and more detail. -/
theorem not_quiet_and_verbose {request : Request} {options : Options}
    (h : request.answer = .ok options) : ¬(options.quiet = true ∧ 0 < options.verbose) := by
  rw [answer] at h
  split at h
  · exact absurd h (by simp)
  · next hanswered =>
      obtain rfl := Except.ok.inj h
      rintro ⟨hquiet, hverbose⟩
      have hpos : 0 < request.quiet := of_decide_eq_true hquiet
      have hmore : 0 < min 255 request.verbose := hverbose
      omega

end Request

end LicenseHeader
