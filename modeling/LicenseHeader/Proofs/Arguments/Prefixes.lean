import LicenseHeader.Arguments.Basic
import LicenseHeader.Failure

/-!
# Arguments that are appended

A command line that is refused stays so whatever is appended to it. Most refusals come up while
the line is read, and then nothing behind the argument at fault is looked at. But some are put
off: what is pending is looked at late, and whether names only goes together with more detail is
asked at the very end. Of these one must see that no further argument makes up for them.

A state is *acceptable* if the line could end there. What a further argument does is told
backwards, by what it leaves no way out of: a state whose pending part is refused, or in which
options exclude each other, leads to states of the same kind (`Arguments.Precedes`). Each part of
the reading has a lemma of this form, from which follows that of one argument
(`Arguments.precedes_of_read`), and by induction that of a whole line.

## Main definitions

* `Pending.Accepted`: whether what is pending is in order.
* `Arguments.Acceptable`: states in which a command line may end.
* `Arguments.Precedes`: states on the way to another one.
* `Refusal.isFinal`: refusals that nothing else takes the place of.

## Main results

* `Arguments.precedes_of_read`, `Arguments.precedes_of_foldlM`: the states on the way.
* `Options.ofArguments_append`: command lines with arguments appended.
-/

namespace LicenseHeader

/-- What is pending is in order: no name is empty, and a choice of colours comes after no other one
and is one that exists. -/
def Pending.Accepted (colors : Option ColorChoice) : Pending → Prop
  | .nothing => True
  | .files names => ∀ name ∈ names, name ≠ []
  | .colors value => colors = none ∧ ∀ word ∈ value, (ColorChoice.ofBytes? word).isSome = true

namespace Arguments

variable {state settled later : Arguments}

/-! ### States -/

/-- A state in which a command line may end: what is pending is accepted, and it is not asked for
names only together with more detail. -/
structure Acceptable (state : Arguments) : Prop where
  /-- What is pending is accepted. -/
  settles : ∃ settled, state.settle = .ok settled
  /-- The options do not exclude each other. -/
  compatible : ¬(state.quiet = true ∧ state.verbose ≠ 0)

/-- What stands against ending the line in a state stands against it in a later one. -/
structure Precedes (state later : Arguments) : Prop where
  /-- If what is pending later is accepted, so is what is pending. -/
  settles : (∃ settled, later.settle = .ok settled) → ∃ settled, state.settle = .ok settled
  /-- Names only stays asked for. -/
  quiet : state.quiet = true → later.quiet = true
  /-- More detail stays asked for. -/
  verbose : state.verbose ≠ 0 → later.verbose ≠ 0

/-- A state precedes itself. -/
theorem Precedes.refl (state : Arguments) : state.Precedes state := ⟨id, id, id⟩

/-- A state precedes what a later one precedes. -/
theorem Precedes.trans {last : Arguments} (h : state.Precedes later) (h' : later.Precedes last) :
    state.Precedes last :=
  ⟨h.settles ∘ h'.settles, h'.quiet ∘ h.quiet, h'.verbose ∘ h.verbose⟩

/-- A state on the way to an acceptable one is acceptable. -/
theorem Precedes.acceptable (h : state.Precedes later) (hlater : later.Acceptable) :
    state.Acceptable :=
  ⟨h.settles hlater.settles, fun ⟨hquiet, hverbose⟩ =>
    hlater.compatible ⟨h.quiet hquiet, h.verbose hverbose⟩⟩

/-! ### What is pending -/

/-- Setting when output is coloured makes no difference to the other options. -/
theorem eq_of_setColors {value : Option Bytes} (h : state.setColors value = .ok later) :
    later.quiet = state.quiet ∧ later.verbose = state.verbose := by
  simp only [setColors] at h
  split at h
  · exact nomatch h
  split at h
  · obtain rfl := Except.ok.inj h
    exact ⟨rfl, rfl⟩
  split at h
  · obtain rfl := Except.ok.inj h
    exact ⟨rfl, rfl⟩
  · exact nomatch h

/-- When output is coloured can be set once, and to a choice that exists. -/
theorem exists_setColors_iff {value : Option Bytes} :
    (∃ later, state.setColors value = .ok later) ↔
      state.colors = none ∧ ∀ word ∈ value, (ColorChoice.ofBytes? word).isSome = true := by
  rw [setColors.eq_def]
  cases hcolors : state.colors with
  | some choice => simp
  | none =>
      cases value with
      | none => simp
      | some word =>
          cases hchoice : ColorChoice.ofBytes? word <;> simp [hchoice]

/-- Looking at what is pending makes no difference to the options that are recorded. -/
theorem eq_of_settle (h : state.settle = .ok settled) :
    settled.quiet = state.quiet ∧ settled.verbose = state.verbose := by
  simp only [settle] at h
  split at h
  · obtain rfl := Except.ok.inj h
    exact ⟨rfl, rfl⟩
  · split at h
    · exact nomatch h
    · obtain rfl := Except.ok.inj h
      exact ⟨rfl, rfl⟩
  · have hkept := eq_of_setColors h
    exact hkept

/-- What is pending is accepted next to the choice of colours so far. -/
theorem exists_settle_iff :
    (∃ settled, state.settle = .ok settled) ↔ state.pending.Accepted state.colors := by
  rw [settle.eq_def]
  cases state.pending with
  | nothing => exact ⟨fun _ => trivial, fun _ => ⟨state, rfl⟩⟩
  | files names =>
      have hnames : names.any List.isEmpty = false ↔ ∀ name ∈ names, name ≠ [] := by
        simp only [List.any_eq_false, List.isEmpty_iff, ne_eq]
      rw [Pending.Accepted, ← hnames]
      dsimp only
      cases names.any List.isEmpty with
      | false => exact ⟨fun _ => rfl, fun _ => ⟨_, rfl⟩⟩
      | true =>
          constructor
          · rintro ⟨_, hrefused⟩
            exact nomatch hrefused
          · intro hnone
            exact nomatch hnone
  | colors value => exact exists_setColors_iff

/-- Once what is pending has been accepted, options may only be added. -/
theorem Precedes.of_settle (h : state.settle = .ok settled)
    (hquiet : settled.quiet = true → later.quiet = true)
    (hverbose : settled.verbose ≠ 0 → later.verbose ≠ 0) : state.Precedes later := by
  obtain ⟨hquiet', hverbose'⟩ := eq_of_settle h
  rw [hquiet'] at hquiet
  rw [hverbose'] at hverbose
  exact ⟨fun _ => ⟨settled, h⟩, hquiet, hverbose⟩

/-- A command line may end in a state if and only if this is acceptable. -/
theorem exists_finish_iff : (∃ options, state.finish = .ok options) ↔ state.Acceptable := by
  constructor
  · rintro ⟨options, h⟩
    obtain ⟨settled, hsettle, hfinish⟩ := exists_of_bind_eq_ok h
    obtain ⟨hquiet, hverbose⟩ := eq_of_settle hsettle
    refine ⟨⟨settled, hsettle⟩, fun ⟨hq, hv⟩ => ?_⟩
    rw [← hquiet] at hq
    rw [← hverbose] at hv
    simp [hq, hv] at hfinish
  · rintro ⟨⟨settled, hsettle⟩, hcompatible⟩
    obtain ⟨hquiet, hverbose⟩ := eq_of_settle hsettle
    rw [← hquiet, ← hverbose] at hcompatible
    refine ⟨⟨settled.files.reverse, settled.verbose, settled.quiet, settled.colors.getD .auto⟩, ?_⟩
    rw [finish, hsettle]
    have hnot : (settled.quiet && settled.verbose != 0) = false := by
      rw [← Bool.not_eq_true, Bool.and_eq_true, bne_iff_ne]
      exact hcompatible
    exact if_neg (Bool.eq_false_iff.mp hnot)

/-! ### Options -/

/-- Turning a switch adds to the options. -/
theorem precedes_of_turn {switch : Switch} (h : state.turn switch = .ok later) :
    state.Precedes later := by
  obtain ⟨settled, hsettle, hturn⟩ := exists_of_bind_eq_ok h
  cases switch with
  | verbose =>
      obtain rfl := Except.ok.inj hturn
      refine .of_settle hsettle id fun _ => ?_
      exact Nat.pos_iff_ne_zero.mp (Nat.lt_min.mpr ⟨by decide, Nat.succ_pos _⟩)
  | quiet =>
      by_cases hquiet : settled.quiet = true
      · simp [hquiet] at hturn
      · simp only [hquiet, Bool.false_eq_true, if_false, Except.ok.injEq] at hturn
        subst hturn
        exact .of_settle hsettle (fun _ => rfl) id
  | help full => exact nomatch hturn
  | version => exact nomatch hturn

/-- Letters add to the options. Induction on the letters. -/
theorem precedes_of_readLetters {letters : Bytes} (h : state.readLetters letters = .ok later) :
    state.Precedes later := by
  induction letters generalizing state with
  | nil =>
      obtain rfl := Except.ok.inj h
      exact .refl state
  | cons letter letters ih =>
      rw [readLetters] at h
      split at h
      · exact nomatch h
      · split at h
        · exact nomatch h
        · next hturn => exact (precedes_of_turn hturn).trans (ih h)

/-- A long option adds to the options. -/
theorem precedes_of_readLong {written : Bytes} (h : state.readLong written = .ok later) :
    state.Precedes later := by
  simp only [readLong] at h
  split at h
  · obtain ⟨settled, hsettle, hcolors⟩ := exists_of_bind_eq_ok h
    split at hcolors
    · obtain ⟨hquiet, hverbose⟩ := eq_of_setColors hcolors
      exact .of_settle hsettle (hquiet ▸ id) (hverbose ▸ id)
    · obtain rfl := Except.ok.inj hcolors
      exact .of_settle hsettle id id
  · split at h
    · exact nomatch h
    · exact nomatch h
    · exact precedes_of_turn h

/-! ### Names -/

/-- A name is put to those that are pending, or comes when what is pending has been accepted. -/
theorem precedes_of_readName {name : Bytes} (h : state.readName name = .ok later) :
    state.Precedes later := by
  simp only [readName] at h
  split at h
  · next names hpending =>
      obtain rfl := Except.ok.inj h
      refine ⟨fun hlater => ?_, id, id⟩
      -- an empty name among those that are pending stays among them
      have hnames : ∀ other ∈ name :: names, other ≠ [] := exists_settle_iff.mp hlater
      rw [exists_settle_iff, hpending]
      exact (List.forall_mem_cons.mp hnames).2
  · obtain ⟨settled, hsettle, hname⟩ := exists_of_bind_eq_ok h
    obtain rfl := Except.ok.inj hname
    exact .of_settle hsettle id id

/-- A value is put to a choice of colours that has none, or is a name. -/
theorem precedes_of_readValue {value : Bytes} (h : state.readValue value = .ok later) :
    state.Precedes later := by
  simp only [readValue] at h
  split at h
  · next hpending =>
      obtain rfl := Except.ok.inj h
      refine ⟨fun hlater => ?_, id, id⟩
      -- without a value the choice is accepted, unless it is the second one
      obtain ⟨hfirst, -⟩ := exists_settle_iff.mp hlater
      rw [exists_settle_iff, hpending]
      exact ⟨hfirst, nofun⟩
  · exact precedes_of_readName h

/-- That all that follow are names makes no difference to what is pending. -/
theorem precedes_namesOnly : state.Precedes { state with namesOnly := true } := by
  refine ⟨fun hlater => ?_, id, id⟩
  have haccepted := exists_settle_iff.mp hlater
  exact exists_settle_iff.mpr haccepted

/-! ### Command lines -/

/-- **An argument makes up for nothing.** -/
theorem precedes_of_read {argument : Bytes} (h : state.read argument = .ok later) :
    state.Precedes later := by
  rw [read.eq_def] at h
  split at h
  · exact precedes_of_readName h
  split at h
  · obtain rfl := Except.ok.inj h
    exact precedes_namesOnly
  · exact precedes_of_readLong h
  · exact precedes_of_readLetters h
  · exact precedes_of_readValue h

/-- Arguments make up for nothing. Induction on the arguments. -/
theorem precedes_of_foldlM {arguments : List Bytes}
    (h : arguments.foldlM read state = .ok later) : state.Precedes later := by
  induction arguments generalizing state with
  | nil =>
      obtain rfl := Except.ok.inj h
      exact .refl state
  | cons argument arguments ih =>
      obtain ⟨next, hread, hrest⟩ := exists_of_bind_eq_ok h
      exact (precedes_of_read hread).trans (ih hrest)

/-! ### Refusals -/

/-- A choice of colours is refused as the second one, or because it does not exist. -/
theorem setColors_refused {value : Option Bytes} {refusal : Refusal}
    (h : state.setColors value = .error refusal) :
    refusal = .conflict ∨ refusal = .invalidValue := by
  simp only [setColors] at h
  split at h
  · exact .inl (Except.error.inj h).symm
  split at h
  · exact nomatch h
  split at h
  · exact nomatch h
  · exact .inr (Except.error.inj h).symm

/-- What is pending is refused for a choice of colours or an empty name. -/
theorem settle_refused {refusal : Refusal} (h : state.settle = .error refusal) :
    refusal = .conflict ∨ refusal = .invalidValue := by
  simp only [settle] at h
  split at h
  · exact nomatch h
  · split at h
    · exact .inr (Except.error.inj h).symm
    · exact nomatch h
  · exact setColors_refused h

/-- At the end a line is refused for what is pending, or since options exclude each other. -/
theorem finish_refused {refusal : Refusal} (h : state.finish = .error refusal) :
    refusal = .conflict ∨ refusal = .invalidValue := by
  rcases of_bind_eq_error h with hsettle | ⟨settled, -, hfinish⟩
  · exact settle_refused hsettle
  · split at hfinish
    · exact .inl (Except.error.inj hfinish).symm
    · exact nomatch hfinish

end Arguments

/-- Refusals that come up with the argument that they are about, and not late. -/
def Refusal.isFinal : Refusal → Bool
  | .help _ | .version | .tooManyValues | .unknownArgument => true
  | .conflict | .invalidValue => false

/-- A line with arguments appended is read as the line and then as these. -/
theorem Options.ofArguments_eq_bind (arguments more : List Bytes) :
    Options.ofArguments (arguments ++ more) =
      arguments.foldlM Arguments.read .initially >>= fun state =>
        more.foldlM Arguments.read state >>= Arguments.finish := by
  rw [ofArguments, List.foldlM_append]
  cases arguments.foldlM Arguments.read .initially <;> rfl

/-- **What is appended does not repair a command line.** Whatever a line is refused for, it is
refused with any arguments appended, and if it is refused for good, or asks for help or for the
version, then it is answered the same. So whatever is cut off an accepted line, what is left is
accepted. -/
theorem Options.ofArguments_append (arguments more : List Bytes) :
    (∀ refusal, Options.ofArguments arguments = .error refusal →
      ∃ later, Options.ofArguments (arguments ++ more) = .error later ∧
        (refusal.isFinal = true → later = refusal)) ∧
    ∀ options, Options.ofArguments (arguments ++ more) = .ok options →
      ∃ earlier, Options.ofArguments arguments = .ok earlier := by
  have hshorter : ∀ options, Options.ofArguments (arguments ++ more) = .ok options →
      ∃ earlier, Options.ofArguments arguments = .ok earlier := by
    intro options h
    rw [ofArguments_eq_bind] at h
    obtain ⟨state, hstate, hrest⟩ := exists_of_bind_eq_ok h
    obtain ⟨later, hlater, hfinish⟩ := exists_of_bind_eq_ok hrest
    have hacceptable := Arguments.exists_finish_iff.mp ⟨options, hfinish⟩
    obtain ⟨earlier, hearlier⟩ := Arguments.exists_finish_iff.mpr
      ((Arguments.precedes_of_foldlM hlater).acceptable hacceptable)
    refine ⟨earlier, ?_⟩
    rw [ofArguments, hstate]
    exact hearlier
  refine ⟨fun refusal h => ?_, hshorter⟩
  rcases of_bind_eq_error h with hread | ⟨state, hstate, hfinish⟩
  · refine ⟨refusal, ?_, fun _ => rfl⟩
    rw [ofArguments_eq_bind, hread]
    rfl
  · cases hwhole : Options.ofArguments (arguments ++ more) with
    | ok options =>
        obtain ⟨earlier, hearlier⟩ := hshorter options hwhole
        rw [h] at hearlier
        exact nomatch hearlier
    | error later =>
        refine ⟨later, rfl, fun hfinal => ?_⟩
        rcases Arguments.finish_refused hfinish with rfl | rfl <;> exact nomatch hfinal

/-- A value that does not exist is not made good, though an option that does not exist is found
first; what asks for help goes on doing so; and a line may be cut in front of a value. -/
theorem Options.ofArguments_append_of_cut_value :
    (∃ later, Options.ofArguments (["--colors", "x"].map Bytes.ofString ++
      ["--nope"].map Bytes.ofString) = .error later) ∧
    Options.ofArguments (["-vh"].map Bytes.ofString ++ ["--nope"].map Bytes.ofString) =
      .error (.help false) ∧
    ∃ earlier, Options.ofArguments (["-v", "--colors"].map Bytes.ofString) = .ok earlier := by
  have hvalue : Options.ofArguments (["--colors", "x"].map Bytes.ofString) =
      .error .invalidValue := rfl
  have hhelp : Options.ofArguments (["-vh"].map Bytes.ofString) = .error (.help false) := rfl
  have haccepted : Options.ofArguments (["-v", "--colors"].map Bytes.ofString ++
      ["never", "a.rs"].map Bytes.ofString) = .ok ⟨[Bytes.ofString "a.rs"], 1, false, .never⟩ := rfl
  obtain ⟨later, hlater, -⟩ := (Options.ofArguments_append _ _).1 _ hvalue
  obtain ⟨other, hother, hsame⟩ := (Options.ofArguments_append _ _).1 _ hhelp
  refine ⟨⟨later, hlater⟩, ?_, (Options.ofArguments_append _ _).2 _ haccepted⟩
  rw [hother, hsame rfl]

end LicenseHeader
