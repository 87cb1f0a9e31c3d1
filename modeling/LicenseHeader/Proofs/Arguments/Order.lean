import LicenseHeader.Proofs.Arguments.Request

/-!
# The order of arguments

Options and file names may be mixed on the command line, and the options may come in any
order. What the line is answered depends on the request of its arguments alone, and so the
order makes no difference (`Options.ofArguments_of_interleaved`).

Reading goes from left to right, and names are left pending meanwhile. The invariant is that a
state has recorded a request: it has the counts of the request, in which nothing is asked for
twice, and its files, the last of which may be pending (`Arguments.Records`). Each kind of
argument has a lemma that adds its request, or finds that something is asked for twice, after
which the line is refused whatever follows (`Arguments.Reaches`). The run over a line is an
induction along the way in which options and names are interleaved.

## Main definitions

* `Arguments.Records`: a state of the reading that has recorded a request.
* `Arguments.Reaches`: what reading has come to.

## Main results

* `Arguments.Records.read_interleaved`: reading an interleaving of options and names.
* `Options.ofArguments_of_interleaved`: the answer to a command line in any order.
-/

namespace LicenseHeader

/-! ### States -/

namespace Arguments

/-- A state with the counts of a request. -/
def counting (request : Request) (namesOnly : Bool) (files : List Bytes) (pending : Pending) :
    Arguments :=
  ⟨files, min mostVerbose request.verbose, decide (0 < request.quiet), request.colors.head?,
    pending, namesOnly⟩

/-- The state after a request, with nothing pending. -/
def after (request : Request) (namesOnly : Bool) : Arguments :=
  counting request namesOnly request.files.reverse .nothing

/-- A state has recorded a request that does not ask for anything twice, up to names that are
pending. -/
inductive Records (namesOnly : Bool) (request : Request) : Arguments → Prop
  /-- Nothing is pending. -/
  | settled (honce : request.Once) : Records namesOnly request (after request namesOnly)
  /-- The last names are pending. -/
  | pending {names files : List Bytes} (honce : request.Once) (hnames : ∀ name ∈ names, name ≠ [])
      (hfiles : names ++ files = request.files.reverse) :
      Records namesOnly request (counting request namesOnly files (.files names))

/-- Reading has recorded a request, or has found that something is asked for twice. -/
inductive Reaches (namesOnly : Bool) (request : Request) : Except Refusal Arguments → Prop
  /-- The request is recorded. -/
  | records {state : Arguments} (h : Records namesOnly request state) :
      Reaches namesOnly request (.ok state)
  /-- The request is refused. -/
  | conflict (htwice : ¬request.Once) : Reaches namesOnly request (.error .conflict)

variable {state : Arguments} {namesOnly : Bool} {request more : Request}

/-- Steps in a row add their requests. -/
theorem Reaches.bind {namesOnly' : Bool} {result : Except Refusal Arguments}
    {next : Arguments → Except Refusal Arguments} (h : Reaches namesOnly request result)
    (hnext : ∀ state : Arguments, Records namesOnly request state →
      Reaches namesOnly' (request ++ more) (next state)) :
    Reaches namesOnly' (request ++ more) (result >>= next) := by
  cases h with
  | @records state hrecords => exact hnext state hrecords
  | conflict htwice => exact .conflict fun honce => htwice honce.of_append

/-- A request that is recorded asks for nothing twice. -/
theorem Records.once (h : Records namesOnly request state) : request.Once := by
  cases h with
  | settled honce => exact honce
  | pending honce => exact honce

/-- Looking at the pending names leads to the state after the request. -/
theorem Records.settle (h : Records namesOnly request state) :
    state.settle = .ok (after request namesOnly) := by
  cases h with
  | settled => rfl
  | @pending names files _ hnames hfiles =>
      have hnone : names.any List.isEmpty = false := by
        rw [List.any_eq_false]
        intro name hname
        rw [List.isEmpty_iff]
        exact hnames name hname
      simp only [Arguments.settle, counting, hnone, Bool.false_eq_true, if_false]
      rw [hfiles]
      rfl

/-- Whether all that follow are names. -/
theorem Records.namesOnly_eq (h : Records namesOnly request state) :
    state.namesOnly = namesOnly := by
  cases h <;> rfl

/-! ### Options -/

/-- Turning a switch is turning it when the pending names have been looked at. -/
theorem Records.turn_eq (h : Records namesOnly request state) (switch : Switch) :
    state.turn switch = (after request namesOnly).turn switch := by
  simp only [Arguments.turn, h.settle]
  rfl

/-- More detail may be asked for again. -/
theorem Records.turn_verbose (h : Records namesOnly request state) :
    Reaches namesOnly (request ++ .ofLetters [.verbose]) (state.turn .verbose) := by
  have hcount : min mostVerbose (min mostVerbose request.verbose + 1) =
      min mostVerbose (request.verbose + 1) := by omega
  have hmore : (after request namesOnly).turn .verbose =
      .ok (after (request ++ .ofLetters [.verbose]) namesOnly) := by
    simp [Arguments.turn, Arguments.settle, after, counting, Request.ofLetters, hcount, bind,
      Except.bind]
  rw [h.turn_eq, hmore]
  exact .records (.settled (h.once.append rfl rfl))

/-- Names only may be asked for once. -/
theorem Records.turn_quiet (h : Records namesOnly request state) :
    Reaches namesOnly (request ++ .ofLetters [.quiet]) (state.turn .quiet) := by
  rw [h.turn_eq]
  by_cases hquiet : request.quiet = 0
  · have hmore : (after request namesOnly).turn .quiet =
        .ok (after (request ++ .ofLetters [.quiet]) namesOnly) := by
      simp [Arguments.turn, Arguments.settle, after, counting, Request.ofLetters, hquiet, bind,
        Except.bind]
    rw [hmore]
    refine .records (.settled ⟨?_, ?_⟩)
    · rw [Request.quiet_append, hquiet]
      exact Nat.le_refl 1
    · rw [Request.colors_append, Request.colors_ofLetters, List.append_nil]
      exact h.once.2
  · have hpos : 0 < request.quiet := Nat.pos_of_ne_zero hquiet
    have hrefused : (after request namesOnly).turn .quiet = .error .conflict := by
      simp [Arguments.turn, Arguments.settle, after, counting, hpos, bind, Except.bind]
    rw [hrefused]
    refine .conflict fun honce => ?_
    have htwice : request.quiet + 1 ≤ 1 := honce.1
    omega

/-- Turning the switch of a letter adds what the letter asks for. -/
theorem Records.turn (h : Records namesOnly request state) (letter : OptionLetter) :
    Reaches namesOnly (request ++ .ofLetters [letter]) (state.turn letter.switch) := by
  cases letter with
  | verbose => exact h.turn_verbose
  | quiet => exact h.turn_quiet

/-- Letters that share a hyphen are read one after the other. -/
theorem readLetters_cons (state : Arguments) (letter : OptionLetter) (letters : Bytes) :
    state.readLetters (letter.byte :: letters) =
      state.turn letter.switch >>= fun state => state.readLetters letters := by
  have hletter : Switch.ofLetter? letter.byte = some letter.switch := by
    cases letter <;> rfl
  rw [readLetters]
  simp only [hletter]
  cases state.turn letter.switch <;> rfl

/-- Reading letters adds what they ask for. Induction on the letters. -/
theorem Records.readLetters (h : Records namesOnly request state)
    (letters : List OptionLetter) :
    Reaches namesOnly (request ++ .ofLetters letters)
      (state.readLetters (letters.map OptionLetter.byte)) := by
  induction letters generalizing state request with
  | nil =>
      rw [Request.append_empty]
      exact .records h
  | cons letter letters ih =>
      have hsum : Request.ofLetters (letter :: letters) =
          .ofLetters [letter] ++ .ofLetters letters := Request.ofLetters_append [letter] letters
      rw [List.map_cons, readLetters_cons, hsum, ← Request.append_assoc]
      exact (h.turn letter).bind fun after hafter => ih hafter

/-- Setting a choice of colours adds it. -/
theorem Records.setColors (h : Records namesOnly request state) (choice : ColorChoice) :
    Reaches namesOnly (request ++ ⟨[], 0, 0, [choice]⟩)
      (state.settle >>= fun state => state.setColors (some choice.word)) := by
  have hread : ColorChoice.ofBytes? choice.word = some choice := by
    cases choice <;> rfl
  have hset : (state.settle >>= fun state => state.setColors (some choice.word)) =
      (after request namesOnly).setColors (some choice.word) := by
    rw [h.settle]
    rfl
  rw [hset]
  cases hcolors : request.colors with
  | nil =>
      have hmore : (after request namesOnly).setColors (some choice.word) =
          .ok (after (request ++ ⟨[], 0, 0, [choice]⟩) namesOnly) := by
        simp [Arguments.setColors, after, counting, hcolors, hread]
      rw [hmore]
      refine .records (.settled ⟨h.once.1, ?_⟩)
      rw [Request.colors_append, hcolors]
      exact Nat.le_refl 1
  | cons earlier others =>
      have hrefused : (after request namesOnly).setColors (some choice.word) =
          .error .conflict := by
        simp [Arguments.setColors, after, counting, hcolors]
      rw [hrefused]
      refine .conflict fun honce => ?_
      have htwice : (request.colors ++ [choice]).length ≤ 1 := honce.2
      rw [hcolors, List.length_append, List.length_cons, List.length_singleton] at htwice
      omega

/-- Unless all that follow are names, two hyphens and more are a long option. -/
theorem read_long (h : state.namesOnly = false) (b : UInt8) (long : Bytes) :
    state.read (0x2D :: 0x2D :: b :: long) = state.readLong (b :: long) := by
  rw [read.eq_def, h]
  rfl

/-- Reading an option adds what it asks for. -/
theorem Records.read_option (h : Records false request state) (option : OptionArgument) :
    Reaches false (request ++ .of [option] []) (state.read option.written) := by
  rw [Request.of_singleton]
  cases option with
  | long letter =>
      have hread : state.read (OptionArgument.long letter).written =
          state.turn letter.switch := by
        cases letter <;> exact read_long h.namesOnly_eq _ _
      rw [hread]
      exact h.turn letter
  | colors choice =>
      have hread : state.read (OptionArgument.colors choice).written =
          state.settle >>= fun state => state.setColors (some choice.word) := by
        cases choice <;> exact read_long h.namesOnly_eq _ _
      rw [hread]
      exact h.setColors choice
  | short first others =>
      have hread : state.read (OptionArgument.short first others).written =
          state.readLetters ((first :: others).map OptionLetter.byte) := by
        rw [read.eq_def, h.namesOnly_eq]
        cases first <;> rfl
      rw [hread]
      exact h.readLetters (first :: others)

/-! ### Names -/

/-- Names make no difference to the counts. -/
theorem counting_append_names (request : Request) (namesOnly : Bool) (names : List Bytes) :
    counting (request ++ .of [] names) namesOnly = counting request namesOnly := by
  funext files pending
  rw [counting, counting, Request.colors_append]
  exact congrArg (fun colors : List ColorChoice => Arguments.mk files _ _ colors.head? _ _)
    (List.append_nil request.colors)

/-- Reading a file name adds it. -/
theorem Records.readName (h : Records namesOnly request state) {name : Bytes}
    (hname : name ≠ []) :
    Reaches namesOnly (request ++ .of [] [name]) (state.readName name) := by
  have honce : (request ++ .of [] [name]).Once := h.once.append rfl rfl
  have hfiles' : (request ++ .of [] [name]).files.reverse = name :: request.files.reverse :=
    List.reverse_append
  cases h with
  | settled =>
      have hread : (after request namesOnly).readName name =
          .ok (counting request namesOnly request.files.reverse (.files [name])) := rfl
      rw [hread, ← counting_append_names request namesOnly [name]]
      refine .records (.pending honce ?_ ?_)
      · exact List.forall_mem_singleton.mpr hname
      · exact hfiles'.symm
  | @pending names files _ hnames hfiles =>
      have hread : (counting request namesOnly files (.files names)).readName name =
          .ok (counting request namesOnly files (.files (name :: names))) := rfl
      rw [hread, ← counting_append_names request namesOnly [name]]
      refine .records (.pending honce ?_ ?_)
      · exact List.forall_mem_cons.mpr ⟨hname, hnames⟩
      · rw [hfiles', List.cons_append, hfiles]

/-- Reading a file name in between options adds it. -/
theorem Records.read_file (h : Records false request state) {file : Bytes}
    (hfile : IsFileArgument file) :
    Reaches false (request ++ .of [] [file]) (state.read file) := by
  have hread : state.read file = state.readValue file := by
    rw [read.eq_def, h.namesOnly_eq]
    rcases hfile with rfl | ⟨b, rest, rfl, hb⟩
    · rfl
    · simp [hb]
  have hvalue : state.readValue file = state.readName file := by
    cases h <;> rfl
  have hname : file ≠ [] := by
    rcases hfile with rfl | ⟨b, rest, rfl, -⟩ <;> exact List.cons_ne_nil _ _
  rw [hread, hvalue]
  exact h.readName hname

/-- Behind two hyphens reading adds names, whatever they look like. Induction on the names. -/
theorem Records.read_names (h : Records true request state) {names : List Bytes}
    (hnames : ∀ name ∈ names, name ≠ []) :
    Reaches true (request ++ .of [] names) (names.foldlM read state) := by
  induction names generalizing state request with
  | nil =>
      have hsum : Request.of [] [] = .ofLetters [] := rfl
      rw [hsum, Request.append_empty]
      exact .records h
  | cons name names ih =>
      obtain ⟨hname, hothers⟩ := List.forall_mem_cons.mp hnames
      have hread : state.read name = state.readName name := by
        rw [read.eq_def, if_pos h.namesOnly_eq]
      have hsum : Request.of [] (name :: names) = .of [] [name] ++ .of [] names :=
        Request.of_append [] [] [name] names
      rw [List.foldlM_cons, hread, hsum, ← Request.append_assoc]
      exact (h.readName hname).bind fun after hafter => ih hafter hothers

/-! ### Whole lines -/

/-- **Reading an interleaving of options and names** adds what all of them ask for. Induction
along the interleaving: the argument that comes next is an option or a name. -/
theorem Records.read_interleaved {written files words : List Bytes}
    (hwords : Interleaved written files words) (h : Records false request state)
    {options : List OptionArgument}
    (hwritten : written = options.map OptionArgument.written)
    (hfiles : ∀ file ∈ files, IsFileArgument file) :
    Reaches false (request ++ .of options files) (words.foldlM read state) := by
  induction hwords generalizing state request options with
  | nil =>
      obtain rfl := List.map_eq_nil_iff.mp hwritten.symm
      have hsum : Request.of [] [] = .ofLetters [] := rfl
      rw [hsum, Request.append_empty]
      exact .records h
  | @left written files words argument _ ih =>
      obtain ⟨option, others, rfl, rfl, hothers⟩ := List.map_eq_cons_iff.mp hwritten.symm
      have hsum : Request.of (option :: others) files = .of [option] [] ++ .of others files :=
        Request.of_append [option] others [] files
      rw [List.foldlM_cons, hsum, ← Request.append_assoc]
      exact (h.read_option option).bind fun after hafter => ih hafter hothers.symm hfiles
  | @right written files words file _ ih =>
      obtain ⟨hfile, hothers⟩ := List.forall_mem_cons.mp hfiles
      have hsum : Request.of options (file :: files) = .of [] [file] ++ .of options files :=
        Request.of_append [] options [file] files
      rw [List.foldlM_cons, hsum, ← Request.append_assoc]
      exact (h.read_file hfile).bind fun after hafter => ih hafter hwritten hothers

/-- Two hyphens alone add nothing, and make names of all that follow. -/
theorem Records.read_separator (h : Records false request state) :
    Reaches true request (state.read [0x2D, 0x2D]) := by
  have hread : state.read [0x2D, 0x2D] = .ok { state with namesOnly := true } := by
    rw [read.eq_def, h.namesOnly_eq]
    rfl
  rw [hread]
  cases h with
  | settled honce => exact .records (.settled honce)
  | pending honce hnames hfiles => exact .records (.pending honce hnames hfiles)

/-- At the end of the line the request is answered. -/
theorem Reaches.finish {result : Except Refusal Arguments}
    (h : Reaches namesOnly request result) : result >>= Arguments.finish = request.answer := by
  cases h with
  | @records state hrecords =>
      have hfinish : state.finish =
          if decide (0 < request.quiet) && min mostVerbose request.verbose != 0 then
            .error .conflict
          else
            .ok ⟨request.files.reverse.reverse, min mostVerbose request.verbose,
              decide (0 < request.quiet), request.colors.head?.getD .auto⟩ := by
        simp only [Arguments.finish, hrecords.settle]
        rfl
      have hexcluded : (decide (0 < request.quiet) &&
          min mostVerbose request.verbose != 0) = true ↔
            0 < request.quiet ∧ 0 < request.verbose := by
        rw [Bool.and_eq_true, decide_eq_true_iff, bne_iff_ne, mostVerbose]
        omega
      change state.finish = request.answer
      rw [hfinish, Request.answer, List.reverse_reverse]
      by_cases hboth : 0 < request.quiet ∧ 0 < request.verbose
      · rw [if_pos (hexcluded.mpr hboth), if_pos (.inr (.inr hboth))]
      · obtain ⟨hquiet, hcolors⟩ := hrecords.once
        rw [if_neg (mt hexcluded.mp hboth), if_neg (by omega)]
        rfl
  | conflict htwice =>
      have hmore : 1 < request.quiet ∨ 1 < request.colors.length := by
        rw [Request.Once] at htwice
        omega
      rw [Request.answer, if_pos (by omega)]
      rfl

end Arguments

/-- **The order of options and names makes no difference.** Let options come in any order,
mixed with file names in theirs, alone or with two hyphens and more names behind them, which
may look like options. The command line is refused with a conflict if names only is asked for
twice, or colours are, or names only together with more detail. Otherwise its options are the
files as they stand there, the count of more detail up to 255, whether names only is asked for,
and the choice of colours. An accepted line never has both names only and more detail. -/
theorem Options.ofArguments_of_interleaved {options ordered : List OptionArgument}
    (hordered : ordered.Perm options) {files words : List Bytes}
    (hwords : Interleaved (ordered.map OptionArgument.written) files words)
    (hfiles : ∀ file ∈ files, IsFileArgument file) {names tail : List Bytes}
    (hnames : ∀ name ∈ names, name ≠ [])
    (htail : tail = [] ∧ names = [] ∨ tail = [0x2D, 0x2D] :: names) :
    Options.ofArguments (words ++ tail) = (Request.of options (files ++ names)).answer ∧
      ∀ accepted, Options.ofArguments (words ++ tail) = .ok accepted →
        ¬(accepted.quiet = true ∧ 0 < accepted.verbose) := by
  have hbegin : Arguments.Records false (.ofLetters []) .initially :=
    .settled ⟨Nat.zero_le 1, Nat.zero_le 1⟩
  have hread := hbegin.read_interleaved hwords rfl hfiles
  rw [Request.empty_append] at hread
  have hanswer : Options.ofArguments (words ++ tail) =
      (Request.of options (files ++ names)).answer := by
    rw [← Request.answer_of_perm hordered]
    rcases htail with ⟨rfl, rfl⟩ | rfl
    · rw [List.append_nil, List.append_nil]
      exact hread.finish
    · have hsum : Request.of ordered (files ++ names) =
          .of ordered files ++ .of [] names := by
        have happend := Request.of_append ordered [] files names
        rw [List.append_nil] at happend
        exact happend
      have hwhole : Arguments.Reaches true (.of ordered files ++ .of [] names)
          ((words ++ [0x2D, 0x2D] :: names).foldlM Arguments.read .initially) := by
        rw [List.foldlM_append]
        refine hread.bind fun state hstate => ?_
        rw [List.foldlM_cons]
        exact hstate.read_separator.bind fun behind hbehind => hbehind.read_names hnames
      rw [hsum]
      exact hwhole.finish
  refine ⟨hanswer, fun accepted haccepted => ?_⟩
  exact Request.not_quiet_and_verbose (hanswer.symm.trans haccepted)

/-- Three options and two names in two orders, with a third name that looks like an option, are
answered alike; names only and more detail are refused. -/
theorem Options.ofArguments_of_interleaved_of_two_orders :
    let accepted : Options :=
      ⟨["a.rs", "-", "--quiet"].map Bytes.ofString, 3, false, .never⟩
    Options.ofArguments (["a.rs", "-vv", "-", "--colors=never", "--verbose"].map Bytes.ofString ++
        ["--", "--quiet"].map Bytes.ofString) = .ok accepted ∧
      Options.ofArguments (["--verbose", "--colors=never", "a.rs", "-vv", "-"].map Bytes.ofString ++
        ["--", "--quiet"].map Bytes.ofString) = .ok accepted ∧
      Options.ofArguments (["-q", "a.rs", "-v"].map Bytes.ofString ++ []) = .error .conflict := by
  intro accepted
  have hname : IsFileArgument (Bytes.ofString "a.rs") := .inr ⟨0x61, _, rfl, by decide⟩
  have hfiles : ∀ file ∈ ["a.rs", "-"].map Bytes.ofString, IsFileArgument file := by
    intro file hfile
    rcases List.mem_cons.mp hfile with rfl | hfile
    · exact hname
    · exact .inl (List.mem_singleton.mp hfile)
  have hnames : ∀ name ∈ ["--quiet"].map Bytes.ofString, name ≠ [] := by decide
  have hfirst : Interleaved ([.short .verbose [.verbose], .colors .never,
      .long .verbose].map OptionArgument.written) (["a.rs", "-"].map Bytes.ofString)
      (["a.rs", "-vv", "-", "--colors=never", "--verbose"].map Bytes.ofString) :=
    .right _ (.left _ (.right _ (.left _ (.left _ .nil))))
  have hsecond : Interleaved ([.long .verbose, .colors .never,
      .short .verbose [.verbose]].map OptionArgument.written) (["a.rs", "-"].map Bytes.ofString)
      (["--verbose", "--colors=never", "a.rs", "-vv", "-"].map Bytes.ofString) :=
    .left _ (.left _ (.right _ (.left _ (.right _ .nil))))
  have hthird : Interleaved ([.short .quiet [], .short .verbose []].map OptionArgument.written)
      (["a.rs"].map Bytes.ofString) (["-q", "a.rs", "-v"].map Bytes.ofString) :=
    .left _ (.right _ (.left _ .nil))
  have hordered : [OptionArgument.long .verbose, .colors .never,
      .short .verbose [.verbose]].Perm [.short .verbose [.verbose], .colors .never,
        .long .verbose] := by decide
  refine ⟨(Options.ofArguments_of_interleaved (.refl _) hfirst hfiles hnames (.inr rfl)).1,
    (Options.ofArguments_of_interleaved hordered hsecond hfiles hnames (.inr rfl)).1,
    (Options.ofArguments_of_interleaved (.refl _) hthird ?_ (List.forall_mem_nil _)
      (.inl ⟨rfl, rfl⟩)).1⟩
  exact List.forall_mem_singleton.mpr hname

end LicenseHeader
