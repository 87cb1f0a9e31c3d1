import LicenseHeader.Proofs.Check.Window
import LicenseHeader.Proofs.Detection.Settled

/-!
# What stands behind the deciding line

Detection among the lines of a reader stops at a line, and what the reader would have met
behind this line has no bearing on the outcome, be it data, failures or an end of input.
There is one exception. In the universal style a carriage return may be the first half of an
ending, so where the input has come to it the reader looks for a line feed at once. If the
carriage return is the last byte that has arrived, this look is up to what comes next: bytes
and an end of input leave the line as it is, but a failure takes its place.

A line is *closed* if reading it does not depend on what follows: it has an ending, and this
is not a carriage return at the end of the content. Two readers that deliver the same content
keep pace as long as its lines are closed, whatever they meet behind it
(`Reader.SameContent.lockstep`); and detection needs no more pace than it makes pulls.

## Main definitions

* `Event.hardFailure?`: the failure that a look for another byte meets.
* `LineStyle.Closes`: lines that are closed.
* `Config.StopsAt`: the line at which detection stops.

## Main results

* `Reader.Delivers.next_of_last_return`: the look behind a carriage return.
* `Config.detectRead_append`: outcomes with different continuations.
-/

namespace LicenseHeader

/-- The failure that a look for another byte meets: it comes before any bytes and any end of
input. Interruptions do not count. -/
def Event.hardFailure? : List Event → Option Failure
  | .failure e :: events => if e.isInterruption then hardFailure? events else some e
  | _ => none

/-- Waiting for bytes hands back that failure. -/
theorem Reader.await_fst (consumed : Nat) (events : List Event) :
    (Reader.await consumed events).1 = Event.hardFailure? events := by
  induction events with
  | nil => rfl
  | cons event events ih =>
      cases event with
      | data bytes => rfl
      | failure failure =>
          rw [await, Event.hardFailure?]
          split
          · exact ih
          · rfl
      | ended => rfl

/-- Skipping a byte hands back a failure to wait for it. -/
theorem Reader.skip_fst (b : UInt8) (reader : Reader) :
    (reader.skip b).1 = reader.fill.1 := by
  rw [skip]
  rcases reader.fill with ⟨_ | failure, after⟩
  · simp only
    split
    · split <;> rfl
    · rfl
  · rfl

/-! ### Closed lines -/

/-- The first lines, so many of them, are closed: each has an ending, and a carriage return
that may be half an ending has a line behind it. -/
def LineStyle.Closes (style : LineStyle) (count : Nat) (lines : List RawLine) : Prop :=
  ∀ k < count, ∃ line, lines[k]? = some line ∧ line.ending ≠ [] ∧
    (style = .universal → line.ending = [carriageReturn] → k + 1 < lines.length)

section Closes

variable {style : LineStyle} {count : Nat} {line : RawLine} {lines : List RawLine}

/-- Behind a closed line so many fewer are closed. -/
theorem LineStyle.Closes.tail (h : style.Closes (count + 1) (line :: lines)) :
    style.Closes count lines := by
  intro k hk
  obtain ⟨other, hother, hended, hlone⟩ := h (k + 1) (Nat.succ_lt_succ hk)
  refine ⟨other, hother, hended, fun hstyle hreturn => ?_⟩
  exact Nat.lt_of_succ_lt_succ (hlone hstyle hreturn)

/-- One more line is closed. -/
theorem LineStyle.Closes.succ (h : style.Closes count lines) (hline : lines[count]? = some line)
    (hended : line.ending ≠ [])
    (hlone : style = .universal → line.ending = [carriageReturn] → count + 1 < lines.length) :
    style.Closes (count + 1) lines := by
  intro k hk
  rcases Nat.lt_succ_iff_lt_or_eq.mp hk with hlt | rfl
  · exact h k hlt
  · exact ⟨line, hline, hended, hlone⟩

/-- No lines are closed. -/
theorem LineStyle.closes_zero (style : LineStyle) (lines : List RawLine) :
    style.Closes 0 lines := by
  intro k hk
  exact absurd hk (Nat.not_lt_zero k)

/-- A line in front of others is closed if it has an ending. -/
theorem LineStyle.Closes.cons (h : style.Closes count lines) (hended : line.ending ≠ [])
    (hne : lines ≠ []) : style.Closes (count + 1) (line :: lines) := by
  intro k hk
  cases k with
  | zero =>
      refine ⟨line, rfl, hended, fun _ _ => ?_⟩
      exact Nat.succ_lt_succ (List.length_pos_iff.mpr hne)
  | succ k =>
      obtain ⟨other, hother, hended', hlone⟩ := h k (Nat.lt_of_succ_lt_succ hk)
      refine ⟨other, hother, hended', fun hstyle hreturn => ?_⟩
      exact Nat.succ_lt_succ (hlone hstyle hreturn)

/-- All lines of a content but the last one are closed. -/
theorem LineStyle.closes_of_lt {content : Bytes} (h : count < (style.split content).length) :
    style.Closes count (style.split content) := by
  induction content using @line_induction style generalizing count with
  | clean content hclean =>
      obtain rfl : count = 0 := by
        rw [split_of_clean hclean] at h
        split at h
        · exact absurd h (Nat.not_lt_zero count)
        · exact Nat.lt_one_iff.mp h
      exact closes_zero style _
  | first content line rest hfirst ih =>
      rw [hfirst.split] at h ⊢
      cases count with
      | zero => exact closes_zero style _
      | succ count =>
          have hlt := Nat.lt_of_succ_lt_succ h
          have hne : style.split rest ≠ [] :=
            List.length_pos_iff.mp (Nat.lt_of_le_of_lt (Nat.zero_le count) hlt)
          exact (ih hlt).cons hfirst.ending_ne_nil hne

end Closes

/-! ### Readers with the same content -/

/-- Two readers have consumed as many bytes and are about to deliver the same content, whose
first lines are closed. What they meet behind it may differ. -/
def Reader.SameContent (style : LineStyle) (later later' : List Event) (count : Nat)
    (reader reader' : Reader) : Prop :=
  ∃ content, reader.Delivers content later ∧ reader'.Delivers content later' ∧
    style.Closes count (style.split content) ∧ reader.consumed = reader'.consumed

/-- A content with a closed line has a first line, and the rest has one closed line less. -/
theorem LineStyle.Closes.firstLine {style : LineStyle} {content : Bytes} {count : Nat}
    (h : style.Closes (count + 1) (style.split content)) :
    ∃ line rest, FirstLine style content line rest ∧ style.Closes count (style.split rest) ∧
      (style = .universal → line.ending = [carriageReturn] → rest ≠ []) := by
  rcases style.clean_or_firstLine content with hclean | ⟨line, rest, hfirst⟩
  · obtain ⟨line, hline, hended, -⟩ := h 0 (Nat.succ_pos count)
    rw [split_of_clean hclean] at hline
    split at hline
    · exact absurd hline (by simp)
    · obtain rfl := Option.some.inj hline
      exact absurd rfl hended
  · rw [hfirst.split] at h
    refine ⟨line, rest, hfirst, h.tail, fun hstyle hreturn hnil => ?_⟩
    obtain ⟨other, hother, -, hlone⟩ := h 0 (Nat.succ_pos count)
    obtain rfl := Option.some.inj hother
    have hlength := hlone hstyle hreturn
    rw [hnil, split_of_clean (List.forall_mem_nil _), if_pos rfl] at hlength
    exact absurd hlength (Nat.lt_irrefl 1)

/-- Readers with the same content keep pace as long as its lines are closed. -/
theorem Reader.SameContent.lockstep (style : LineStyle) (later later' : List Event) :
    Lockstep Eq (Reader.next style) (Reader.next style)
      (Reader.SameContent style later later') := by
  rintro count reader reader' ⟨content, hdelivers, hdelivers', hcloses, hconsumed⟩
  obtain ⟨line, rest, hfirst, hrest, hlone⟩ := hcloses.firstLine
  obtain ⟨after, hnext, hafter, hbytes⟩ :=
    hfirst.takes hdelivers fun hstyle hreturn hnil => absurd hnil (hlone hstyle hreturn)
  obtain ⟨after', hnext', hafter', hbytes'⟩ :=
    hfirst.takes hdelivers' fun hstyle hreturn hnil => absurd hnil (hlone hstyle hreturn)
  rw [hnext, hnext']
  exact ⟨.some (Agree.refl _), rest, hafter, hafter', hrest, by rw [hbytes, hbytes', hconsumed]⟩

/-- After some calls that take closed lines off, the next call is one to a reader that
delivers the other lines. -/
theorem Reader.Delivers.nthPull_next {style : LineStyle} {reader : Reader} {content : Bytes}
    {later : List Event} {count : Nat} (h : reader.Delivers content later)
    (hcloses : style.Closes count (style.split content)) :
    ∃ after : Reader, nthPull (Reader.next style) count reader = after.next style ∧
      after.Delivers (((style.split content).drop count).flatMap RawLine.bytes) later := by
  induction count generalizing reader content with
  | zero =>
      refine ⟨reader, rfl, ?_⟩
      rw [List.drop_zero, style.flatMap_bytes_split]
      exact h
  | succ count ih =>
      obtain ⟨line, rest, hfirst, hrest, hlone⟩ := hcloses.firstLine
      obtain ⟨after, hnext, hafter, -⟩ :=
        hfirst.takes h fun hstyle hreturn hnil => absurd hnil (hlone hstyle hreturn)
      rw [nthPull, hnext, hfirst.split, List.drop_succ_cons]
      exact ih hafter hrest

/-- **The look behind a carriage return.** Where a line ends at a carriage return that is the
last byte of the content, a failure that comes next takes its place, and anything else leaves
it as it is. -/
theorem Reader.Delivers.next_of_last_return {reader : Reader} {line : RawLine}
    {later : List Event} (h : reader.Delivers line.bytes later)
    (hsplit : LineStyle.universal.split line.bytes = [line])
    (hreturn : line.ending = [carriageReturn]) :
    (reader.next .universal).1 =
      match Event.hardFailure? later with
      | some failure => some (.error failure)
      | none => some (line.decode .universal) := by
  obtain ⟨text, ending⟩ := line
  obtain rfl : ending = [carriageReturn] := hreturn
  have hclean : LineStyle.universal.Clean text := by
    rcases LineStyle.universal.clean_or_firstLine (text ++ [carriageReturn]) with
      hclean | ⟨line, rest, hfirst⟩
    · exact fun b hb => hclean b (List.mem_append_left _ hb)
    · have hsplit' := hfirst.split.symm.trans hsplit
      rw [List.cons.injEq] at hsplit'
      obtain ⟨rfl, -⟩ := hsplit'
      generalize hwhole : text ++ [carriageReturn] = content at hfirst
      cases hfirst with
      | lone hclean => exact hclean
  obtain ⟨after, htake, hafter, -⟩ := h.takeUntil_of_stop hclean rfl
  have hskip : (after.skip lineFeed).1 = Event.hardFailure? later := by
    rw [hafter.skip_nil, Reader.skip_fst]
    exact Reader.await_fst after.consumed later
  simp only [next, htake, endUniversal, if_pos]
  rw [← hskip]
  rcases after.skip lineFeed with ⟨_ | failure, after⟩ <;> rfl

/-! ### Detection with a continuation -/

/-- Detection among the lines of a script's content stops at one of them: it pulls this line
last, which has an ending, and it is settled then or has filled its window. -/
structure Config.StopsAt (config : Config) (style : LineStyle) (script : List Event)
    (content : Bytes) (line : RawLine) : Prop where
  /-- The line is the last one that is pulled. -/
  last : ∃ before, (config.detectRead style (.ofEvents script)).pulled = before + 1 ∧
    (style.split content)[before]? = some line
  /-- The line has an ending. -/
  ended : line.ending ≠ []
  /-- Detection did not stop for want of lines. -/
  stopped : (config.detectRead style (.ofEvents script)).Settled ∨
    (config.detectRead style (.ofEvents script)).pulled = config.window

section Continuation

variable {config : Config} {style : LineStyle} {script : List Event} {content : Bytes}
  {line : RawLine}

/-- Where the line is closed, no continuation matters. -/
theorem Config.StopsAt.agrees (hstops : config.StopsAt style script content line)
    (h : Event.Delivers script content)
    (hlone : style = .universal → line.ending = [carriageReturn] →
      config.bytesPulled style script content ≠ content) (later : List Event) :
    (config.detectRead style (.ofEvents (script ++ later))).Agrees Eq
      (fun reader reader' => ∃ count, Reader.SameContent style later [] count reader reader')
      (config.detectRead style (.ofEvents script)) := by
  obtain ⟨⟨before, hpulled, hline⟩, hended, hstopped⟩ := hstops
  obtain ⟨hlt, -⟩ := List.getElem?_eq_some_iff.mp hline
  have hcloses : style.Closes (before + 1) (style.split content) := by
    refine (LineStyle.closes_of_lt hlt).succ hline hended fun hstyle hreturn => ?_
    refine Nat.lt_of_not_le fun hle => hlone hstyle hreturn ?_
    rw [bytesPulled, hpulled, List.take_of_length_le hle, style.flatMap_bytes_split]
  refine detect_lockstep_of_stopped (Reader.SameContent.lockstep style later []) Rule.accepts
    config.rules config.window ?_ hstopped
  change Reader.SameContent style later [] (config.detectRead style (.ofEvents script)).pulled _ _
  rw [hpulled]
  exact ⟨content, h.ofEvents_append later, h.ofEvents, hcloses, rfl⟩

/-- Where the line ends at a carriage return that is the last byte of the content, a failure
that comes next takes the place of the outcome, and nothing else matters. -/
theorem Config.StopsAt.verdict_of_last_return
    (hstops : config.StopsAt .universal script content line)
    (h : Event.Delivers script content) (hreturn : line.ending = [carriageReturn])
    (hwhole : config.bytesPulled .universal script content = content) (later : List Event) :
    (config.detectRead .universal (.ofEvents (script ++ later))).verdict =
      match Event.hardFailure? later with
      | some failure => .error failure
      | none => (config.detectRead .universal (.ofEvents script)).verdict := by
  obtain ⟨⟨before, hpulled, hline⟩, -, hstopped⟩ := hstops
  obtain ⟨hlt, hget⟩ := List.getElem?_eq_some_iff.mp hline
  have hcloses := LineStyle.closes_of_lt hlt
  -- the line is the last one of the content
  have hdrop : (LineStyle.universal.split content).drop before = [line] := by
    have hbehind : (LineStyle.universal.split content).drop (before + 1) = [] := by
      have hbytes := LineStyle.universal.flatMap_bytes_split content
      rw [← List.take_append_drop (before + 1) (LineStyle.universal.split content),
        List.flatMap_append] at hbytes
      rw [bytesPulled, hpulled] at hwhole
      rw [hwhole, List.append_right_eq_self] at hbytes
      rw [← LineStyle.universal.split_flatMap_drop, hbytes]
      rfl
    rw [List.drop_eq_getElem_cons hlt, hget, hbehind]
  have hsplit := LineStyle.universal.split_flatMap_drop content before
  rw [hdrop, List.flatMap_singleton] at hsplit
  -- what the two readers answer to the last pull
  have hanswer : ∀ continuation reader, reader.Delivers content continuation →
      (nthPull (Reader.next .universal) before reader).1 =
        match Event.hardFailure? continuation with
        | some failure => some (.error failure)
        | none => some (line.decode .universal) := by
    intro continuation reader hdelivers
    obtain ⟨after, hnext, hafter⟩ := hdelivers.nthPull_next hcloses
    rw [hdrop, List.flatMap_singleton] at hafter
    rw [hnext]
    exact hafter.next_of_last_return hsplit hreturn
  have halone := hanswer [] (.ofEvents script) h.ofEvents
  have hcontinued := hanswer later (.ofEvents (script ++ later)) (h.ofEvents_append later)
  have hlevel : Reader.SameContent .universal later [] before
      (.ofEvents (script ++ later)) (.ofEvents script) :=
    ⟨content, h.ofEvents_append later, h.ofEvents, hcloses, rfl⟩
  have hstep := Reader.SameContent.lockstep .universal later []
  cases hfailure : Event.hardFailure? later with
  | some failure =>
      rw [hfailure] at hcontinued
      refine detectFrom_of_failure_after hstep hlevel hcontinued 0 [] config.rules ?_
      change 0 + before < (config.detectRead .universal (.ofEvents script)).pulled
      omega
  | none =>
      rw [hfailure] at hcontinued
      have hlast : ∀ count, (config.detectRead .universal (.ofEvents script)).pulled = count + 1 →
          Reader.SameContent .universal later [] count (.ofEvents (script ++ later))
            (.ofEvents script) ∧
          Option.Rel (Agree Eq)
            (nthPull (Reader.next .universal) count (.ofEvents (script ++ later))).1
            (nthPull (Reader.next .universal) count (.ofEvents script)).1 := by
        intro count hcount
        obtain rfl : count = before := by omega
        refine ⟨hlevel, ?_⟩
        rw [hcontinued, halone]
        exact .some (Agree.refl _)
      exact (detect_lockstep_of_stopped hstep.oneMore Rule.accepts config.rules config.window
        hlast hstopped).verdict.eq

end Continuation

/-- **What stands behind the deciding line does not matter, up to one byte of look-ahead.**
With an empty window nothing is read. Otherwise let detection among the lines of a script's
content stop at a line. In the feed-only style, and in the universal style unless the line
ends at a carriage return that is the last byte of the content, all continuations of the
script lead to the same verdict and to as many bytes consumed. If it does end so, then the
verdict is that of the script alone, but for a failure that comes next, which is the outcome
instead. -/
theorem Config.detectRead_append (config : Config) (style : LineStyle) :
    (config.window = 0 → ∀ reader,
      (config.detectRead style reader).verdict = .ok false ∧
        (config.detectRead style reader).source = reader) ∧
    ∀ (script : List Event) (content : Bytes) (line : RawLine), Event.Delivers script content →
      config.StopsAt style script content line →
      ((style = .universal → line.ending = [carriageReturn] →
          config.bytesPulled style script content ≠ content) →
        ∀ later later',
          let outcome := config.detectRead style (.ofEvents (script ++ later))
          let outcome' := config.detectRead style (.ofEvents (script ++ later'))
          outcome.verdict = outcome'.verdict ∧
            outcome.source.consumed = outcome'.source.consumed) ∧
      (style = .universal → line.ending = [carriageReturn] →
          config.bytesPulled style script content = content →
        ∀ later, (config.detectRead style (.ofEvents (script ++ later))).verdict =
          match Event.hardFailure? later with
          | some failure => .error failure
          | none => (config.detectRead style (.ofEvents script)).verdict) := by
  refine ⟨fun hwindow reader => ?_, fun script content line h hstops =>
    ⟨fun hlone later later' => ?_, fun hstyle hreturn hwhole later => ?_⟩⟩
  · rw [detectRead, hwindow]
    exact ⟨rfl, rfl⟩
  · have hagrees := hstops.agrees h hlone later
    have hagrees' := hstops.agrees h hlone later'
    obtain ⟨-, -, -, -, -, hconsumed⟩ := hagrees.source
    obtain ⟨-, -, -, -, -, hconsumed'⟩ := hagrees'.source
    exact ⟨hagrees.verdict.eq.trans hagrees'.verdict.eq.symm, hconsumed.trans hconsumed'.symm⟩
  · subst hstyle
    exact hstops.verdict_of_last_return h hreturn hwhole later

/-- A script that ends within a paired ending, right behind the line with the text `a`: lines
behind it change nothing, and a connection that is lost before the other half of the ending
comes takes the verdict away. -/
theorem Config.detectRead_append_of_cut_ending :
    let config : Config := ⟨[⟨"a", .one ⟨true, [(0x61, 0x61)]⟩⟩], ⟨"", .empty⟩, 3⟩
    let script : List Event := [.data [0x61], .failure ⟨.interrupted, "again"⟩, .data [0x0D]]
    let fed : List Event := [.data [0x61, 0x0A]]
    (config.detectRead .universal
        (.ofEvents (script ++ [.failure ⟨.other, "lost"⟩]))).verdict =
      .error ⟨.other, "lost"⟩ ∧
    (config.detectRead .universal (.ofEvents (script ++ [.data [0x0A, 0xFF]]))).verdict =
      .ok true ∧
    (config.detectRead .feedOnly
        (.ofEvents (fed ++ [.failure ⟨.other, "lost"⟩]))).source.consumed =
      (config.detectRead .feedOnly (.ofEvents (fed ++ [.data [0xFF]]))).source.consumed ∧
    (Config.detectRead ⟨[], ⟨"", .empty⟩, 0⟩ .feedOnly (.ofEvents fed)).source = .ofEvents fed := by
  intro config script fed
  have hscript : Event.Delivers script [0x61, 0x0D] := ⟨by decide, by decide⟩
  have hfed : Event.Delivers fed [0x61, 0x0A] := ⟨by decide, by decide⟩
  have hreturn : config.StopsAt .universal script [0x61, 0x0D] ⟨[0x61], [carriageReturn]⟩ :=
    ⟨⟨0, rfl, rfl⟩, by decide, .inl nofun⟩
  have hfeed : config.StopsAt .feedOnly fed [0x61, 0x0A] ⟨[0x61], [lineFeed]⟩ :=
    ⟨⟨0, rfl, rfl⟩, by decide, .inl nofun⟩
  have hlook := ((config.detectRead_append .universal).2 script _ _ hscript hreturn).2 rfl rfl rfl
  have hclosed := ((config.detectRead_append .feedOnly).2 fed _ _ hfed hfeed).1 (by decide)
  exact ⟨hlook [.failure ⟨.other, "lost"⟩], hlook [.data [0x0A, 0xFF]],
    (hclosed [.failure ⟨.other, "lost"⟩] [.data [0xFF]]).2,
    ((Config.detectRead_append ⟨[], ⟨"", .empty⟩, 0⟩ .feedOnly).1 rfl _).2⟩

end LicenseHeader
