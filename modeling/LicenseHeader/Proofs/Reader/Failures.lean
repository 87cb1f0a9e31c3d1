import LicenseHeader.Proofs.Reader.Calls

/-!
# What a failure costs

A read that fails is handed on as the answer to the call that met it, and the line that this call
was reading is lost. So it depends on the place of the failure how much is lost. Within a line
these are the bytes of the line that have arrived. Behind a line feed nothing is lost, since the
line has been handed over. Behind a carriage return the line has its ending, but the call still
looks for a line feed, and so the failure costs a whole line. In any case all bytes that arrived
before the failure are consumed with it, and what arrives later is read from a beginning of its
own: a line feed is then no longer the other half of an ending.

The number of consumed bytes is a ledger that reading writes and never reads. So a reader that is
further on by some bytes answers like one that is not (`Reader.next_further`), and the calls
behind a failure are those to a fresh reader of the events that are left.

## Main definitions

* `Reader.further`: a reader that has consumed some bytes more.
* `linesBeforeFailure`: the lines that are handed over before a failure.

## Main results

* `Reader.call_further`: what has been consumed bears on no answer.
* `Event.Delivers.call_universal_of_failure`: the calls before, at and behind a failure.
-/

namespace LicenseHeader

/-! ### The ledger of consumed bytes -/

/-- The same look, with some bytes more consumed. -/
def Sighting.further (count : Nat) (seen : Sighting) : Sighting :=
  { seen with consumed := seen.consumed + count }

/-- The same reader, with some bytes more consumed. -/
def Reader.further (count : Nat) (reader : Reader) : Reader :=
  { reader with consumed := reader.consumed + count }

/-- The same stretch, with some bytes more consumed. -/
def Stretch.further (count : Nat) (stretch : Stretch) : Stretch :=
  { stretch with reader := stretch.reader.further count }

section Further

variable {stops : UInt8 → Bool}

/-- A look through bytes goes on counting where it began. -/
theorem Sighting.among_further (gathered : Bytes) (consumed count : Nat) (bytes : Bytes) :
    Sighting.among stops gathered (consumed + count) bytes =
      (Sighting.among stops gathered consumed bytes).further count := by
  induction bytes generalizing gathered consumed with
  | nil => rfl
  | cons b bytes ih =>
      rw [among, among, Nat.add_right_comm]
      split
      · rfl
      · exact ih (b :: gathered) (consumed + 1)

/-- Going through the events does not depend on the count. -/
theorem Stretch.ofSighting_further (count : Nat) (seen : Sighting) (events : List Event) :
    Stretch.ofSighting stops (seen.further count) events =
      (Stretch.ofSighting stops seen events).further count := by
  induction events generalizing seen with
  | nil => rcases seen with ⟨gathered, consumed, _ | ⟨b, rest⟩⟩ <;> rfl
  | cons event events ih =>
      rcases seen with ⟨gathered, consumed, _ | ⟨b, rest⟩⟩
      · cases event with
        | data bytes =>
            cases bytes with
            | nil => rfl
            | cons b bytes =>
                have hamong := @Sighting.among_further stops gathered consumed count (b :: bytes)
                rw [Sighting.further, ofSighting, ofSighting, hamong]
                exact ih _
        | failure failure =>
            simp only [Sighting.further, ofSighting]
            split
            · exact ih ⟨gathered, consumed, none⟩
            · rfl
        | ended => rfl
      · rfl

/-- Taking bytes does not depend on the count. -/
theorem Reader.takeUntil_further (count : Nat) (reader : Reader) :
    (reader.further count).takeUntil stops = (reader.takeUntil stops).further count := by
  simp only [takeUntil, further]
  rw [Sighting.among_further, Stretch.ofSighting_further]

/-- Waiting for bytes does not depend on the count. -/
theorem Reader.await_further (consumed count : Nat) (events : List Event) :
    Reader.await (consumed + count) events =
      Prod.map id (Reader.further count) (Reader.await consumed events) := by
  induction events with
  | nil => rfl
  | cons event events ih =>
      cases event with
      | data bytes => rfl
      | failure failure =>
          rw [await, await]
          split
          · exact ih
          · rfl
      | ended => rfl

/-- Nor does filling the buffer. -/
theorem Reader.fill_further (count : Nat) (reader : Reader) :
    (reader.further count).fill = Prod.map id (Reader.further count) reader.fill := by
  obtain ⟨_ | ⟨b, buffered⟩, events, consumed⟩ := reader
  · exact await_further consumed count events
  · rfl

/-- Nor does skipping a byte. -/
theorem Reader.skip_further (b : UInt8) (count : Nat) (reader : Reader) :
    (reader.further count).skip b = Prod.map id (Reader.further count) (reader.skip b) := by
  rw [skip, skip, fill_further]
  rcases reader.fill with ⟨_ | failure, _ | ⟨first, rest⟩, events, consumed⟩
  · rfl
  · simp only [Prod.map_apply, further, id_eq]
    split
    · exact congrArg (fun total => (none, Reader.mk rest events total)) (Nat.add_right_comm ..)
    · rfl
  · rfl
  · rfl

/-- **A reader that is further on answers alike**, and stays further on by as many bytes. -/
theorem Reader.next_further (style : LineStyle) (count : Nat) (reader : Reader) :
    (reader.further count).next style =
      Prod.map id (Reader.further count) (reader.next style) := by
  simp only [next, takeUntil_further]
  obtain ⟨bytes, stop, after⟩ := reader.takeUntil style.stops
  simp only [Stretch.further]
  cases stop with
  | failed failure => rfl
  | ended => cases bytes <;> rfl
  | «at» b =>
      cases style with
      | feedOnly => rfl
      | universal =>
          simp only [endUniversal]
          split
          · rw [skip_further]
            rcases after.skip lineFeed with ⟨_ | failure, after⟩ <;> rfl
          · rfl

/-- The same of many calls. -/
theorem Reader.call_further (style : LineStyle) (k count : Nat) (reader : Reader) :
    (reader.further count).call style k =
      Prod.map id (Reader.further count) (reader.call style k) := by
  induction k generalizing reader with
  | zero => exact next_further style count reader
  | succ k ih =>
      rw [call, call, next_further]
      exact ih (reader.next style).2

end Further

/-- Calls behind other calls are calls to the reader that is left by these. -/
theorem Reader.call_add (style : LineStyle) (n k : Nat) (reader : Reader) :
    reader.call style (n + 1 + k) = (reader.call style n).2.call style k := by
  induction n generalizing reader with
  | zero =>
      rw [Nat.zero_add, Nat.add_comm]
      rfl
  | succ n ih =>
      rw [Nat.add_right_comm]
      exact ih (reader.next style).2

/-! ### Lines before a failure -/

/-- The lines of a content that have an ending. -/
def terminatedLines (content : Bytes) : List RawLine :=
  (LineStyle.universal.split content).filter fun line => line.ending ≠ []

/-- The lines that a reader of a file hands over before a failure behind a content. These are the
lines with an ending, but for one that ends at a carriage return at the end of the content. -/
def linesBeforeFailure (content : Bytes) : List RawLine :=
  if content.getLast? = some carriageReturn then (terminatedLines content).dropLast
  else terminatedLines content

section Before

variable {content rest : Bytes} {line : RawLine}

/-- A content without an ending has no such line. -/
theorem terminatedLines_of_clean (h : LineStyle.universal.Clean content) :
    terminatedLines content = [] := by
  rw [terminatedLines, LineStyle.split_of_clean h]
  split <;> rfl

/-- A first line comes before those of the rest. -/
theorem FirstLine.terminatedLines_eq (h : FirstLine .universal content line rest) :
    terminatedLines content = line :: terminatedLines rest := by
  rw [terminatedLines, h.split]
  exact List.filter_cons_of_pos (decide_eq_true h.ending_ne_nil)

/-- A content with a stop byte at its end has a line with an ending. -/
theorem terminatedLines_ne_nil (h : content.getLast? = some carriageReturn) :
    terminatedLines content ≠ [] := by
  rcases LineStyle.universal.clean_or_firstLine content with hclean | ⟨line, rest, hfirst⟩
  · exact absurd rfl
      (LineStyle.universal_stops_eq_false.mp (hclean _ (List.mem_of_getLast? h))).2
  · rw [hfirst.terminatedLines_eq]
    exact List.cons_ne_nil _ _

/-- Without an ending nothing is handed over before a failure. -/
theorem linesBeforeFailure_of_clean (h : LineStyle.universal.Clean content) :
    linesBeforeFailure content = [] := by
  rw [linesBeforeFailure, terminatedLines_of_clean h]
  split <;> rfl

/-- Nor is it if the only ending is a carriage return at the end of the content. -/
theorem linesBeforeFailure_of_last_return {text : Bytes} (h : LineStyle.universal.Clean text) :
    linesBeforeFailure (text ++ [carriageReturn]) = [] := by
  have hfirst : FirstLine .universal (text ++ [carriageReturn]) ⟨text, [carriageReturn]⟩ [] :=
    .lone h (by simp)
  rw [linesBeforeFailure, if_pos (by simp), hfirst.terminatedLines_eq]
  rfl

/-- Any other first line is handed over, and then those of the rest. -/
theorem FirstLine.linesBeforeFailure_eq (h : FirstLine .universal content line rest)
    (hclosed : line.ending = [carriageReturn] → rest ≠ []) :
    linesBeforeFailure content = line :: linesBeforeFailure rest := by
  by_cases hrest : rest = []
  · have hlast : content.getLast? ≠ some carriageReturn := by
      subst hrest
      cases h with
      | feed => simp; decide
      | pair => simp; decide
      | lone => exact absurd rfl (hclosed rfl)
    rw [linesBeforeFailure, if_neg hlast, h.terminatedLines_eq, hrest]
    rfl
  · have hlast : content.getLast? = rest.getLast? := by
      rw [← h.bytes_append, List.getLast?_append, List.getLast?_eq_some_getLast hrest,
        Option.some_or]
    rw [linesBeforeFailure, linesBeforeFailure, hlast, h.terminatedLines_eq]
    split
    · next hreturn => exact List.dropLast_cons_of_ne_nil (terminatedLines_ne_nil hreturn)
    · rfl

end Before

/-! ### Calls around a failure -/

section Calls

variable {reader : Reader} {content : Bytes} {e : Failure} {later : List Event}

/-- A failure within a line is the answer, and its bytes are lost. -/
theorem Reader.Delivers.next_of_failure_in_line (he : e.isInterruption = false)
    (h : reader.Delivers content (.failure e :: later)) (hclean : LineStyle.universal.Clean content) :
    reader.next .universal =
      (some (.error e), ⟨[], later, reader.consumed + content.length⟩) := by
  simp only [next, h.takeUntil_of_clean hclean, Stretch.ofSighting, he, Bool.false_eq_true,
    if_false]

/-- A failure to look behind a carriage return is the answer, and the line is lost. -/
theorem Reader.Delivers.next_of_failure_behind_return {text : Bytes}
    (he : e.isInterruption = false)
    (h : reader.Delivers (text ++ [carriageReturn]) (.failure e :: later))
    (hclean : LineStyle.universal.Clean text) :
    reader.next .universal =
      (some (.error e), ⟨[], later, reader.consumed + (text ++ [carriageReturn]).length⟩) := by
  obtain ⟨after, htake, hafter, hconsumed⟩ := h.takeUntil_of_stop hclean rfl
  have hskip : after.skip lineFeed = (some e, ⟨[], later, after.consumed⟩) := by
    rw [hafter.skip_nil]
    simp only [skip, fill, await, he, Bool.false_eq_true, if_false]
  simp only [next, htake, endUniversal, hskip, if_pos]
  rw [hconsumed, List.length_append]
  rfl

/-- **The calls up to a failure.** They hand over the lines before it, and then the failure, with
which all bytes before it are consumed. Induction along the lines of the content. -/
theorem Reader.Delivers.call_until_failure (he : e.isInterruption = false)
    (h : reader.Delivers content (.failure e :: later)) :
    (∀ k line, (linesBeforeFailure content)[k]? = some line →
      (reader.call .universal k).1 = some (line.decode .universal)) ∧
    reader.call .universal (linesBeforeFailure content).length =
      (some (.error e), ⟨[], later, reader.consumed + content.length⟩) := by
  induction content using @LineStyle.line_induction .universal generalizing reader with
  | clean content hclean =>
      rw [linesBeforeFailure_of_clean hclean]
      exact ⟨fun k line hline => absurd hline (by simp), h.next_of_failure_in_line he hclean⟩
  | first content line rest hfirst ih =>
      by_cases hlast : line.ending = [carriageReturn] ∧ rest = []
      · obtain ⟨hreturn, rfl⟩ := hlast
        cases hfirst with
        | feed => exact absurd (List.cons.inj hreturn).1 (by decide)
        | pair => exact absurd (List.cons.inj hreturn).2 (List.cons_ne_nil _ _)
        | lone hclean =>
            rw [linesBeforeFailure_of_last_return hclean]
            exact ⟨fun k line hline => absurd hline (by simp),
              h.next_of_failure_behind_return he hclean⟩
      · have hclosed : line.ending = [carriageReturn] → rest ≠ [] := fun hreturn hnil =>
          hlast ⟨hreturn, hnil⟩
        obtain ⟨after, hnext, hafter, hconsumed⟩ :=
          hfirst.takes h fun _ hreturn hnil => absurd hnil (hclosed hreturn)
        obtain ⟨hlines, hfailed⟩ := ih hafter
        rw [hfirst.linesBeforeFailure_eq hclosed]
        refine ⟨fun k other hother => ?_, ?_⟩
        · cases k with
          | zero =>
              obtain rfl := Option.some.inj hother
              rw [call, hnext]
          | succ k =>
              rw [call, hnext]
              exact hlines k other hother
        · rw [List.length_cons, call, hnext, hfailed, hconsumed, ← hfirst.bytes_append,
            List.length_append, Nat.add_assoc]

end Calls

/-- **What a failure costs.** Let a script deliver a content and then fail. The calls to a reader
of a file hand over the lines of the content that have an ending, but for one that ends at a
carriage return at the end of the content. The next call hands over the failure, with which just
the content is consumed. All further calls are answered as by a fresh reader of what follows. -/
theorem Event.Delivers.call_universal_of_failure {script : List Event} {content : Bytes}
    (h : Event.Delivers script content) {e : Failure} (he : e.isInterruption = false)
    (later : List Event) :
    let reader := Reader.ofEvents (script ++ .failure e :: later)
    let lines := linesBeforeFailure content
    let failed := reader.call .universal lines.length
    (∀ k line, lines[k]? = some line →
      (reader.call .universal k).1 = some (line.decode .universal)) ∧
    (failed.1 = some (.error e) ∧ failed.2.consumed = content.length) ∧
    ∀ k,
      let answer := reader.call .universal (lines.length + 1 + k)
      let fresh := (Reader.ofEvents later).call .universal k
      answer.1 = fresh.1 ∧ answer.2.consumed = content.length + fresh.2.consumed := by
  intro reader lines failed
  obtain ⟨hlines, hfailed⟩ := (h.ofEvents_append (.failure e :: later)).call_until_failure he
  have hfailed : failed = (some (.error e), (Reader.ofEvents later).further content.length) :=
    hfailed
  refine ⟨hlines, ⟨by rw [hfailed], ?_⟩, fun k => ?_⟩
  · rw [hfailed]
    exact Nat.zero_add _
  · intro answer fresh
    have hanswer : answer = Prod.map id (Reader.further content.length) fresh := by
      have hcalls := Reader.call_add .universal lines.length k reader
      change answer = failed.2.call .universal k at hcalls
      rw [hcalls, hfailed, Reader.call_further]
    rw [hanswer]
    exact ⟨rfl, Nat.add_comm _ _⟩

/-- A connection that is lost within a paired ending costs the line in front of it, and what is
read afterwards begins with an empty line. -/
theorem Event.Delivers.call_universal_of_failure_in_pair :
    let script : List Event :=
      [.data [0x61, 0x0D], .failure ⟨.interrupted, "again"⟩, .data [0x0A, 0x62, 0x0D]]
    let lost : Failure := ⟨.other, "lost"⟩
    let reader := Reader.ofEvents (script ++ .failure lost :: [.data [0x0A, 0x63]])
    Event.Delivers script [0x61, 0x0D, 0x0A, 0x62, 0x0D] ∧ lost.isInterruption = false ∧
      (reader.call .universal 0).1 = some (.ok ['a']) ∧
      (reader.call .universal 1).1 = some (.error lost) ∧
      (reader.call .universal 1).2.consumed = 5 ∧
      (reader.call .universal 2).1 = some (.ok []) ∧
      (reader.call .universal 3).1 = some (.ok ['c']) := by
  intro script lost reader
  have h : Event.Delivers script [0x61, 0x0D, 0x0A, 0x62, 0x0D] := ⟨by decide, by decide⟩
  have he : lost.isInterruption = false := by decide
  have hbefore : linesBeforeFailure [0x61, 0x0D, 0x0A, 0x62, 0x0D] =
      [⟨[0x61], [0x0D, 0x0A]⟩] := by decide
  obtain ⟨hlines, ⟨hfailed, hconsumed⟩, hfresh⟩ :=
    h.call_universal_of_failure he [.data [0x0A, 0x63]]
  rw [hbefore] at hlines hfailed hconsumed hfresh
  exact ⟨h, he, hlines 0 ⟨[0x61], [0x0D, 0x0A]⟩ rfl, hfailed, hconsumed, (hfresh 0).1,
    (hfresh 1).1⟩

end LicenseHeader
