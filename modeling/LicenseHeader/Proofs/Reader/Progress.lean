import LicenseHeader.Proofs.Reader.Calls
import LicenseHeader.Proofs.Reader.Rounds
import LicenseHeader.Reader.Script

/-!
# Reading makes progress

Whatever a script holds, in whatever order, a reader of a file comes to the end of its input. Two
things have to be shown, since there are loops within a call and there are calls one after the
other. That a call is over after finitely many rounds is said in the module on rounds. That the
calls come to an end is a matter of what they take. No byte is lost on the way: what a reader had,
and what came with the events that it took, is consumed or still there (`Reader.Advances`). And a
call that hands something over has consumed a byte or has met a failure; within a line it has
consumed all that it has gathered, and behind a carriage return it has consumed at least that.
Both are kept round by round (`CallState.follows_step`).

So the bytes and failures that are still to come, the weight of a reader, go down with each
answer, and there are not more answers than that before the end.

## Main definitions

* `Reader.Advances`: the ledger of the events that are taken and the bytes that are consumed.
* `CallState.Follows`: what is kept from the beginning of a call.

## Main results

* `Reader.next_advances`: what a call takes.
* `Reader.weight_lt_of_next`: an answer lowers the weight.
* `Reader.call_universal_progress`: every call is over, and so are the calls.
-/

namespace LicenseHeader

/-! ### The ledger of a reader -/

/-- A reader has come from `before` to `after`: it has taken events, and all bytes that it had or
that came with them are consumed or still there. -/
structure Reader.Advances (before : Reader) (taken : List Event) (after : Reader) : Prop where
  /-- The events are taken off the script. -/
  events : before.events = taken ++ after.events
  /-- No byte is lost. -/
  bytes : before.consumed + before.buffered.length + (Event.contentOf taken).length =
    after.consumed + after.buffered.length
  /-- What is consumed stays so. -/
  consumed_le : before.consumed ≤ after.consumed

namespace Reader.Advances

variable {first second third : Reader} {taken more : List Event}

/-- A reader that does nothing takes nothing. -/
theorem refl (reader : Reader) : reader.Advances [] reader :=
  ⟨rfl, rfl, Nat.le_refl _⟩

/-- What is taken on two ways is taken on the whole way. -/
theorem trans (h : first.Advances taken second) (h' : second.Advances more third) :
    first.Advances (taken ++ more) third := by
  refine ⟨?_, ?_, Nat.le_trans h.consumed_le h'.consumed_le⟩
  · rw [h.events, h'.events, List.append_assoc]
  · have hfirst := h.bytes
    have hsecond := h'.bytes
    rw [Event.contentOf_append, List.length_append]
    omega

/-- Bytes at hand may be consumed. -/
theorem consume {buffered rest : Bytes} {events : List Event} {consumed : Nat}
    (h : first.Advances taken ⟨buffered, events, consumed⟩) (count : Nat)
    (hcount : count + rest.length = buffered.length) :
    first.Advances taken ⟨rest, events, consumed + count⟩ := by
  refine ⟨h.events, ?_, Nat.le_trans h.consumed_le (Nat.le_add_right _ _)⟩
  rw [h.bytes]
  dsimp only
  omega

end Reader.Advances

/-- A request takes an event at most; a failure that it meets is one. -/
theorem Reader.request_advances (reader : Reader) :
    ∃ taken, reader.Advances taken reader.request.2 ∧
      ∀ failure, reader.request.1 = some failure → .failure failure ∈ taken := by
  obtain ⟨_ | ⟨b, bytes⟩, events, consumed⟩ := reader
  · cases events with
    | nil => exact ⟨[], .refl _, fun _ h => nomatch h⟩
    | cons event events =>
        cases event with
        | data bytes =>
            refine ⟨[.data bytes], ⟨rfl, ?_, Nat.le_refl _⟩, fun _ h => nomatch h⟩
            rw [Event.contentOf_cons, Event.contentOf_nil, List.append_nil]
            rfl
        | failure failure =>
            refine ⟨[.failure failure], ⟨rfl, rfl, Nat.le_refl _⟩, fun other h => ?_⟩
            obtain rfl := Option.some.inj h
            exact List.mem_singleton_self _
        | ended => exact ⟨[.ended], ⟨rfl, rfl, Nat.le_refl _⟩, fun _ h => nomatch h⟩
  · exact ⟨[], .refl _, fun _ h => nomatch h⟩

/-! ### The ledger of a call -/

namespace CallState

/-- The reader of a call. -/
def reader : CallState → Reader
  | .within _ reader => reader
  | .behind _ reader => reader
  | .answered _ reader => reader

/-- What a call that began with the reader `start` has paid. All that it has gathered is consumed;
behind a carriage return it has consumed a byte; and an answer has cost a byte or a failure. -/
def Paid (start : Reader) (taken : List Event) : CallState → Prop
  | .within gathered reader => start.consumed + gathered.length ≤ reader.consumed
  | .behind _ reader => start.consumed < reader.consumed
  | .answered none _ => True
  | .answered (some _) reader =>
    start.consumed < reader.consumed ∨ ∃ event ∈ taken, event.isHardFailure = true

/-- What is kept from the beginning of a call with the reader `start`: its reader has advanced from
there, and has paid for where the call stands. -/
def Follows (start : Reader) (state : CallState) : Prop :=
  ∃ taken, start.Advances taken state.reader ∧ state.Paid start taken

section Follows

variable {start reader : Reader} {taken : List Event}

/-- A line without an ending is handed over only if something was gathered. -/
theorem follows_lastLine (h : start.Advances taken reader) {text : Bytes}
    (htext : start.consumed + text.length ≤ reader.consumed) :
    Follows start (.answered (lastLine text) reader) := by
  refine ⟨taken, h, ?_⟩
  cases text with
  | nil => exact trivial
  | cons b text =>
      rw [List.length_cons] at htext
      exact .inl (by omega)

/-- The bytes at hand are gathered, or they end the line. -/
theorem follows_gather (h : start.Advances taken reader) {gathered : Bytes}
    (hgathered : start.consumed + gathered.length ≤ reader.consumed) :
    Follows start (gather gathered reader) := by
  obtain ⟨buffered, events, consumed⟩ := reader
  dsimp only at hgathered
  cases buffered with
  | nil => exact follows_lastLine h (by rw [List.length_reverse]; exact hgathered)
  | cons b bytes =>
      rw [gather]
      dsimp only
      rcases clean_or_exists_stop LineStyle.universal.stops (b :: bytes) with
        hclean | ⟨text, stop, rest, hbytes, hclean, hstop⟩
      · rw [Sighting.among_of_clean hclean]
        refine ⟨taken, h.consume (b :: bytes).length (Nat.add_zero _), ?_⟩
        rw [Paid, List.length_append, List.length_reverse]
        dsimp only
        omega
      · rw [hbytes, Sighting.among_of_stop hclean hstop]
        rw [hbytes] at h
        have hafter : start.Advances taken ⟨rest, events, consumed + text.length + 1⟩ :=
          h.consume (text.length + 1) (by rw [List.length_append, List.length_cons]; omega)
        have hspent : start.consumed < consumed + text.length + 1 := by omega
        dsimp only
        split
        · exact ⟨taken, hafter, hspent⟩
        · exact ⟨taken, hafter, .inl hspent⟩

/-- Behind a carriage return a line feed may be consumed as well. -/
theorem follows_close (h : start.Advances taken reader)
    (hspent : start.consumed < reader.consumed) (text : Bytes) :
    Follows start (close text reader) := by
  obtain ⟨buffered, events, consumed⟩ := reader
  cases buffered with
  | nil => exact ⟨taken, h, .inl hspent⟩
  | cons b rest =>
      dsimp only [close]
      split
      · exact ⟨taken, h.consume 1 (Nat.add_comm ..), .inl (Nat.lt_succ_of_lt hspent)⟩
      · exact ⟨taken, h, .inl hspent⟩

/-- A round keeps the ledger if what comes behind the request does. A failure that is handed on
is in the ledger itself. -/
theorem follows_round {again arrived : Reader → CallState} (h : start.Advances taken reader)
    (hagain : ∀ {more after}, start.Advances more after → reader.consumed ≤ after.consumed →
      Follows start (again after))
    (harrived : ∀ {more after}, start.Advances more after → reader.consumed ≤ after.consumed →
      Follows start (arrived after)) :
    Follows start (round again arrived reader) := by
  obtain ⟨more, hrequest, hfailure⟩ := reader.request_advances
  have hafter := h.trans hrequest
  have hconsumed := hrequest.consumed_le
  rw [round]
  split
  · next failure after heq =>
      rw [heq] at hafter hconsumed hfailure
      split
      · exact hagain hafter hconsumed
      · next hhard =>
          refine ⟨taken ++ more, hafter, .inr ⟨.failure failure, ?_, ?_⟩⟩
          · exact List.mem_append_right taken (hfailure failure rfl)
          · simp [Event.isHardFailure, hhard]
  · next after heq =>
      rw [heq] at hafter hconsumed
      exact harrived hafter hconsumed

/-- **A round keeps the ledger of its call.** -/
theorem follows_step {state : CallState} (h : Follows start state) : Follows start state.step := by
  obtain ⟨taken, htaken, hpaid⟩ := h
  cases state with
  | within gathered reader =>
      refine follows_round htaken (fun hmore hle => ?_) (fun hmore hle => ?_)
      · exact ⟨_, hmore, Nat.le_trans hpaid hle⟩
      · exact follows_gather hmore (Nat.le_trans hpaid hle)
  | behind text reader =>
      refine follows_round htaken (fun hmore hle => ?_) (fun hmore hle => ?_)
      · exact ⟨_, hmore, Nat.lt_of_lt_of_le hpaid hle⟩
      · exact follows_close hmore (Nat.lt_of_lt_of_le hpaid hle) text
  | answered answer reader => exact ⟨taken, htaken, hpaid⟩

/-- And so do many. -/
theorem follows_iterate (count : Nat) {state : CallState} (h : Follows start state) :
    Follows start (step^[count] state) := by
  induction count with
  | zero => exact h
  | succ count ih =>
      rw [Function.iterate_succ_apply']
      exact follows_step ih

end Follows

end CallState

/-- **What a call takes.** A call that hands over a line or a failure has consumed a byte, or it has
met a failure. -/
theorem Reader.next_advances (reader : Reader) :
    ∃ taken, reader.Advances taken (reader.next .universal).2 ∧
      ((reader.next .universal).1 ≠ none →
        reader.consumed < (reader.next .universal).2.consumed ∨
          ∃ event ∈ taken, event.isHardFailure = true) := by
  obtain ⟨rounds, -, hanswered⟩ := reader.next_eq_rounds
  have hbegin : CallState.Follows reader (.within [] reader) := ⟨[], .refl reader, Nat.le_refl _⟩
  obtain ⟨taken, htaken, hpaid⟩ := CallState.follows_iterate rounds hbegin
  rw [hanswered] at htaken hpaid
  refine ⟨taken, htaken, fun hanswer => ?_⟩
  obtain ⟨item, hitem⟩ := Option.ne_none_iff_exists'.mp hanswer
  rw [hitem] at hpaid
  exact hpaid

/-! ### The weight of a reader -/

/-- An event weighs its bytes, and one more if it is a failure that is handed on. -/
theorem Event.weight_eq (event : Event) :
    event.weight = event.bytes.length + if event.isHardFailure then 1 else 0 := by
  cases event with
  | data bytes => rfl
  | failure failure =>
      rw [weight, bytes, isHardFailure]
      cases failure.isInterruption <;> rfl
  | ended => rfl

/-- The weight of a reader is the number of bytes and failures that are to come. -/
theorem Reader.weight_eq (reader : Reader) :
    reader.weight = reader.buffered.length + (Event.contentOf reader.events).length +
      reader.events.countP Event.isHardFailure := by
  obtain ⟨buffered, events, consumed⟩ := reader
  rw [weight]
  induction events with
  | nil => rfl
  | cons event events ih =>
      dsimp only at ih ⊢
      rw [List.foldr_cons, ih, Event.weight_eq, Event.contentOf_cons, List.length_append,
        List.countP_cons]
      omega

/-- The weight goes down by the bytes that are consumed and the failures that are met. -/
theorem Reader.Advances.weight {before after : Reader} {taken : List Event}
    (h : before.Advances taken after) :
    before.weight + before.consumed =
      after.weight + after.consumed + taken.countP Event.isHardFailure := by
  have hbytes := h.bytes
  rw [Reader.weight_eq, Reader.weight_eq, h.events, List.countP_append, Event.contentOf_append,
    List.length_append]
  omega

/-- **An answer lowers the weight.** -/
theorem Reader.weight_lt_of_next {reader after : Reader} {item : Except Failure Line}
    (h : reader.next .universal = (some item, after)) : after.weight < reader.weight := by
  obtain ⟨taken, htaken, hpaid⟩ := reader.next_advances
  rw [h] at htaken hpaid
  dsimp only at htaken hpaid
  have hweight := htaken.weight
  have hconsumed := htaken.consumed_le
  rcases hpaid (Option.some_ne_none item) with hbyte | hfailure
  · omega
  · have hcount := List.countP_pos_iff.mpr hfailure
    omega

/-! ### Calls up to the end -/

/-- The calls of a reader whose weight is less than a number of rounds come to an end within
these. Induction on the rounds, along the weight. -/
theorem Reader.exists_linesFrom_eq {reader : Reader} {rounds : Nat} (h : reader.weight < rounds)
    (earlier : List (Except Failure Line)) :
    ∃ lines after, Reader.linesFrom .universal earlier rounds reader =
        (earlier.reverse ++ lines, after) ∧
      lines.length ≤ reader.weight ∧
      (∀ k line, lines[k]? = some line → (reader.call .universal k).1 = some line) ∧
      reader.call .universal lines.length = (none, after) := by
  induction rounds generalizing reader earlier with
  | zero => exact absurd h (Nat.not_lt_zero _)
  | succ rounds ih =>
      rw [linesFrom]
      split
      · next after hnext =>
          exact ⟨[], after, by rw [List.append_nil], Nat.zero_le _, by simp, hnext⟩
      · next line after hnext =>
          have hlower := Reader.weight_lt_of_next hnext
          obtain ⟨lines, last, hlines, hlength, hcalls, hend⟩ :=
            @ih after (by omega) (line :: earlier)
          refine ⟨line :: lines, last, ?_, ?_, fun k other hother => ?_, ?_⟩
          · rw [hlines, List.reverse_cons, List.append_assoc, List.singleton_append]
          · rw [List.length_cons]
            omega
          · cases k with
            | zero =>
                obtain rfl := Option.some.inj hother
                rw [call, hnext]
            | succ k =>
                rw [call, hnext]
                exact hcalls k other hother
          · rw [List.length_cons, call, hnext]
            exact hend

/-- **Reading always makes progress.** The reader may be at any place of any script, where data,
empty or not, ends of input and failures of any kind follow in any order. A call is over after two
requests more than there are events, or earlier. If it hands over a line or a failure, it has
consumed a byte, or it has taken a failure off the script that is not tried again. And calls that go
on after failures come to an end of the input: they have handed over no more lines and failures than
there were bytes and such failures to come. -/
theorem Reader.call_universal_progress (reader : Reader) :
    let answer := reader.next .universal
    let reading := reader.lines .universal
    (∃ rounds ≤ reader.events.length + 2,
      CallState.step^[rounds] (.within [] reader) = .answered answer.1 answer.2) ∧
    (∃ taken, reader.Advances taken answer.2 ∧
      (answer.1 ≠ none →
        reader.consumed < answer.2.consumed ∨ ∃ event ∈ taken, event.isHardFailure = true)) ∧
    reading.1.length ≤ reader.buffered.length + (Event.contentOf reader.events).length +
      reader.events.countP Event.isHardFailure ∧
    (∀ k line, reading.1[k]? = some line → (reader.call .universal k).1 = some line) ∧
    reader.call .universal reading.1.length = (none, reading.2) := by
  intro answer reading
  obtain ⟨lines, after, hlines, hlength, hcalls, hend⟩ :=
    Reader.exists_linesFrom_eq (Nat.lt_succ_self reader.weight) []
  have hreading : reading = (lines, after) := hlines
  rw [reader.weight_eq] at hlength
  rw [hreading]
  exact ⟨reader.next_eq_rounds, reader.next_advances, hlength, hcalls, hend⟩

/-- A line is lost to a failure behind its carriage return, its line feed is an empty line then, and
data without bytes is an end of input. There are not more than four items. -/
theorem Reader.call_universal_progress_of_lost_line :
    let lost : Failure := ⟨.other, "lost"⟩
    let reader := Reader.ofEvents [.data [0x61, 0x0D], .failure ⟨.interrupted, "again"⟩,
      .failure lost, .data [0x0A], .data []]
    let answer := reader.next .universal
    let reading := reader.lines .universal
    (∃ rounds ≤ 7, CallState.step^[rounds] (.within [] reader) =
        .answered (some (.error lost)) answer.2) ∧
      (∃ taken, reader.Advances taken answer.2 ∧
        (0 < answer.2.consumed ∨ ∃ event ∈ taken, event.isHardFailure = true)) ∧
      reading.1.length ≤ 4 ∧ (reader.call .universal reading.1.length).1 = none := by
  intro lost reader answer reading
  obtain ⟨hrounds, ⟨taken, htaken, hpaid⟩, hlength, -, hend⟩ := reader.call_universal_progress
  have hanswer : answer.1 = some (.error lost) := rfl
  have hsome : answer.1 ≠ none := by
    rw [hanswer]
    exact Option.some_ne_none _
  exact ⟨hrounds, ⟨taken, htaken, hpaid hsome⟩, hlength, congrArg Prod.fst hend⟩

end LicenseHeader
