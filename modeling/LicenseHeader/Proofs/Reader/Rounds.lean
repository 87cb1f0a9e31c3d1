import LicenseHeader.Proofs.Reader.Delivery
import LicenseHeader.Reader.Rounds
import Mathlib.Logic.Function.Iterate

/-!
# A call and its rounds

The loops of a call for a line come to an end, and what they come to is the answer of
`Reader.next`. Both are said of single rounds first. A round lowers the number of rounds that may
be left (`roundsLeft_step`): it takes an event, or it uses up the bytes that have arrived, or it
passes on to the second loop, where bytes that have arrived settle the matter at once. And a round
does not change what the call will come to (`outcome_step`).

## Main definitions

* `CallState.roundsLeft`: a bound for the rounds that are left.
* `Stretch.answer`: the answer to a call, from the bytes up to a stop.
* `CallState.outcome`: what a call will come to.

## Main results

* `CallState.iterate_step_roundsLeft`: every call is over after that many rounds.
* `Reader.next_eq_rounds`: the answer of `Reader.next` by rounds.
-/

namespace LicenseHeader

namespace CallState

/-! ### The number of rounds -/

/-- How many rounds may still come. -/
def roundsLeft : CallState → Nat
  | .within _ reader => reader.events.length + if reader.buffered = [] then 1 else 2
  | .behind _ reader => if reader.buffered = [] then reader.events.length + 1 else 1
  | .answered _ _ => 0

/-- With bytes at hand a round within a line gathers them all, passes a carriage return or is the
last one. -/
theorem roundsLeft_gather (gathered : Bytes) (reader : Reader) :
    (gather gathered reader).roundsLeft ≤ reader.events.length + 1 := by
  rw [gather]
  split
  · exact Nat.zero_le _
  · dsimp only
    split
    · simp [roundsLeft]
    · split
      · rw [roundsLeft]
        split
        · exact Nat.le_refl _
        · exact Nat.le_add_left 1 _
      · exact Nat.zero_le _

/-- A round behind a carriage return that is not led back is the last one. -/
theorem roundsLeft_close (text : Bytes) (reader : Reader) :
    (close text reader).roundsLeft = 0 := by
  rw [close]
  split
  · rfl
  · split <;> rfl

/-- **A round leaves fewer rounds.** -/
theorem roundsLeft_step (state : CallState) :
    state.step.roundsLeft ≤ state.roundsLeft - 1 := by
  cases state with
  | within gathered reader =>
      obtain ⟨_ | ⟨b, bytes⟩, events, consumed⟩ := reader
      · cases events with
        | nil => exact Nat.zero_le _
        | cons event events =>
            cases event with
            | data bytes => exact roundsLeft_gather gathered ⟨bytes, events, consumed⟩
            | failure failure =>
                simp only [step, round, Reader.request]
                split <;> simp [roundsLeft]
            | ended => exact Nat.zero_le _
      · exact roundsLeft_gather gathered ⟨b :: bytes, events, consumed⟩
  | behind text reader =>
      obtain ⟨_ | ⟨b, bytes⟩, events, consumed⟩ := reader
      · cases events with
        | nil => exact Nat.zero_le _
        | cons event events =>
            cases event with
            | data bytes =>
                have hanswered := roundsLeft_close text ⟨bytes, events, consumed⟩
                exact hanswered ▸ Nat.zero_le _
            | failure failure =>
                simp only [step, round, Reader.request]
                split <;> simp [roundsLeft]
            | ended => exact Nat.zero_le _
      · have hanswered := roundsLeft_close text ⟨b :: bytes, events, consumed⟩
        exact Nat.le_of_eq hanswered
  | answered answer reader => exact Nat.le_refl _

/-- So many rounds leave so many rounds fewer. -/
theorem roundsLeft_iterate (count : Nat) (state : CallState) :
    (step^[count] state).roundsLeft ≤ state.roundsLeft - count := by
  induction count with
  | zero => exact Nat.le_refl _
  | succ count ih =>
      rw [Function.iterate_succ_apply']
      have hstep := roundsLeft_step (step^[count] state)
      omega

end CallState

/-! ### What the rounds come to -/

/-- What a call for a line of a file makes of the bytes up to a stop. -/
def Stretch.answer (stretch : Stretch) : Option (Except Failure Line) × Reader :=
  match stretch.stop with
  | .at b =>
    let (line, reader) := Reader.endUniversal stretch.bytes b stretch.reader
    (some line, reader)
  | .ended => (CallState.lastLine stretch.bytes, stretch.reader)
  | .failed failure => (some (.error failure), stretch.reader)

/-- A call makes its answer of the bytes up to a stop. -/
theorem Reader.next_eq_answer (reader : Reader) :
    reader.next .universal = (reader.takeUntil LineStyle.universal.stops).answer := by
  rw [next, Stretch.answer]
  rcases reader.takeUntil LineStyle.universal.stops with ⟨bytes, b | _ | failure, after⟩
  · rfl
  · cases bytes <;> rfl
  · rfl

namespace CallState

/-- What a call will come to from where it stands. -/
def outcome : CallState → Option (Except Failure Line) × Reader
  | .within gathered reader =>
    let seen := Sighting.among LineStyle.universal.stops gathered reader.consumed reader.buffered
    (Stretch.ofSighting LineStyle.universal.stops seen reader.events).answer
  | .behind text reader =>
    let (line, reader) := Reader.endUniversal text carriageReturn reader
    (some line, reader)
  | .answered answer reader => (answer, reader)

/-- The bytes at hand are looked through as the whole call would. -/
theorem outcome_gather (gathered : Bytes) (b : UInt8) (bytes : Bytes) (events : List Event)
    (consumed : Nat) :
    (gather gathered ⟨b :: bytes, events, consumed⟩).outcome =
      outcome (.within gathered ⟨b :: bytes, events, consumed⟩) := by
  rw [outcome, gather]
  dsimp only
  rcases Sighting.among LineStyle.universal.stops gathered consumed (b :: bytes) with
    ⟨seen, total, _ | ⟨stop, rest⟩⟩
  · rfl
  · rw [Stretch.ofSighting_of_found, Stretch.answer]
    dsimp only
    split
    · next hreturn => rw [outcome, hreturn]
    · next hreturn => rw [outcome, Reader.endUniversal, if_neg hreturn]

/-- Behind a carriage return it depends on how the buffer is filled. -/
theorem outcome_behind (text : Bytes) (reader : Reader) :
    outcome (.behind text reader) =
      match reader.fill with
      | (some failure, after) => (some (.error failure), after)
      | (none, after) => (close text after).outcome := by
  rw [outcome, Reader.endUniversal, if_pos rfl, Reader.skip]
  rcases reader.fill with ⟨_ | failure, _ | ⟨b, rest⟩, events, consumed⟩
  · rfl
  · dsimp only [close]
    by_cases hb : b = lineFeed
    · rw [if_pos hb, if_pos hb]
      rfl
    · rw [if_neg hb, if_neg hb]
      rfl
  · rfl
  · rfl

/-- **A round does not change what the call comes to.** -/
theorem outcome_step (state : CallState) : state.step.outcome = state.outcome := by
  cases state with
  | within gathered reader =>
      obtain ⟨_ | ⟨b, bytes⟩, events, consumed⟩ := reader
      · cases events with
        | nil => rfl
        | cons event events =>
            cases event with
            | data bytes =>
                cases bytes with
                | nil => rfl
                | cons b bytes => exact outcome_gather gathered b bytes events consumed
            | failure failure =>
                simp only [step, round, Reader.request]
                split
                · next hint =>
                    simp only [outcome, Sighting.among, Stretch.ofSighting, if_pos hint]
                · next hhard =>
                    simp only [outcome, Sighting.among, Stretch.ofSighting, if_neg hhard,
                      Stretch.answer]
            | ended => rfl
      · exact outcome_gather gathered b bytes events consumed
  | behind text reader =>
      obtain ⟨_ | ⟨b, bytes⟩, events, consumed⟩ := reader
      · cases events with
        | nil => rfl
        | cons event events =>
            cases event with
            | data bytes =>
                exact (outcome_behind text ⟨[], .data bytes :: events, consumed⟩).symm
            | failure failure =>
                simp only [step, round, Reader.request]
                split
                · next hint =>
                    rw [outcome_behind, outcome_behind, Reader.fill, Reader.fill, Reader.await,
                      if_pos hint]
                · next hhard =>
                    rw [outcome_behind, Reader.fill, Reader.await, if_neg hhard, outcome]
            | ended => rfl
      · exact (outcome_behind text ⟨b :: bytes, events, consumed⟩).symm
  | answered answer reader => rfl

/-- Nor do many. -/
theorem outcome_iterate (count : Nat) (state : CallState) :
    (step^[count] state).outcome = state.outcome := by
  induction count with
  | zero => rfl
  | succ count ih => rw [Function.iterate_succ_apply', outcome_step, ih]

/-- A call without rounds left is over. -/
theorem eq_answered_of_roundsLeft {state : CallState} (h : state.roundsLeft = 0) :
    state = .answered state.outcome.1 state.outcome.2 := by
  cases state with
  | within gathered reader =>
      rw [roundsLeft] at h
      split at h <;> omega
  | behind text reader =>
      rw [roundsLeft] at h
      split at h <;> omega
  | answered answer reader => rfl

/-- **Every call is over** after the rounds that it has left, and comes to what it was to come
to. -/
theorem iterate_step_roundsLeft (state : CallState) :
    step^[state.roundsLeft] state = .answered state.outcome.1 state.outcome.2 := by
  have hleft : (step^[state.roundsLeft] state).roundsLeft = 0 := by
    have hle := roundsLeft_iterate state.roundsLeft state
    omega
  rw [eq_answered_of_roundsLeft hleft, outcome_iterate]

end CallState

/-- **A call by its rounds.** It is over after two requests more than there are events, or earlier,
with the answer of `Reader.next`. -/
theorem Reader.next_eq_rounds (reader : Reader) :
    ∃ rounds ≤ reader.events.length + 2,
      CallState.step^[rounds] (.within [] reader) =
        .answered (reader.next .universal).1 (reader.next .universal).2 := by
  refine ⟨(CallState.within [] reader).roundsLeft, ?_, ?_⟩
  · rw [CallState.roundsLeft]
    split <;> omega
  · rw [next_eq_answer]
    exact CallState.iterate_step_roundsLeft (.within [] reader)

end LicenseHeader
