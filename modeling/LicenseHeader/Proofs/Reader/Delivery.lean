import LicenseHeader.Proofs.Text.Cuts
import LicenseHeader.Reader.Script

/-!
# Readers that deliver a content

A reader hands over its bytes in the pieces in which they arrive, and is interrupted in
between. What it does next depends on none of this, but only on the bytes that are still to
come and on what follows them. `Reader.Delivers` says just that much of a reader: the bytes
that have arrived, together with those of the next events, are a given content, and a given
script follows. Every operation of a reader has a lemma in these terms, so the pieces need
not be looked at again.

The script that follows is arbitrary. Where the content holds the byte that is looked for,
it is not touched (`Delivers.takeUntil_of_stop`), and where it does not, the reader comes to
it with the content gathered (`Delivers.takeUntil_of_clean`).

## Main definitions

* `Reader.Delivers`: the content that a reader delivers before a script.

## Main results

* `Reader.Delivers.takeUntil_of_stop`, `Reader.Delivers.takeUntil_of_clean`: taking bytes up
  to a stop byte.
* `Reader.Delivers.skip_of_eq`, `Reader.Delivers.skip_of_ne`, `Reader.Delivers.skip_nil`:
  skipping a byte.
-/

namespace LicenseHeader

/-- The bytes that have arrived and those of the next events make up `content`, and the
events behind these are `later`. -/
def Reader.Delivers (reader : Reader) (content : Bytes) (later : List Event) : Prop :=
  ∃ script, reader.events = script ++ later ∧
    (∀ event ∈ script, event.isDelivery = true) ∧
    reader.buffered ++ Event.contentOf script = content

/-- A reader at the beginning of a script that delivers a content. -/
theorem Event.Delivers.ofEvents {script : List Event} {content : Bytes}
    (h : Event.Delivers script content) : (Reader.ofEvents script).Delivers content [] :=
  ⟨script, (List.append_nil script).symm, h.1, h.2⟩

/-- A script that delivers a content, with a continuation. -/
theorem Event.Delivers.ofEvents_append {script : List Event} {content : Bytes}
    (h : Event.Delivers script content) (later : List Event) :
    (Reader.ofEvents (script ++ later)).Delivers content later :=
  ⟨script, rfl, h.1, h.2⟩

/-- No events bring no bytes. -/
@[simp] theorem Event.contentOf_nil : Event.contentOf [] = [] := rfl

/-- The bytes of a script are those of its first event and of the others. -/
@[simp] theorem Event.contentOf_cons (event : Event) (script : List Event) :
    Event.contentOf (event :: script) = event.bytes ++ Event.contentOf script := by
  rw [Event.contentOf, List.flatMap_cons, Event.contentOf]

/-- The bytes of two scripts, one behind the other. -/
@[simp] theorem Event.contentOf_append (script later : List Event) :
    Event.contentOf (script ++ later) = Event.contentOf script ++ Event.contentOf later :=
  List.flatMap_append

/-! ### Looking through bytes -/

section Stops

variable {stops : UInt8 → Bool}

/-- Bytes without a stop byte are gathered. -/
theorem Sighting.among_of_clean {bytes : Bytes} (h : ∀ b ∈ bytes, stops b = false)
    (gathered : Bytes) (consumed : Nat) :
    Sighting.among stops gathered consumed bytes =
      ⟨bytes.reverse ++ gathered, consumed + bytes.length, none⟩ := by
  induction bytes generalizing gathered consumed with
  | nil => rfl
  | cons b bytes ih =>
      rw [List.forall_mem_cons] at h
      rw [among, if_neg (by simp [h.1]), ih h.2, List.reverse_cons, List.append_assoc,
        List.length_cons, Nat.add_right_comm, Nat.add_assoc]
      rfl

/-- The bytes before the first stop byte are gathered. -/
theorem Sighting.among_of_stop {text : Bytes} {b : UInt8}
    (h : ∀ c ∈ text, stops c = false) (hb : stops b = true) (rest gathered : Bytes)
    (consumed : Nat) :
    Sighting.among stops gathered consumed (text ++ b :: rest) =
      ⟨text.reverse ++ gathered, consumed + text.length + 1, some (b, rest)⟩ := by
  induction text generalizing gathered consumed with
  | nil => rw [List.nil_append, among, if_pos hb]; rfl
  | cons c text ih =>
      rw [List.forall_mem_cons] at h
      rw [List.cons_append, among, if_neg (by simp [h.1]), ih h.2, List.reverse_cons,
        List.append_assoc, List.length_cons, Nat.add_right_comm consumed 1, Nat.add_assoc
          consumed]
      rfl

/-- A stop byte that has been found ends the search, whatever may happen later. -/
theorem Stretch.ofSighting_of_found (gathered rest : Bytes) (consumed : Nat) (b : UInt8)
    (events : List Event) :
    Stretch.ofSighting stops ⟨gathered, consumed, some (b, rest)⟩ events =
      ⟨gathered.reverse, .at b, ⟨rest, events, consumed⟩⟩ := by
  cases events <;> rfl

/-- A delivery adds its bytes to those that are looked through. -/
theorem Stretch.ofSighting_of_delivery {event : Event} (h : event.isDelivery = true)
    (gathered : Bytes) (consumed : Nat) (events : List Event) :
    Stretch.ofSighting stops ⟨gathered, consumed, none⟩ (event :: events) =
      Stretch.ofSighting stops (.among stops gathered consumed event.bytes) events := by
  cases event with
  | data bytes =>
      cases bytes with
      | nil => simp [Event.isDelivery] at h
      | cons b bytes => rfl
  | failure failure =>
      have hint : failure.isInterruption = true := h
      simp only [ofSighting, if_pos hint]
      rfl
  | ended => simp [Event.isDelivery] at h

/-- A content without a stop byte is gathered on the way to what follows it. -/
theorem Stretch.ofSighting_of_clean {script : List Event}
    (hscript : ∀ event ∈ script, event.isDelivery = true) {buffered : Bytes}
    (hclean : ∀ b ∈ buffered ++ Event.contentOf script, stops b = false)
    (gathered : Bytes) (consumed : Nat) (later : List Event) :
    Stretch.ofSighting stops (.among stops gathered consumed buffered) (script ++ later) =
      Stretch.ofSighting stops
        ⟨(buffered ++ Event.contentOf script).reverse ++ gathered,
          consumed + (buffered ++ Event.contentOf script).length, none⟩ later := by
  induction script generalizing buffered gathered consumed with
  | nil =>
      rw [Event.contentOf_nil, List.append_nil] at hclean ⊢
      rw [Sighting.among_of_clean hclean, List.nil_append]
  | cons event script ih =>
      rw [List.forall_mem_cons] at hscript
      rw [Event.contentOf_cons, List.forall_mem_append] at hclean
      rw [Sighting.among_of_clean hclean.1, List.cons_append,
        ofSighting_of_delivery hscript.1, ih hscript.2 hclean.2, Event.contentOf_cons]
      simp only [List.reverse_append, List.append_assoc, List.length_append, Nat.add_assoc]

/-- A content with a stop byte is gathered up to the first of them, which is consumed. What
is left of the content comes next, with what follows it. -/
theorem Stretch.ofSighting_of_stop {script : List Event}
    (hscript : ∀ event ∈ script, event.isDelivery = true) {buffered text rest : Bytes}
    {b : UInt8} (hcontent : buffered ++ Event.contentOf script = text ++ b :: rest)
    (hclean : ∀ c ∈ text, stops c = false) (hb : stops b = true)
    (gathered : Bytes) (consumed : Nat) (later : List Event) :
    ∃ reader : Reader,
      Stretch.ofSighting stops (.among stops gathered consumed buffered)
          (script ++ later) = ⟨gathered.reverse ++ text, .at b, reader⟩ ∧
        reader.Delivers rest later ∧ reader.consumed = consumed + text.length + 1 := by
  induction script generalizing buffered text gathered consumed with
  | nil =>
      rw [Event.contentOf_nil, List.append_nil] at hcontent
      subst hcontent
      rw [Sighting.among_of_stop hclean hb, ofSighting_of_found]
      refine ⟨_, by rw [List.reverse_append, List.reverse_reverse], ⟨[], rfl, hscript, ?_⟩,
        rfl⟩
      rw [Event.contentOf_nil, List.append_nil]
  | cons event script ih =>
      rcases append_eq_append_cons hcontent with ⟨more, rfl, rfl⟩ | ⟨ahead, rfl, hahead⟩
      · rw [Sighting.among_of_stop hclean hb, ofSighting_of_found]
        exact ⟨_, by rw [List.reverse_append, List.reverse_reverse],
          ⟨event :: script, rfl, hscript, rfl⟩, rfl⟩
      · -- the stop byte has not arrived yet
        rw [List.forall_mem_append] at hclean
        rw [List.forall_mem_cons] at hscript
        rw [Event.contentOf_cons] at hahead
        obtain ⟨reader, hgo, hdelivers, hconsumed⟩ :=
          ih hscript.2 hahead hclean.2 (buffered.reverse ++ gathered)
            (consumed + buffered.length)
        rw [Sighting.among_of_clean hclean.1, List.cons_append,
          ofSighting_of_delivery hscript.1, hgo, List.reverse_append, List.reverse_reverse,
          List.append_assoc]
        refine ⟨reader, rfl, hdelivers, ?_⟩
        rw [hconsumed, List.length_append]
        omega

/-- A reader that is about to deliver a stop byte takes the bytes before the first one. -/
theorem Reader.Delivers.takeUntil_of_stop {reader : Reader} {text rest : Bytes} {b : UInt8}
    {later : List Event} (h : reader.Delivers (text ++ b :: rest) later)
    (hclean : ∀ c ∈ text, stops c = false) (hb : stops b = true) :
    ∃ after : Reader, reader.takeUntil stops = ⟨text, .at b, after⟩ ∧
      after.Delivers rest later ∧ after.consumed = reader.consumed + text.length + 1 := by
  obtain ⟨script, hevents, hscript, hcontent⟩ := h
  rw [takeUntil, hevents]
  exact Stretch.ofSighting_of_stop hscript hcontent hclean hb [] reader.consumed later

/-- A reader that is about to deliver no stop byte comes to what follows its content. -/
theorem Reader.Delivers.takeUntil_of_clean {reader : Reader} {content : Bytes}
    {later : List Event} (h : reader.Delivers content later)
    (hclean : ∀ b ∈ content, stops b = false) :
    reader.takeUntil stops =
      Stretch.ofSighting stops
        ⟨content.reverse, reader.consumed + content.length, none⟩ later := by
  obtain ⟨script, hevents, hscript, hcontent⟩ := h
  subst hcontent
  rw [takeUntil, hevents, Stretch.ofSighting_of_clean hscript hclean, List.append_nil]

end Stops

/-! ### Skipping a byte -/

/-- Waiting for bytes passes over interruptions, and meets the first bytes of a content or
what follows it. -/
theorem Reader.await_of_deliveries {script : List Event}
    (hscript : ∀ event ∈ script, event.isDelivery = true) (consumed : Nat)
    (later : List Event) :
    (Event.contentOf script = [] ∧
        Reader.await consumed (script ++ later) = Reader.await consumed later) ∨
      ∃ b bytes reader, Reader.await consumed (script ++ later) = (none, reader) ∧
        reader.buffered = b :: bytes ∧ reader.Delivers (Event.contentOf script) later ∧
        reader.consumed = consumed := by
  induction script with
  | nil => exact .inl ⟨rfl, rfl⟩
  | cons event script ih =>
      rw [List.forall_mem_cons] at hscript
      obtain ⟨hevent, hscript⟩ := hscript
      cases event with
      | data bytes =>
          cases bytes with
          | nil => simp [Event.isDelivery] at hevent
          | cons b bytes =>
              exact .inr ⟨b, bytes, _, rfl, rfl, ⟨script, rfl, hscript, rfl⟩, rfl⟩
      | failure failure =>
          have hint : failure.isInterruption = true := hevent
          rw [List.cons_append, await, if_pos hint]
          exact ih hscript
      | ended => simp [Event.isDelivery] at hevent

/-- A reader that is about to deliver a byte fills its buffer with it. -/
theorem Reader.Delivers.fill_of_cons {reader : Reader} {b : UInt8} {rest : Bytes}
    {later : List Event} (h : reader.Delivers (b :: rest) later) :
    ∃ bytes after, reader.fill = (none, after) ∧ after.buffered = b :: bytes ∧
      after.Delivers (b :: rest) later ∧ after.consumed = reader.consumed := by
  obtain ⟨script, hevents, hscript, hcontent⟩ := h
  cases hbuffered : reader.buffered with
  | nil =>
      rw [hbuffered, List.nil_append] at hcontent
      rw [fill, hbuffered, hevents, ← hcontent]
      rcases await_of_deliveries hscript reader.consumed later with
        ⟨hnil, -⟩ | ⟨c, bytes, after, hawait, hbuffer, hdelivers, hconsumed⟩
      · simp [hnil] at hcontent
      · obtain ⟨_, -, -, hahead⟩ := id hdelivers
        rw [hbuffer, hcontent, List.cons_append, List.cons.injEq] at hahead
        obtain ⟨rfl, -⟩ := hahead
        exact ⟨bytes, after, hawait, hbuffer, hdelivers, hconsumed⟩
  | cons c bytes =>
      rw [hbuffered, List.cons_append, List.cons.injEq] at hcontent
      obtain ⟨rfl, rfl⟩ := hcontent
      rw [fill, hbuffered]
      exact ⟨bytes, reader, rfl, hbuffered,
        ⟨script, hevents, hscript, by rw [hbuffered]; rfl⟩, rfl⟩

variable {reader : Reader} {b c : UInt8} {rest : Bytes} {later : List Event}

/-- A byte that comes next is skipped. -/
theorem Reader.Delivers.skip_of_eq (h : reader.Delivers (b :: rest) later) :
    ∃ after : Reader, reader.skip b = (none, after) ∧ after.Delivers rest later ∧
      after.consumed = reader.consumed + 1 := by
  obtain ⟨bytes, after, hfill, hbuffer, ⟨script, hevents, hscript, hcontent⟩, hconsumed⟩ :=
    h.fill_of_cons
  rw [hbuffer, List.cons_append, List.cons.injEq] at hcontent
  rw [skip, hfill]
  simp only [hbuffer, if_true]
  exact ⟨_, rfl, ⟨script, hevents, hscript, hcontent.2⟩, congrArg (· + 1) hconsumed⟩

/-- Another byte that comes next is left. -/
theorem Reader.Delivers.skip_of_ne (h : reader.Delivers (c :: rest) later) (hne : c ≠ b) :
    ∃ after : Reader, reader.skip b = (none, after) ∧ after.Delivers (c :: rest) later ∧
      after.consumed = reader.consumed := by
  obtain ⟨bytes, after, hfill, hbuffer, hdelivers, hconsumed⟩ := h.fill_of_cons
  rw [skip, hfill]
  simp only [hbuffer]
  rw [if_neg hne]
  exact ⟨after, rfl, hdelivers, hconsumed⟩

/-- Where no byte is left of the content, skipping is up to what follows it. -/
theorem Reader.Delivers.skip_nil (h : reader.Delivers [] later) :
    reader.skip b = Reader.skip b ⟨[], later, reader.consumed⟩ := by
  obtain ⟨script, hevents, hscript, hcontent⟩ := h
  obtain ⟨hbuffered, hnone⟩ := List.append_eq_nil_iff.mp hcontent
  have hawait : reader.fill = Reader.await reader.consumed later := by
    rw [fill, hbuffered, hevents]
    rcases await_of_deliveries hscript reader.consumed later with
      ⟨-, hawait⟩ | ⟨c, bytes, after, -, hbuffer, ⟨_, -, -, hahead⟩, -⟩
    · exact hawait
    · simp [hbuffer, hnone] at hahead
  rw [skip, hawait, skip]
  rfl

end LicenseHeader
