import LicenseHeader.Text.Utf8

/-!
# Decoding undoes encoding

The decoder is a machine that reads one byte at a time; the encoder writes a scalar as a
whole. They meet in the relation `State.Completes`: the machine, standing in a state, reads
some bytes without breaking off and completes a scalar with the last of them. From there on
two independent arguments remain.

* The decoder goes from scalar to scalar: it reads what completes a scalar at once
  (`decodeFrom_append`), and whatever it accepts begins with such bytes
  (`exists_completes`).
* What completes a scalar from between two scalars is its encoding and nothing else
  (`completes_ready_iff`). Here the widths are gone through, and the bounds that a state
  puts on the next byte are those at which overlong forms, surrogates and too large values
  begin.

## Main definitions

* `State.Completes`: the bytes that complete a scalar.

## Main results

* `completes_ready_iff`: they are its encoding.
* `decode_eq_ok_iff`: a byte string is decoded to the text that it is the encoding of.
-/

namespace LicenseHeader.Utf8

/-- From a state the machine reads some bytes, and the last of them completes a scalar. -/
inductive State.Completes : State → Bytes → Char → Prop
  | last {state : State} {b : UInt8} {c : Char} (h : state.step b = .scalar c) :
      Completes state [b] c
  | more {state next : State} {b : UInt8} {bytes : Bytes} {c : Char}
      (h : state.step b = .partway next) (rest : Completes next bytes c) :
      Completes state (b :: bytes) c

/-! ### First bytes -/

/-- A first byte is a scalar of ASCII, begins a scalar of two, three or four bytes with the
bounds for the second one, or breaks off. -/
theorem lead_cases (b : UInt8) :
    (b.toNat < 0x80 ∧ lead b = .scalar (Char.ofNat b.toNat)) ∨
    (0xC2 ≤ b.toNat ∧ b.toNat < 0xE0 ∧
      lead b = .partway (.inside (b.toNat - 0xC0) 0 0x80 0xBF)) ∨
    (0xE0 ≤ b.toNat ∧ b.toNat < 0xF0 ∧
      lead b = .partway (.inside (b.toNat - 0xE0) 1
        (if b.toNat = 0xE0 then 0xA0 else 0x80) (if b.toNat = 0xED then 0x9F else 0xBF))) ∨
    (0xF0 ≤ b.toNat ∧ b.toNat < 0xF5 ∧
      lead b = .partway (.inside (b.toNat - 0xF0) 2
        (if b.toNat = 0xF0 then 0x90 else 0x80) (if b.toNat = 0xF4 then 0x8F else 0xBF))) ∨
    ((0x80 ≤ b.toNat ∧ b.toNat < 0xC2 ∨ 0xF5 ≤ b.toNat) ∧ lead b = .broken) := by
  unfold lead
  simp only
  by_cases h1 : b.toNat < 0x80
  · exact .inl ⟨h1, if_pos h1⟩
  rw [if_neg h1]
  by_cases h2 : b.toNat < 0xC2
  · exact .inr (.inr (.inr (.inr ⟨.inl ⟨by omega, h2⟩, if_pos h2⟩)))
  rw [if_neg h2]
  by_cases h3 : b.toNat < 0xE0
  · exact .inr (.inl ⟨by omega, h3, if_pos h3⟩)
  rw [if_neg h3]
  by_cases h4 : b.toNat < 0xF0
  · exact .inr (.inr (.inl ⟨by omega, h4, if_pos h4⟩))
  rw [if_neg h4]
  by_cases h5 : b.toNat < 0xF5
  · exact .inr (.inr (.inr (.inl ⟨by omega, h5, if_pos h5⟩)))
  · exact .inr (.inr (.inr (.inr ⟨.inr (by omega), if_neg h5⟩)))

/-! ### From scalar to scalar -/

/-- The decoder reads at once what completes a scalar. -/
theorem decodeFrom_append {state : State} {bytes : Bytes} {c : Char}
    (h : state.Completes bytes c) (start here : Nat) (text : List Char) (rest : Bytes) :
    decodeFrom start here state text (bytes ++ rest) =
      decodeFrom (here + bytes.length) (here + bytes.length) .ready (c :: text) rest := by
  induction h generalizing start here with
  | last h =>
      rw [List.cons_append, decodeFrom, h]
      rfl
  | more h _ ih =>
      rw [List.cons_append, decodeFrom, h]
      simp only [ih, List.length_cons, Nat.add_assoc, Nat.add_comm 1]

/-- A byte that does not complete a scalar leaves the machine inside of one. -/
theorem step_ne_partway_ready (state : State) (b : UInt8) :
    state.step b ≠ .partway .ready := by
  cases state with
  | ready =>
      intro h
      rw [State.step] at h
      rcases lead_cases b with ⟨-, hl⟩ | ⟨-, -, hl⟩ | ⟨-, -, hl⟩ | ⟨-, -, hl⟩ | ⟨-, hl⟩ <;>
        simp [hl] at h
  | inside value more lo hi =>
      intro h
      simp only [State.step] at h
      split at h
      · cases more <;> simp at h
      · simp at h

/-- Bytes that the decoder accepts, and that are not over already, begin with some that
complete a scalar. -/
theorem exists_completes {state : State} {bytes : Bytes} {text out : List Char}
    {start here : Nat} (hne : state ≠ .ready ∨ bytes ≠ [])
    (h : decodeFrom start here state text bytes = .ok out) :
    ∃ front back c next, bytes = front ++ back ∧ state.Completes front c ∧
      decodeFrom next next .ready (c :: text) back = .ok out := by
  induction bytes generalizing state start here with
  | nil =>
      cases state with
      | ready => simp at hne
      | inside value more lo hi => simp [decodeFrom] at h
  | cons b bytes ih =>
      rw [decodeFrom] at h
      cases hstep : state.step b with
      | scalar c =>
          rw [hstep] at h
          exact ⟨[b], bytes, c, here + 1, rfl, .last hstep, h⟩
      | partway next =>
          rw [hstep] at h
          have hnext : next ≠ .ready := by
            rintro rfl
            exact step_ne_partway_ready state b hstep
          obtain ⟨front, back, c, place, rfl, hfront, hback⟩ := ih (.inl hnext) h
          exact ⟨b :: front, back, c, place, rfl, .more hstep hfront, hback⟩
      | broken =>
          rw [hstep] at h
          simp at h

/-! ### What completes a scalar -/

/-- Inside a scalar, with no byte to follow the next one, a byte within the bounds completes
it. -/
theorem completes_inside_zero {value lo hi : Nat} {bytes : Bytes} {c : Char} :
    (State.inside value 0 lo hi).Completes bytes c ↔
      ∃ b : UInt8, bytes = [b] ∧ lo ≤ b.toNat ∧ b.toNat ≤ hi ∧
        c = Char.ofNat (value * 64 + (b.toNat - 0x80)) := by
  constructor
  · intro h
    cases h with
    | @last _ b _ h =>
        simp only [State.step] at h
        split at h
        · next hb =>
            rw [Progress.scalar.injEq] at h
            exact ⟨b, rfl, hb.1, hb.2, h.symm⟩
        · simp at h
    | more h _ =>
        simp only [State.step] at h
        split at h <;> simp at h
  · rintro ⟨b, rfl, hlo, hhi, hc⟩
    rw [hc]
    refine .last ?_
    simp only [State.step]
    rw [if_pos ⟨hlo, hhi⟩]

/-- Inside a scalar, with more bytes to follow, a byte within the bounds leads on to
continuation bytes. -/
theorem completes_inside_succ {value more lo hi : Nat} {bytes : Bytes} {c : Char} :
    (State.inside value (more + 1) lo hi).Completes bytes c ↔
      ∃ (b : UInt8) (rest : Bytes), bytes = b :: rest ∧ lo ≤ b.toNat ∧ b.toNat ≤ hi ∧
        (State.inside (value * 64 + (b.toNat - 0x80)) more 0x80 0xBF).Completes rest c := by
  constructor
  · intro h
    cases h with
    | last h =>
        simp only [State.step] at h
        split at h <;> simp at h
    | @more _ next b rest _ h hrest =>
        simp only [State.step] at h
        split at h
        · next hb =>
            rw [Progress.partway.injEq] at h
            subst h
            exact ⟨b, rest, rfl, hb.1, hb.2, hrest⟩
        · simp at h
  · rintro ⟨b, rest, rfl, hlo, hhi, hrest⟩
    refine .more ?_ hrest
    simp only [State.step]
    rw [if_pos ⟨hlo, hhi⟩]

/-! ### Numbers of scalars -/

/-- The scalar of a number that is one has that number. -/
theorem toNat_ofNat {n : Nat} (h : n.isValidChar) : (Char.ofNat n).toNat = n := by
  rw [Char.ofNat, dif_pos h]
  rfl

/-- The encoding of the scalar of a number. -/
theorem utf8EncodeChar_ofNat {n : Nat} (h : n.isValidChar) :
    String.utf8EncodeChar (Char.ofNat n) =
      if n ≤ 0x7F then [UInt8.ofNat n]
      else if n ≤ 0x7FF then [UInt8.ofNat (n / 64 % 32 + 192), UInt8.ofNat (n % 64 + 128)]
      else if n ≤ 0xFFFF then
        [UInt8.ofNat (n / 4096 % 16 + 224), UInt8.ofNat (n / 64 % 64 + 128),
          UInt8.ofNat (n % 64 + 128)]
      else
        [UInt8.ofNat (n / 262144 % 8 + 240), UInt8.ofNat (n / 4096 % 64 + 128),
          UInt8.ofNat (n / 64 % 64 + 128), UInt8.ofNat (n % 64 + 128)] := by
  have hval : (Char.ofNat n).val.toNat = n := toNat_ofNat h
  rw [String.utf8EncodeChar, hval]

/-- A byte is given by its number. -/
theorem ofNat_eq {n : Nat} {b : UInt8} (h : n = b.toNat) : UInt8.ofNat n = b := by
  rw [h, UInt8.ofNat_toNat]

/-- What completes a scalar from between two scalars is its encoding. -/
theorem eq_utf8EncodeChar_of_completes {bytes : Bytes} {c : Char}
    (h : State.ready.Completes bytes c) : bytes = String.utf8EncodeChar c := by
  cases h with
  | @last _ b _ h =>
      rw [State.step] at h
      rcases lead_cases b with ⟨hb, hl⟩ | ⟨-, -, hl⟩ | ⟨-, -, hl⟩ | ⟨-, -, hl⟩ | ⟨-, hl⟩ <;>
        rw [hl] at h <;> simp only [reduceCtorEq, Progress.scalar.injEq] at h
      subst h
      rw [utf8EncodeChar_ofNat (.inl (by omega)), if_pos (by omega), UInt8.ofNat_toNat]
  | @more _ next b rest _ h hrest =>
      rw [State.step] at h
      rcases lead_cases b with ⟨-, hl⟩ | ⟨h1, h2, hl⟩ | ⟨h1, h2, hl⟩ | ⟨h1, h2, hl⟩ | ⟨-, hl⟩ <;>
        rw [hl] at h <;> simp only [reduceCtorEq, Progress.partway.injEq] at h <;> subst h
      · obtain ⟨d, rfl, hlo, hhi, hc⟩ := completes_inside_zero.mp hrest
        rw [hc]
        rw [utf8EncodeChar_ofNat (.inl (by omega)), if_neg (by omega), if_pos (by omega),
          @ofNat_eq _ b (by omega), @ofNat_eq _ d (by omega)]
      · obtain ⟨d, rest, rfl, hlo, hhi, hrest⟩ := completes_inside_succ.mp hrest
        obtain ⟨e, rfl, hlo', hhi', hc⟩ := completes_inside_zero.mp hrest
        rw [hc]
        have hd : 0x80 ≤ d.toNat := by split at hlo <;> omega
        have hd' : d.toNat ≤ 0xBF := by split at hhi <;> omega
        -- the bounds on the second byte exclude overlong forms and surrogates
        have hlong : b.toNat = 0xE0 → 0xA0 ≤ d.toNat := fun h => by rwa [if_pos h] at hlo
        have hhigh : b.toNat = 0xED → d.toNat ≤ 0x9F := fun h => by rwa [if_pos h] at hhi
        clear hlo hhi hl
        have hvalid : (((b.toNat - 0xE0) * 64 + (d.toNat - 0x80)) * 64 +
            (e.toNat - 0x80)).isValidChar := by
          unfold Nat.isValidChar
          omega
        rw [utf8EncodeChar_ofNat hvalid, if_neg (by omega), if_neg (by omega),
          if_pos (by omega), @ofNat_eq _ b (by omega), @ofNat_eq _ d (by omega),
          @ofNat_eq _ e (by omega)]
      · obtain ⟨d, rest, rfl, hlo, hhi, hrest⟩ := completes_inside_succ.mp hrest
        obtain ⟨e, rest, rfl, hlo', hhi', hrest⟩ := completes_inside_succ.mp hrest
        obtain ⟨f, rfl, hlo'', hhi'', hc⟩ := completes_inside_zero.mp hrest
        rw [hc]
        have hd : 0x80 ≤ d.toNat := by split at hlo <;> omega
        have hd' : d.toNat ≤ 0xBF := by split at hhi <;> omega
        -- the bounds on the second byte exclude overlong forms and too large values
        have hlong : b.toNat = 0xF0 → 0x90 ≤ d.toNat := fun h => by rwa [if_pos h] at hlo
        have hhigh : b.toNat = 0xF4 → d.toNat ≤ 0x8F := fun h => by rwa [if_pos h] at hhi
        clear hlo hhi hl
        have hvalid : ((((b.toNat - 0xF0) * 64 + (d.toNat - 0x80)) * 64 +
            (e.toNat - 0x80)) * 64 + (f.toNat - 0x80)).isValidChar := by
          unfold Nat.isValidChar
          omega
        rw [utf8EncodeChar_ofNat hvalid, if_neg (by omega), if_neg (by omega),
          if_neg (by omega), @ofNat_eq _ b (by omega), @ofNat_eq _ d (by omega),
          @ofNat_eq _ e (by omega), @ofNat_eq _ f (by omega)]

/-- The encoding of a scalar completes it from between two scalars. -/
theorem completes_utf8EncodeChar (c : Char) :
    State.ready.Completes (String.utf8EncodeChar c) c := by
  have hsize : ∀ n, n < 256 → (UInt8.ofNat n).toNat = n := fun n h =>
    UInt8.toNat_ofNat_of_lt' h
  have hchar : ∀ n, n = c.val.toNat → c = Char.ofNat n := by
    rintro n rfl
    exact (Char.ofNat_toNat c).symm
  have hvalid : c.val.toNat < 0xD800 ∨ 0xDFFF < c.val.toNat ∧ c.val.toNat < 0x110000 :=
    c.valid
  rw [String.utf8EncodeChar]
  generalize c.val.toNat = n at hchar hvalid
  split
  · have h1 := hsize n (by omega)
    refine .last ?_
    rw [State.step]
    rcases lead_cases (UInt8.ofNat n) with ⟨-, hl⟩ | ⟨_, _, _⟩ | ⟨_, _, _⟩ | ⟨_, _, _⟩ | ⟨_, _⟩
    · rw [hl, h1, ← hchar n rfl]
    all_goals omega
  split
  · have h1 := hsize (n / 64 % 32 + 192) (by omega)
    have h2 := hsize (n % 64 + 128) (by omega)
    generalize UInt8.ofNat (n / 64 % 32 + 192) = b at h1
    generalize UInt8.ofNat (n % 64 + 128) = d at h2
    rcases lead_cases b with ⟨_, _⟩ | ⟨-, -, hl⟩ | ⟨_, _, _⟩ | ⟨_, _, _⟩ | ⟨_, _⟩
    · omega
    · refine .more hl (completes_inside_zero.mpr
        ⟨d, rfl, by omega, by omega, hchar _ (by omega)⟩)
    all_goals omega
  split
  · have h1 := hsize (n / 4096 % 16 + 224) (by omega)
    have h2 := hsize (n / 64 % 64 + 128) (by omega)
    have h3 := hsize (n % 64 + 128) (by omega)
    generalize UInt8.ofNat (n / 4096 % 16 + 224) = b at h1
    generalize UInt8.ofNat (n / 64 % 64 + 128) = d at h2
    generalize UInt8.ofNat (n % 64 + 128) = e at h3
    rcases lead_cases b with ⟨_, _⟩ | ⟨_, _, _⟩ | ⟨-, -, hl⟩ | ⟨_, _, _⟩ | ⟨_, _⟩
    · omega
    · omega
    · refine .more hl (completes_inside_succ.mpr ⟨d, [e], rfl, ?_, ?_,
        completes_inside_zero.mpr ⟨e, rfl, by omega, by omega, hchar _ (by omega)⟩⟩)
      · split <;> omega
      · split <;> omega
    all_goals omega
  · have h1 := hsize (n / 262144 % 8 + 240) (by omega)
    have h2 := hsize (n / 4096 % 64 + 128) (by omega)
    have h3 := hsize (n / 64 % 64 + 128) (by omega)
    have h4 := hsize (n % 64 + 128) (by omega)
    generalize UInt8.ofNat (n / 262144 % 8 + 240) = b at h1
    generalize UInt8.ofNat (n / 4096 % 64 + 128) = d at h2
    generalize UInt8.ofNat (n / 64 % 64 + 128) = e at h3
    generalize UInt8.ofNat (n % 64 + 128) = f at h4
    rcases lead_cases b with ⟨_, _⟩ | ⟨_, _, _⟩ | ⟨_, _, _⟩ | ⟨-, -, hl⟩ | ⟨_, _⟩
    · omega
    · omega
    · omega
    · refine .more hl (completes_inside_succ.mpr ⟨d, [e, f], rfl, ?_, ?_,
        completes_inside_succ.mpr ⟨e, [f], rfl, by omega, by omega,
          completes_inside_zero.mpr ⟨f, rfl, by omega, by omega, hchar _ (by omega)⟩⟩⟩)
      · split <;> omega
      · split <;> omega
    · omega

/-- **What completes a scalar is its encoding.** -/
theorem completes_ready_iff {bytes : Bytes} {c : Char} :
    State.ready.Completes bytes c ↔ bytes = String.utf8EncodeChar c :=
  ⟨eq_utf8EncodeChar_of_completes, fun h => h ▸ completes_utf8EncodeChar c⟩

/-! ### Texts -/

/-- The encoding of a text is that of its first scalar and that of the others. -/
theorem encode_cons (c : Char) (text : List Char) :
    encode (c :: text) = String.utf8EncodeChar c ++ encode text :=
  List.flatMap_cons

/-- The encoding of two texts one after the other. -/
theorem encode_append (front back : List Char) :
    encode (front ++ back) = encode front ++ encode back :=
  List.flatMap_append

/-- The decoder reads the encoding of a text. -/
theorem decodeFrom_encode (place : Nat) (done text : List Char) :
    decodeFrom place place .ready done (encode text) = .ok (done.reverse ++ text) := by
  induction text generalizing place done with
  | nil => rw [List.append_nil]; rfl
  | cons c text ih =>
      rw [encode_cons, decodeFrom_append (completes_utf8EncodeChar c), ih]
      rw [List.reverse_cons, List.append_assoc]
      rfl

/-- What the decoder accepts is the encoding of what it reads. -/
theorem exists_encode_of_decodeFrom (place : Nat) {bytes : Bytes} {done out : List Char}
    (h : decodeFrom place place .ready done bytes = .ok out) :
    ∃ text, out = done.reverse ++ text ∧ bytes = encode text := by
  induction hn : bytes.length using Nat.strongRecOn generalizing place done bytes with
  | ind n ih =>
      by_cases hbytes : bytes = []
      · subst hbytes
        rw [decodeFrom, Except.ok.injEq] at h
        exact ⟨[], by rw [← h, List.append_nil], rfl⟩
      · obtain ⟨front, back, c, next, rfl, hfront, hback⟩ := exists_completes (.inr hbytes) h
        have hlength : back.length < n := by
          have hne : front ≠ [] := by
            rintro rfl
            cases hfront
          have := List.length_pos_iff.mpr hne
          rw [← hn, List.length_append]
          omega
        obtain ⟨text, hout, rfl⟩ := ih _ hlength next hback rfl
        refine ⟨c :: text, ?_, ?_⟩
        · rw [hout, List.reverse_cons, List.append_assoc]
          rfl
        · rw [encode_cons, completes_ready_iff.mp hfront]

/-- **Decoding undoes encoding.** A byte string is decoded to a text if and only if it is
the encoding of that text. -/
theorem decode_eq_ok_iff {bytes : Bytes} {text : List Char} :
    decode bytes = .ok text ↔ bytes = encode text := by
  constructor
  · intro h
    obtain ⟨out, rfl, hbytes⟩ := exists_encode_of_decodeFrom 0 h
    exact hbytes
  · rintro rfl
    exact decodeFrom_encode 0 [] text

/-- A text has one encoding only, and an encoding one text. -/
theorem encode_inj {text other : Line} : encode text = encode other ↔ text = other := by
  constructor
  · intro h
    have hdecode := decode_eq_ok_iff.mpr h
    rw [decode_eq_ok_iff.mpr rfl] at hdecode
    exact Except.ok.inj hdecode
  · exact congrArg encode

/-- Decoding fails on the byte strings that are not valid. -/
theorem exists_decode_error_iff {bytes : Bytes} :
    (∃ e, decode bytes = .error e) ↔ ¬IsValid bytes := by
  constructor
  · rintro ⟨e, he⟩ ⟨text, rfl⟩
    rw [decode_eq_ok_iff.mpr rfl] at he
    exact absurd he (by simp)
  · intro h
    cases hd : decode bytes with
    | ok text => exact absurd ⟨text, decode_eq_ok_iff.mp hd⟩ h
    | error e => exact ⟨e, rfl⟩

end LicenseHeader.Utf8
