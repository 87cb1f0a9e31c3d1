import LicenseHeader.Text.Basic

/-!
# UTF-8

Bytes are decoded one at a time by a small machine. Its state says how much of a scalar
has been read and between which bounds the next byte must lie, so that overlong forms,
surrogates and values past the last scalar are refused at the first byte that rules them
out. The bytes read up to that point are the *maximal invalid part*: an error reports its
place and length, and a lossy reading puts one replacement character in its stead.

## Main definitions

* `Utf8.encode`: the bytes of a text.
* `Utf8.State`, `Utf8.State.step`: the machine.
* `Utf8.decode`: the text of a byte string, or the first error in it.
* `Utf8.decodeLossy`: the text with every maximal invalid part replaced by U+FFFD.
* `Utf8.front?`: the scalar at the front of a byte string.
-/

namespace LicenseHeader.Utf8

/-- The bytes of a text. -/
def encode (text : List Char) : Bytes :=
  text.flatMap String.utf8EncodeChar

/-! ### The machine -/

/-- Where decoding stands between two bytes. -/
inductive State where
  /-- Every byte so far belongs to a finished scalar. -/
  | ready
  /-- Inside a scalar: `value` holds its bits so far, the next byte must lie between `lo`
  and `hi`, and `more` continuation bytes follow that one. -/
  | inside (value more lo hi : Nat)
  deriving DecidableEq, Repr

/-- What one byte does to the machine. -/
inductive Progress where
  /-- The byte completes a scalar. -/
  | scalar (c : Char)
  /-- The byte continues a scalar that is not complete yet. -/
  | partway (state : State)
  /-- No valid text goes on with this byte here. -/
  | broken
  deriving DecidableEq, Repr

/-- The first byte of a scalar. The bounds on the second byte exclude overlong forms
(after `E0` and `F0`), surrogates (after `ED`) and values past U+10FFFF (after `F4`). -/
def lead (b : UInt8) : Progress :=
  let n := b.toNat
  if n < 0x80 then .scalar (Char.ofNat n)
  else if n < 0xC2 then .broken
  else if n < 0xE0 then .partway (.inside (n - 0xC0) 0 0x80 0xBF)
  else if n < 0xF0 then
    .partway (.inside (n - 0xE0) 1
      (if n = 0xE0 then 0xA0 else 0x80) (if n = 0xED then 0x9F else 0xBF))
  else if n < 0xF5 then
    .partway (.inside (n - 0xF0) 2
      (if n = 0xF0 then 0x90 else 0x80) (if n = 0xF4 then 0x8F else 0xBF))
  else .broken

/-- One step of the machine. A continuation byte adds six bits to the value. -/
def State.step : State → UInt8 → Progress
  | .ready, b => lead b
  | .inside value more lo hi, b =>
    if lo ≤ b.toNat ∧ b.toNat ≤ hi then
      let value := value * 64 + (b.toNat - 0x80)
      match more with
      | 0 => .scalar (Char.ofNat value)
      | more + 1 => .partway (.inside value more 0x80 0xBF)
    else .broken

/-! ### Strict decoding -/

/-- Why a byte string is not UTF-8. -/
inductive DecodeError where
  /-- The `width` bytes from `index` on are a maximal invalid part. -/
  | invalid (index width : Nat)
  /-- The bytes end inside a scalar that starts at `index`. -/
  | incomplete (index : Nat)
  deriving DecidableEq, Repr

/-- The wording of a decoding error. -/
def DecodeError.message : DecodeError → String
  | .invalid index width =>
    "invalid utf-8 sequence of " ++ toString width ++ " bytes from index " ++ toString index
  | .incomplete index => "incomplete utf-8 byte sequence from index " ++ toString index

/-- Decodes from the byte at index `here`, in a scalar that began at index `start`; `text`
holds the scalars read so far, the last one first. -/
def decodeFrom (start here : Nat) (state : State) (text : List Char) :
    Bytes → Except DecodeError (List Char)
  | [] =>
    match state with
    | .ready => .ok text.reverse
    | .inside .. => .error (.incomplete start)
  | b :: rest =>
    match state.step b with
    | .scalar c => decodeFrom (here + 1) (here + 1) .ready (c :: text) rest
    | .partway state => decodeFrom start (here + 1) state text rest
    | .broken => .error (.invalid start (max 1 (here - start)))

/-- The text that a byte string spells, or the first error in it. -/
def decode (bytes : Bytes) : Except DecodeError (List Char) :=
  decodeFrom 0 0 .ready [] bytes

/-- A byte string is valid when it spells some text. -/
def IsValid (bytes : Bytes) : Prop :=
  ∃ text, bytes = encode text

/-! ### Lossy decoding -/

/-- The replacement character. -/
def replacement : Char := '\uFFFD'

/-- Decodes with replacement; `text` holds the scalars written so far, the last one first.
A byte that breaks off a scalar ends one invalid part and is then read afresh. -/
def decodeLossyFrom (state : State) (text : List Char) : Bytes → List Char
  | [] =>
    match state with
    | .ready => text.reverse
    | .inside .. => (replacement :: text).reverse
  | b :: rest =>
    match state.step b with
    | .scalar c => decodeLossyFrom .ready (c :: text) rest
    | .partway state => decodeLossyFrom state text rest
    | .broken =>
      match state with
      | .ready => decodeLossyFrom .ready (replacement :: text) rest
      | .inside .. =>
        match lead b with
        | .scalar c => decodeLossyFrom .ready (c :: replacement :: text) rest
        | .partway state => decodeLossyFrom state (replacement :: text) rest
        | .broken => decodeLossyFrom .ready (replacement :: replacement :: text) rest

/-- The text of a byte string, every maximal invalid part replaced by U+FFFD. -/
def decodeLossy (bytes : Bytes) : List Char :=
  decodeLossyFrom .ready [] bytes

/-! ### Single scalars -/

/-- The scalar that the machine completes first, with the number of bytes read. -/
def frontFrom (state : State) (width : Nat) : Bytes → Option (Char × Nat)
  | [] => none
  | b :: rest =>
    match state.step b with
    | .scalar c => some (c, width + 1)
    | .partway state => frontFrom state (width + 1) rest
    | .broken => none

/-- The scalar at the front of a byte string, with its width, if a valid one stands
there. -/
def front? (bytes : Bytes) : Option (Char × Nat) :=
  frontFrom .ready 0 bytes

/-- Whether a byte only ever continues a scalar. -/
def isContinuation (b : UInt8) : Bool :=
  decide (0x80 ≤ b.toNat ∧ b.toNat < 0xC0)

/-- Steps back over at most `room` continuation bytes of a reversed byte string, and gives
what was passed, in reading order. -/
def stepBack (room : Nat) (passed : Bytes) : Bytes → Bytes
  | [] => passed
  | b :: earlier =>
    match room with
    | 0 => b :: passed
    | room + 1 =>
      if isContinuation b then
        match earlier with
        | [] => b :: passed
        | _ => stepBack room (b :: passed) earlier
      else b :: passed

/-- The scalar found by stepping back from the end of a byte string, which is given in
reverse, to the nearest byte that may start one, at most four bytes back. -/
def back? (reversed : Bytes) : Option Char :=
  (front? (stepBack 3 [] reversed)).map Prod.fst

end LicenseHeader.Utf8
