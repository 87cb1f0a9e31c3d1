import LicenseHeader.Text.Basic

/-!
# Failures

What can go wrong when a file or standard input is opened or read: a kind, by which callers
decide what to do, and a message for people. Whatever may fail, be it for such a reason or for
another, is done step by step, and a row of steps succeeds only if each of them does.

## Main definitions

* `FailureKind`: the kinds.
* `Failure`: a failure.

## Main results

* `exists_of_bind_eq_ok`, `of_bind_eq_error`: two steps in a row.
-/

namespace LicenseHeader

/-- The kinds of failure. -/
inductive FailureKind where
  /-- The read was interrupted and can be tried again. -/
  | interrupted
  /-- No data is there yet. -/
  | wouldBlock
  /-- The data ends too early. -/
  | unexpectedEnd
  /-- Access is denied. -/
  | permissionDenied
  /-- The data is not of the expected form. -/
  | invalidData
  /-- The other end of a pipe is closed. -/
  | brokenPipe
  /-- The read took too long. -/
  | timedOut
  /-- Nothing of that name exists. -/
  | notFound
  /-- Something used as a directory is none. -/
  | notADirectory
  /-- Something used as a file is a directory. -/
  | isADirectory
  /-- The name cannot be that of a file. -/
  | invalidFilename
  /-- The name cannot be passed on. -/
  | invalidInput
  /-- Anything else. -/
  | other
  deriving DecidableEq, Repr

/-- A failure to open or read something. -/
structure Failure where
  /-- Its kind. -/
  kind : FailureKind
  /-- What people are told. -/
  message : String
  deriving DecidableEq, Repr

/-- Whether the same read is to be tried again. -/
def Failure.isInterruption (failure : Failure) : Bool :=
  failure.kind = .interrupted

/-! ### Steps in a row -/

section Steps

variable {ε β γ : Type} {first : Except ε β} {next : β → Except ε γ}

/-- Two steps in a row succeed if the first does and the second does with its result. -/
theorem exists_of_bind_eq_ok {result : γ} (h : first >>= next = .ok result) :
    ∃ between, first = .ok between ∧ next between = .ok result := by
  cases first with
  | error e => exact absurd h (by simp [bind, Except.bind])
  | ok between => exact ⟨between, rfl, h⟩

/-- Two steps in a row fail if the first does, or the second does with its result. -/
theorem of_bind_eq_error {e : ε} (h : first >>= next = .error e) :
    first = .error e ∨ ∃ between, first = .ok between ∧ next between = .error e := by
  cases first with
  | error other => exact .inl (congrArg Except.error (Except.error.inj h))
  | ok between => exact .inr ⟨between, rfl, h⟩

end Steps

end LicenseHeader
