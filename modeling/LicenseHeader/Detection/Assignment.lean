import LicenseHeader.Detection.Basic

/-!
# Assignment of lines to rules

Another way to say which header lines a text has: the rules choose one after the other, in
their order, and each takes the earliest line that it accepts and that no rule before it
has taken. Here the rules stand outermost and the lines are all at hand, whereas detection
goes through the lines once and stops early.

## Main definitions

* `earliest`: the earliest line that is free and accepted.
* `assign`: what every rule takes.
-/

namespace LicenseHeader

variable {ρ τ : Type}

/-- The number of the earliest of `lines` that is accepted and not taken, where the first
of them has the number `first`. -/
def earliestFrom (accepts : τ → Bool) (taken : List Nat) (first : Nat) :
    List τ → Option Nat
  | [] => none
  | line :: lines =>
    if accepts line && !taken.contains first then some first
    else earliestFrom accepts taken (first + 1) lines

/-- The number of the earliest line that is accepted and not taken; lines count from
one. -/
def earliest (accepts : τ → Bool) (taken : List Nat) (lines : List τ) : Option Nat :=
  earliestFrom accepts taken 1 lines

/-- What the rules take when some lines are taken already. -/
def assignFrom (accepts : ρ → τ → Bool) (lines : List τ) (taken : List Nat) :
    List ρ → List (Option Nat)
  | [] => []
  | rule :: rules =>
    match earliest (accepts rule) taken lines with
    | some number => some number :: assignFrom accepts lines (number :: taken) rules
    | none => none :: assignFrom accepts lines taken rules

/-- The number of the line that each rule takes, in the order of the rules. -/
def assign (accepts : ρ → τ → Bool) (rules : List ρ) (lines : List τ) : List (Option Nat) :=
  assignFrom accepts lines [] rules

end LicenseHeader
