/-!
# Detection

A header is a list of rules, each of which must be met by a line of its own within the
first lines of a text. Lines are pulled one at a time. A line meets at most one rule: the
first of those still outstanding that accepts it. Detection ends as soon as no rule is
outstanding, and otherwise at the end of the window, at the end of the lines, or at a line
that cannot be had.

Nothing here depends on what rules and lines are, or on where lines come from.

## Main definitions

* `Hit`: a rule and the line that met it.
* `Outcome`: a verdict, with the ledger of how it came about.
* `detect`: detection over any source of lines.
* `detectList`: detection over a list.
-/

namespace LicenseHeader

/-- A rule together with the line that met it; lines count from one. -/
structure Hit (ρ : Type) where
  /-- The rule. -/
  rule : ρ
  /-- The number of the line. -/
  line : Nat
  deriving DecidableEq, Repr

/-- How a detection ended. -/
structure Outcome (ρ σ ε : Type) where
  /-- Whether every rule was met, or why a line could not be had. -/
  verdict : Except ε Bool
  /-- How many items were pulled. -/
  pulled : Nat
  /-- The rules that were met, in the order of their lines. -/
  hits : List (Hit ρ)
  /-- The rules that were not met, in their order. -/
  outstanding : List ρ
  /-- The source behind the last item pulled. -/
  source : σ

variable {ρ σ ε τ : Type}

/-- Takes the first rule that accepts a line out of the outstanding ones. -/
def takeRule (accepts : ρ → Bool) : List ρ → Option (ρ × List ρ)
  | [] => none
  | rule :: rules =>
    if accepts rule then some (rule, rules)
    else (takeRule accepts rules).map fun (taken, left) => (taken, rule :: left)

/-- Enters a line, by its number, into the hits, which are reversed, and the outstanding
rules. -/
def enterLine (accepts : ρ → Bool) (number : Nat) (hits : List (Hit ρ))
    (outstanding : List ρ) : List (Hit ρ) × List ρ :=
  match takeRule accepts outstanding with
  | some (rule, left) => (⟨rule, number⟩ :: hits, left)
  | none => (hits, outstanding)

/-- Detects with `outstanding` rules left after `pulled` items; `hits` is reversed. -/
def detectFrom (accepts : ρ → τ → Bool) (pull : σ → Option (Except ε τ) × σ)
    (pulled : Nat) (hits : List (Hit ρ)) (outstanding : List ρ) (source : σ) :
    Nat → Outcome ρ σ ε
  | 0 => ⟨.ok false, pulled, hits.reverse, outstanding, source⟩
  | window + 1 =>
    match pull source with
    | (none, source) => ⟨.ok false, pulled, hits.reverse, outstanding, source⟩
    | (some (.error e), source) =>
      ⟨.error e, pulled + 1, hits.reverse, outstanding, source⟩
    | (some (.ok line), source) =>
      let (hits, outstanding) :=
        enterLine (fun rule => accepts rule line) (pulled + 1) hits outstanding
      if outstanding.isEmpty then ⟨.ok true, pulled + 1, hits.reverse, [], source⟩
      else detectFrom accepts pull (pulled + 1) hits outstanding source window

/-- Detects the rules among the first `window` items of a source. -/
def detect (accepts : ρ → τ → Bool) (pull : σ → Option (Except ε τ) × σ)
    (rules : List ρ) (window : Nat) (source : σ) : Outcome ρ σ ε :=
  detectFrom accepts pull 0 [] rules source window

/-! ### Lists -/

/-- Pulls an item from a list. -/
def pullItem : List τ → Option τ × List τ
  | [] => (none, [])
  | item :: items => (some item, items)

/-- Detects the rules among the first `window` items of a list. -/
def detectList (accepts : ρ → τ → Bool) (rules : List ρ) (window : Nat)
    (items : List (Except ε τ)) : Outcome ρ (List (Except ε τ)) ε :=
  detect accepts pullItem rules window items

end LicenseHeader
