import LicenseHeader.Detection.Basic

/-!
# What detection pulls

Detection pulls items from its source one at a time, and an item that cannot be had ends it
at once. So all items that it pulls are lines, but for the last one where it ends in a
failure: that item is the failure, and it is handed on as it is. How far a source is read
depends on the rules; what is read of it depends on the source alone, and is said here by
the answers to so many pulls in a row (`nthPull`).

## Main definitions

* `nthPull`: the answer to one of many pulls.
* `Yields`: the first pulls are answered with lines.

## Main results

* `detectFrom_yields`: the items that detection pulls.
* `detectFrom_keeps`: what the pulls do to the source.
* `detect_error_iff`: detection fails exactly if an item that it pulls does.
-/

namespace LicenseHeader

variable {ρ σ ε τ : Type} {accepts : ρ → τ → Bool} {pull : σ → Option (Except ε τ) × σ}
  {source rest : σ}

/-- The answer to pull number `k`, counted from zero, and the source after it. -/
def nthPull (pull : σ → Option (Except ε τ) × σ) : Nat → σ → Option (Except ε τ) × σ
  | 0, source => pull source
  | k + 1, source => nthPull pull k (pull source).2

/-- The first `count` pulls from a source are answered with lines. -/
def Yields (pull : σ → Option (Except ε τ) × σ) (count : Nat) (source : σ) : Prop :=
  ∀ k < count, ∃ line, (nthPull pull k source).1 = some (.ok line)

/-- Of no pulls all are answered with lines. -/
theorem yields_zero (source : σ) : Yields pull 0 source := by
  intro k hk
  exact absurd hk (Nat.not_lt_zero k)

/-- One pull that is answered with a line, and then others. -/
theorem Yields.succ {line : τ} {count : Nat} (h : Yields pull count rest)
    (hpull : pull source = (some (.ok line), rest)) : Yields pull (count + 1) source := by
  intro k hk
  cases k with
  | zero => exact ⟨line, by rw [nthPull, hpull]⟩
  | succ k =>
      rw [nthPull, hpull]
      exact h k (Nat.lt_of_succ_lt_succ hk)

/-! ### Single pulls -/

/-- A source at its end ends a detection without success. -/
theorem detectFrom_of_end (hpull : pull source = (none, rest)) (pulled : Nat)
    (hits : List (Hit ρ)) (outstanding : List ρ) (window : Nat) :
    detectFrom accepts pull pulled hits outstanding source (window + 1) =
      ⟨.ok false, pulled, hits.reverse, outstanding, rest⟩ := by
  simp only [detectFrom, hpull]

/-- A failure ends a detection. -/
theorem detectFrom_of_failure {e : ε} (hpull : pull source = (some (.error e), rest))
    (pulled : Nat) (hits : List (Hit ρ)) (outstanding : List ρ) (window : Nat) :
    detectFrom accepts pull pulled hits outstanding source (window + 1) =
      ⟨.error e, pulled + 1, hits.reverse, outstanding, rest⟩ := by
  simp only [detectFrom, hpull]

/-- A line ends a detection with success, or the detection goes on behind it. -/
theorem detectFrom_of_line {line : τ} (hpull : pull source = (some (.ok line), rest))
    (accepts : ρ → τ → Bool) (pulled : Nat) (hits : List (Hit ρ)) (outstanding : List ρ)
    (window : Nat) :
    let entered := enterLine (fun rule => accepts rule line) (pulled + 1) hits outstanding
    detectFrom accepts pull pulled hits outstanding source (window + 1) =
      if entered.2.isEmpty then ⟨.ok true, pulled + 1, entered.1.reverse, [], rest⟩
      else detectFrom accepts pull (pulled + 1) entered.1 entered.2 rest window := by
  simp only [detectFrom, hpull]

/-! ### All pulls -/

/-- **The items that detection pulls are lines, up to the failure that ends it.** Where it
ends without success it has filled the window, or the next pull has no answer. Induction on
the window: a pull either ends the detection or is answered with a line. -/
theorem detectFrom_yields (pulled : Nat) (hits : List (Hit ρ)) (outstanding : List ρ)
    (source : σ) (window : Nat) :
    let outcome := detectFrom accepts pull pulled hits outstanding source window
    ∃ count ≤ window, Yields pull count source ∧
      (∀ found, outcome.verdict = .ok found → outcome.pulled = pulled + count) ∧
      (outcome.verdict = .ok false → count < window → (nthPull pull count source).1 = none) ∧
      (∀ e, outcome.verdict = .error e → outcome.pulled = pulled + count + 1 ∧
        count < window ∧ (nthPull pull count source).1 = some (.error e)) := by
  induction window generalizing pulled hits outstanding source with
  | zero =>
      refine ⟨0, Nat.le_refl 0, yields_zero source, fun found _ => rfl, fun _ h => ?_,
        fun e he => ?_⟩
      · exact absurd h (Nat.lt_irrefl 0)
      · exact absurd he (by simp [detectFrom])
  | succ window ih =>
      rcases hpull : pull source with ⟨_ | e | line, rest⟩
      · rw [detectFrom_of_end hpull]
        refine ⟨0, Nat.zero_le _, yields_zero source, fun found _ => rfl, fun _ _ => ?_,
          fun e he => ?_⟩
        · rw [nthPull, hpull]
        · exact absurd he (by simp)
      · rw [detectFrom_of_failure hpull]
        refine ⟨0, Nat.zero_le _, yields_zero source, fun found hfound => ?_, fun hfalse => ?_,
          fun e' he' => ⟨rfl, Nat.succ_pos window, ?_⟩⟩
        · exact absurd hfound (by simp)
        · exact absurd hfalse (by simp)
        · rw [nthPull, hpull, Except.error.inj he']
      · rw [detectFrom_of_line hpull]
        split
        · refine ⟨1, Nat.succ_le_succ (Nat.zero_le _), (yields_zero rest).succ hpull,
            fun found _ => rfl, fun hfalse => ?_, fun e he => ?_⟩
          · exact absurd hfalse (by simp)
          · exact absurd he (by simp)
        · obtain ⟨count, hcount, hyields, hok, hend, herror⟩ := ih (pulled + 1) _ _ rest
          refine ⟨count + 1, Nat.succ_le_succ hcount, hyields.succ hpull,
            fun found hfound => ?_, fun hfalse hlt => ?_, fun e he => ?_⟩
          · rw [hok found hfound]
            omega
          · rw [nthPull, hpull]
            exact hend hfalse (Nat.lt_of_succ_lt_succ hlt)
          · obtain ⟨hpulled, hlt, hfailed⟩ := herror e he
            refine ⟨by rw [hpulled]; omega, Nat.succ_lt_succ hlt, ?_⟩
            rw [nthPull, hpull]
            exact hfailed

/-- **What every pull keeps holds of the source that is left.** Induction on the window, for a
property of a source after so many items have been pulled from it. -/
theorem detectFrom_keeps {property : Nat → σ → Prop}
    (hend : ∀ pulled source rest, property pulled source → pull source = (none, rest) →
      property pulled rest)
    (hitem : ∀ pulled source item rest, property pulled source →
      pull source = (some item, rest) → property (pulled + 1) rest)
    {pulled : Nat} {source : σ} (h : property pulled source) (hits : List (Hit ρ))
    (outstanding : List ρ) (window : Nat) :
    let outcome := detectFrom accepts pull pulled hits outstanding source window
    property outcome.pulled outcome.source := by
  induction window generalizing pulled hits outstanding source with
  | zero => exact h
  | succ window ih =>
      rcases hpull : pull source with ⟨_ | e | line, rest⟩
      · rw [detectFrom_of_end hpull]
        exact hend pulled source rest h hpull
      · rw [detectFrom_of_failure hpull]
        exact hitem pulled source (.error e) rest h hpull
      · have hrest := hitem pulled source (.ok line) rest h hpull
        rw [detectFrom_of_line hpull]
        split
        · exact hrest
        · exact ih hrest _ _

/-- A detection pulls no more items than the window has room for. -/
theorem detectFrom_pulled_le (pulled : Nat) (hits : List (Hit ρ)) (outstanding : List ρ)
    (source : σ) (window : Nat) :
    let outcome := detectFrom accepts pull pulled hits outstanding source window
    pulled ≤ outcome.pulled ∧ outcome.pulled ≤ pulled + window := by
  intro outcome
  obtain ⟨count, hcount, -, hok, -, herror⟩ :=
    @detectFrom_yields _ _ _ _ accepts pull pulled hits outstanding source window
  cases hverdict : outcome.verdict with
  | ok found =>
      have hpulled : outcome.pulled = pulled + count := hok found hverdict
      omega
  | error e =>
      obtain ⟨hpulled, hlt, -⟩ := herror e hverdict
      have hpulled : outcome.pulled = pulled + count + 1 := hpulled
      omega

/-- **Detection fails exactly if an item that it pulls does**, and with the same failure. -/
theorem detect_error_iff {rules : List ρ} {window : Nat} {source : σ} {e : ε} :
    let outcome := detect accepts pull rules window source
    outcome.verdict = .error e ↔
      ∃ k < outcome.pulled, (nthPull pull k source).1 = some (.error e) := by
  intro outcome
  obtain ⟨count, -, hyields, hok, -, herror⟩ :
      ∃ count ≤ window, Yields pull count source ∧
        (∀ found, outcome.verdict = .ok found → outcome.pulled = 0 + count) ∧
        (outcome.verdict = .ok false → count < window → (nthPull pull count source).1 = none) ∧
        (∀ e, outcome.verdict = .error e → outcome.pulled = 0 + count + 1 ∧
          count < window ∧ (nthPull pull count source).1 = some (.error e)) :=
    detectFrom_yields 0 [] rules source window
  constructor
  · intro h
    obtain ⟨hpulled, -, hfailed⟩ := herror e h
    exact ⟨count, by omega, hfailed⟩
  · rintro ⟨k, hk, hfailed⟩
    -- the pulls before the last one are answered with lines, so this is the last one
    have hlast : count ≤ k := by
      refine Nat.le_of_not_lt fun hlt => ?_
      obtain ⟨line, hline⟩ := hyields k hlt
      rw [hfailed] at hline
      exact absurd hline (by simp)
    cases hverdict : outcome.verdict with
    | ok found =>
        have hpulled := hok found hverdict
        omega
    | error e' =>
        obtain ⟨hpulled, -, hfailed'⟩ := herror e' hverdict
        obtain rfl : k = count := by omega
        rw [hfailed] at hfailed'
        rw [Except.error.inj (Option.some.inj hfailed')]

end LicenseHeader
