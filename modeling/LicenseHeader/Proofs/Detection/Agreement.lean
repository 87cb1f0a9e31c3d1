import LicenseHeader.Detection.Basic

/-!
# Sources that cannot be told apart

Detection sees of its source no more than the answers to its pulls, and of these no more
than the window has room for. So two sources that keep giving answers that agree lead to
outcomes that agree, whatever the sources are: two readers in different styles, or a reader
and a list.

A relation between sources that is good for so many more pulls is carried along
(`detectFrom_lockstep`). Each pull spends one of them: the answers agree, and the sources
that are left are related for one pull less. Answers agree if they are the same line or are
two failures of a kind that the relation on failures allows.

## Main definitions

* `Agree`: the same value, or related failures.
* `Outcome.Agrees`: outcomes that differ at most in their failures and their sources.
* `Lockstep`: a relation between sources that pulling keeps.

## Main results

* `detectFrom_lockstep`, `detect_lockstep`: related sources lead to outcomes that agree.
-/

namespace LicenseHeader

variable {ρ τ σ σ' ε ε' : Type}

/-- Two results are the same value, or they are failures that are related. -/
inductive Agree (related : ε → ε' → Prop) : Except ε τ → Except ε' τ → Prop where
  /-- The same value. -/
  | ok (value : τ) : Agree related (.ok value) (.ok value)
  /-- Two failures. -/
  | error {e : ε} {e' : ε'} (h : related e e') : Agree related (.error e) (.error e')

/-- A result agrees with itself. -/
theorem Agree.refl (result : Except ε τ) : Agree Eq result result := by
  cases result with
  | error e => exact .error rfl
  | ok value => exact .ok value

/-- Results that agree up to equal failures are equal. -/
theorem Agree.eq {result result' : Except ε τ} (h : Agree Eq result result') :
    result = result' := by
  cases h with
  | ok value => rfl
  | error h => rw [h]

/-- Of two results that agree both are a value or none is. -/
theorem Agree.eq_ok_iff {related : ε → ε' → Prop} {result : Except ε τ}
    {result' : Except ε' τ} (h : Agree related result result') {value : τ} :
    result = .ok value ↔ result' = .ok value := by
  cases h with
  | ok other => rw [Except.ok.injEq, Except.ok.injEq]
  | error h => simp

/-- Two outcomes have the same ledger, verdicts that agree, and sources that are related. -/
structure Outcome.Agrees (related : ε → ε' → Prop) (level : σ → σ' → Prop)
    (outcome : Outcome ρ σ ε) (outcome' : Outcome ρ σ' ε') : Prop where
  /-- The verdicts agree. -/
  verdict : Agree related outcome.verdict outcome'.verdict
  /-- As many items are pulled. -/
  pulled : outcome.pulled = outcome'.pulled
  /-- The same rules are met, at the same lines. -/
  hits : outcome.hits = outcome'.hits
  /-- The same rules are left. -/
  outstanding : outcome.outstanding = outcome'.outstanding
  /-- The sources are related. -/
  source : level outcome.source outcome'.source

/-- Between related sources the answers to a pull agree, and the sources that are left are
related for one pull less. -/
def Lockstep (related : ε → ε' → Prop) (pull : σ → Option (Except ε τ) × σ)
    (pull' : σ' → Option (Except ε' τ) × σ') (level : Nat → σ → σ' → Prop) : Prop :=
  ∀ pulls source source', level (pulls + 1) source source' →
    Option.Rel (Agree related) (pull source).1 (pull' source').1 ∧
      level pulls (pull source).2 (pull' source').2

section Run

variable {related : ε → ε' → Prop} {pull : σ → Option (Except ε τ) × σ}
  {pull' : σ' → Option (Except ε' τ) × σ'} {level : Nat → σ → σ' → Prop}

/-- **Related sources lead to outcomes that agree.** Induction on the window: a pull either
ends both detections or leaves both with the same ledger and related sources. -/
theorem detectFrom_lockstep (hstep : Lockstep related pull pull' level)
    (accepts : ρ → τ → Bool) (pulled : Nat) (hits : List (Hit ρ)) (outstanding : List ρ)
    {window : Nat} {source : σ} {source' : σ'} (h : level window source source') :
    (detectFrom accepts pull pulled hits outstanding source window).Agrees related
      (fun source source' => ∃ pulls, level pulls source source')
      (detectFrom accepts pull' pulled hits outstanding source' window) := by
  induction window generalizing pulled hits outstanding source source' with
  | zero => exact ⟨.ok false, rfl, rfl, rfl, 0, h⟩
  | succ window ih =>
      obtain ⟨hanswer, hrest⟩ := hstep window source source' h
      obtain ⟨answer, rest, hpull⟩ : ∃ answer rest, pull source = (answer, rest) :=
        ⟨_, _, rfl⟩
      obtain ⟨answer', rest', hpull'⟩ : ∃ answer rest, pull' source' = (answer, rest) :=
        ⟨_, _, rfl⟩
      rw [hpull, hpull'] at hanswer hrest
      simp only [detectFrom, hpull, hpull']
      cases hanswer with
      | none => exact ⟨.ok false, rfl, rfl, rfl, window, hrest⟩
      | some hagree =>
          cases hagree with
          | error hrelated => exact ⟨.error hrelated, rfl, rfl, rfl, window, hrest⟩
          | ok line =>
              -- both enter the same line into the same ledger
              obtain ⟨entered, left, henter⟩ : ∃ entered left,
                  enterLine (fun rule => accepts rule line) (pulled + 1) hits outstanding =
                    (entered, left) := ⟨_, _, rfl⟩
              simp only [henter]
              cases left with
              | nil => exact ⟨.ok true, rfl, rfl, rfl, window, hrest⟩
              | cons rule left => exact ih (pulled + 1) entered (rule :: left) hrest

/-- The same for a detection from its beginning. -/
theorem detect_lockstep (hstep : Lockstep related pull pull' level)
    (accepts : ρ → τ → Bool) (rules : List ρ) (window : Nat) {source : σ} {source' : σ'}
    (h : level window source source') :
    (detect accepts pull rules window source).Agrees related
      (fun source source' => ∃ pulls, level pulls source source')
      (detect accepts pull' rules window source') :=
  detectFrom_lockstep hstep accepts 0 [] rules h

end Run

end LicenseHeader
