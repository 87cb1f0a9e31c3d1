import LicenseHeader.Proofs.Detection.Agreement
import LicenseHeader.Proofs.Detection.Pulls

/-!
# Settled detections

A detection is *settled* when its last item decided it: that item met the last rule, or it
could not be had. Nothing that is not pulled bears on such a detection. Neither does the
room that is left in the window, so the same outcome comes of any window with room for the
items that are pulled (`detectFrom_of_settled`); nor do the items further on, so a second
source need only keep pace with the first for as many pulls as the detection makes
(`detect_lockstep_of_stopped`). The same holds of a detection that fills its window. What is
left is a detection that met the end of its source, and there an item more might have made a
difference.

## Main definitions

* `Outcome.Settled`: outcomes that their last item decided.

## Main results

* `detectFrom_of_settled`: the window of a settled detection.
* `detect_lockstep_of_stopped`: sources that keep pace for as long as it matters.
* `detectFrom_of_failure_after`: a failure in the stead of the last item.
-/

namespace LicenseHeader

variable {ρ σ σ' ε ε' τ : Type} {accepts : ρ → τ → Bool}

/-- An outcome that the last item pulled decided: all rules are met, or the item could not be
had. -/
def Outcome.Settled (outcome : Outcome ρ σ ε) : Prop :=
  outcome.verdict ≠ .ok false

/-- Of two outcomes that agree both are settled or none is. -/
theorem Outcome.Agrees.settled {related : ε → ε' → Prop} {level : σ → σ' → Prop}
    {outcome : Outcome ρ σ ε} {outcome' : Outcome ρ σ' ε'}
    (h : outcome.Agrees related level outcome') (hsettled : outcome'.Settled) :
    outcome.Settled := fun hfalse =>
  hsettled (h.verdict.eq_ok_iff.mp hfalse)

section Window

variable {pull : σ → Option (Except ε τ) × σ} {pulled : Nat} {hits : List (Hit ρ)}
  {outstanding : List ρ} {source : σ} {window : Nat}

/-- A settled detection has pulled an item. -/
theorem lt_pulled_of_settled
    (h : (detectFrom accepts pull pulled hits outstanding source window).Settled) :
    pulled < (detectFrom accepts pull pulled hits outstanding source window).pulled := by
  cases window with
  | zero => exact absurd rfl h
  | succ window =>
      rcases hpull : pull source with ⟨_ | e | line, rest⟩
      · rw [detectFrom_of_end hpull] at h
        exact absurd rfl h
      · rw [detectFrom_of_failure hpull]
        exact Nat.lt_succ_self pulled
      · rw [detectFrom_of_line hpull]
        split
        · exact Nat.lt_succ_self pulled
        · exact (detectFrom_pulled_le (pulled + 1) _ _ rest window).1

/-- A detection that pulls an item has a window with room for it. -/
theorem exists_window_of_lt_pulled
    (h : pulled < (detectFrom accepts pull pulled hits outstanding source window).pulled) :
    ∃ less, window = less + 1 := by
  cases window with
  | zero => exact absurd h (Nat.lt_irrefl pulled)
  | succ less => exact ⟨less, rfl⟩

/-- **Room that is left makes no difference.** A settled detection has the same outcome in
any window with room for the items that it pulls. Induction on the window, with the other
window in step. -/
theorem detectFrom_of_settled
    (h : (detectFrom accepts pull pulled hits outstanding source window).Settled) {room : Nat}
    (hroom : (detectFrom accepts pull pulled hits outstanding source window).pulled ≤
      pulled + room) :
    detectFrom accepts pull pulled hits outstanding source room =
      detectFrom accepts pull pulled hits outstanding source window := by
  induction window generalizing pulled hits outstanding source room with
  | zero => exact absurd rfl h
  | succ window ih =>
      have hpulled := lt_pulled_of_settled h
      obtain ⟨room, rfl⟩ : ∃ more, room = more + 1 := ⟨room - 1, by omega⟩
      rcases hpull : pull source with ⟨_ | e | line, rest⟩
      · rw [detectFrom_of_end hpull, detectFrom_of_end hpull]
      · rw [detectFrom_of_failure hpull, detectFrom_of_failure hpull]
      · rw [detectFrom_of_line hpull] at h hroom ⊢
        rw [detectFrom_of_line hpull]
        split
        · rfl
        · next hleft =>
            rw [if_neg hleft] at h hroom
            exact ih h (by omega)

end Window

section Pace

variable {related : ε → ε' → Prop} {pull : σ → Option (Except ε τ) × σ}
  {pull' : σ' → Option (Except ε' τ) × σ'} {level : Nat → σ → σ' → Prop}

/-- **Sources need keep pace only for as long as it matters.** Where a detection is settled or
fills its window, a source that is related for as many pulls as it makes leads to an outcome
that agrees. -/
theorem detect_lockstep_of_stopped (hstep : Lockstep related pull pull' level)
    (accepts : ρ → τ → Bool) (rules : List ρ) (window : Nat) {source : σ} {source' : σ'}
    (hlevel : level (detect accepts pull' rules window source').pulled source source')
    (hstop : (detect accepts pull' rules window source').Settled ∨
      (detect accepts pull' rules window source').pulled = window) :
    (detect accepts pull rules window source).Agrees related
      (fun source source' => ∃ pulls, level pulls source source')
      (detect accepts pull' rules window source') := by
  rcases hstop with hsettled | hfull
  · -- cut both windows down to the items that are pulled, and widen one of them again
    obtain ⟨count, hcount⟩ :
        ∃ count, (detect accepts pull' rules window source').pulled = count := ⟨_, rfl⟩
    have hroom : count ≤ window := by
      have hle : (detect accepts pull' rules window source').pulled ≤ 0 + window :=
        (detectFrom_pulled_le 0 [] rules source' window).2
      omega
    have hcut : detect accepts pull' rules count source' =
        detect accepts pull' rules window source' :=
      detectFrom_of_settled hsettled (by rw [Nat.zero_add]; exact Nat.le_of_eq hcount)
    rw [hcount] at hlevel
    have hagrees := detect_lockstep hstep accepts rules count hlevel
    rw [hcut] at hagrees
    have hwide : detect accepts pull rules window source =
        detect accepts pull rules count source := by
      refine detectFrom_of_settled (hagrees.settled hsettled) ?_
      have hsame : (detect accepts pull rules count source).pulled = count :=
        hagrees.pulled.trans hcount
      change (detect accepts pull rules count source).pulled ≤ _
      omega
    rw [hwide]
    exact hagrees
  · rw [hfull] at hlevel
    exact detect_lockstep hstep accepts rules window hlevel

/-- Sources that keep pace for some pulls, and whose answers to one more pull agree, keep pace
for that one too; what is left of them then need not be related. -/
theorem Lockstep.oneMore (hstep : Lockstep related pull pull' level) :
    Lockstep related pull pull' fun pulls source source' =>
      ∀ before, pulls = before + 1 → level before source source' ∧
        Option.Rel (Agree related) (nthPull pull before source).1
          (nthPull pull' before source').1 := by
  intro pulls source source' h
  obtain ⟨hlevel, hlast⟩ := h pulls rfl
  cases pulls with
  | zero => exact ⟨hlast, fun before hbefore => absurd hbefore (by omega)⟩
  | succ pulls =>
      obtain ⟨hanswer, hrest⟩ := hstep pulls source source' hlevel
      refine ⟨hanswer, fun before hbefore => ?_⟩
      obtain rfl := Nat.succ.inj hbefore
      exact ⟨hrest, hlast⟩

/-- **A failure in the stead of an item takes the stead of the outcome.** Where a source keeps
pace with another for fewer pulls than the detection in that one makes, and fails at the next,
the detection in it fails with that failure. Induction on the pulls: the detections are in the
same state until then. -/
theorem detectFrom_of_failure_after (hstep : Lockstep related pull pull' level) {before : Nat}
    {source : σ} {source' : σ'} (hlevel : level before source source') {e : ε}
    (hfailure : (nthPull pull before source).1 = some (.error e)) (pulled : Nat)
    (hits : List (Hit ρ)) (outstanding : List ρ) {window : Nat}
    (hlt : pulled + before <
      (detectFrom accepts pull' pulled hits outstanding source' window).pulled) :
    (detectFrom accepts pull pulled hits outstanding source window).verdict = .error e := by
  induction before generalizing pulled hits outstanding source source' window with
  | zero =>
      obtain ⟨less, rfl⟩ := exists_window_of_lt_pulled hlt
      obtain ⟨rest, hpull⟩ : ∃ rest, pull source = (some (.error e), rest) :=
        ⟨(pull source).2, Prod.ext hfailure rfl⟩
      rw [detectFrom_of_failure hpull]
  | succ before ih =>
      obtain ⟨less, rfl⟩ :=
        exists_window_of_lt_pulled (Nat.lt_of_le_of_lt (Nat.le_add_right _ _) hlt)
      obtain ⟨hanswer, hrest⟩ := hstep before source source' hlevel
      rcases hpull' : pull' source' with ⟨_ | e' | line, rest'⟩
      · rw [detectFrom_of_end hpull'] at hlt
        exact absurd hlt (by simp only; omega)
      · rw [detectFrom_of_failure hpull'] at hlt
        exact absurd hlt (by simp only; omega)
      · rcases hpull : pull source with ⟨answer, rest⟩
        rw [hpull, hpull'] at hanswer hrest
        have hlevel : level before rest rest' := hrest
        obtain rfl : answer = some (.ok line) := by
          cases hanswer with
          | some hagree =>
              cases hagree
              rfl
        rw [nthPull, hpull] at hfailure
        rw [detectFrom_of_line hpull'] at hlt
        rw [detectFrom_of_line hpull]
        split at hlt
        · exact absurd hlt (by simp only; omega)
        · next hleft =>
            rw [if_neg hleft]
            exact ih hlevel hfailure (pulled + 1) _ _ (by omega)

end Pace

end LicenseHeader
