/-!
# Chains

Several steps of a relation in a row.

## Main definitions

* `Chain`: a given number of steps.
-/

namespace LicenseHeader

variable {β : Type} {step : β → β → Prop}

/-- Two things that are `n` steps of a relation apart. -/
def Chain (step : β → β → Prop) : Nat → β → β → Prop
  | 0, c, d => d = c
  | n + 1, c, d => ∃ e, step c e ∧ Chain step n e d

/-- A chain can be made longer at its end. -/
theorem Chain.concat {n : Nat} {c d e : β} (h : Chain step n c d) (hs : step d e) :
    Chain step (n + 1) c e := by
  induction n generalizing c with
  | zero => exact h ▸ ⟨e, hs, rfl⟩
  | succ n ih =>
    obtain ⟨f, hf, h⟩ := h
    exact ⟨f, hf, ih h⟩

/-- One chain after another is a chain. -/
theorem Chain.append {m n : Nat} {c d e : β} (h : Chain step m c d) (h' : Chain step n d e) :
    Chain step (m + n) c e := by
  induction m generalizing c with
  | zero => rw [Nat.zero_add]; exact h ▸ h'
  | succ m ih =>
    obtain ⟨f, hf, h⟩ := h
    rw [Nat.succ_add_eq_add_succ]
    exact ⟨f, hf, ih h⟩

/-- A chain can be cut in two. -/
theorem Chain.split {m n : Nat} {c e : β} (h : Chain step (m + n) c e) :
    ∃ d, Chain step m c d ∧ Chain step n d e := by
  induction m generalizing c with
  | zero => exact ⟨c, rfl, Nat.zero_add n ▸ h⟩
  | succ m ih =>
    rw [Nat.succ_add_eq_add_succ] at h
    obtain ⟨f, hf, h⟩ := h
    obtain ⟨d, hfd, hde⟩ := ih h
    exact ⟨d, ⟨f, hf, hfd⟩, hde⟩

/-- What holds at the beginning of a chain and is kept by every step holds at its end. -/
theorem Chain.keeps {p : β → Prop} (hp : ∀ c d, p c → step c d → p d) {n : Nat} {c d : β}
    (h : Chain step n c d) (hc : p c) : p d := by
  induction n generalizing c with
  | zero => exact h ▸ hc
  | succ n ih =>
    obtain ⟨e, he, h⟩ := h
    exact ih h (hp c e hc he)

/-- Things that are exactly those one step from themselves are also those any number of
steps from themselves. -/
theorem Chain.exists_mem_iff {xs : List β} (h : ∀ d, d ∈ xs ↔ ∃ c ∈ xs, step c d) (n : Nat)
    (d : β) : (∃ c ∈ xs, Chain step n c d) ↔ d ∈ xs := by
  induction n with
  | zero => exact ⟨fun ⟨c, hc, h⟩ => h ▸ hc, fun h => ⟨d, h, rfl⟩⟩
  | succ n ih =>
    rw [← ih]
    constructor
    · rintro ⟨c, hc, e, he, hd⟩
      exact ⟨e, (h e).mpr ⟨c, hc, he⟩, hd⟩
    · rintro ⟨e, he, hd⟩
      obtain ⟨c, hc, hce⟩ := (h e).mp he
      exact ⟨c, hc, e, hce, hd⟩

end LicenseHeader
