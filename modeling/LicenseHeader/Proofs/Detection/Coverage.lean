import LicenseHeader.Proofs.Detection.Scan

/-!
# Headers that are surely found or surely not

Which rule a line meets depends on the rules that are outstanding when it comes, and so on
the lines before it. Two things can be said without following the scan. A rule that accepts
no line of the window stays outstanding, whatever the others do. And if every rule has a
line of its *own*, one that it accepts and that no rule before it accepts, then no rule is
left, in whatever order these lines come, whatever else they hold, and whatever lines stand
between them: a line of a rule's own can be lost to a later rule only when the rule itself
has been met already.

## Main definitions

* `OwnLines`: every rule has a line of its own.

## Main results

* `detectList_of_ownLines`: then detection succeeds.
* `detectList_of_unmet`: without any line for some rule it does not.
-/

namespace LicenseHeader

variable {ρ τ ε : Type} {accepts : ρ → τ → Bool}

/-- Every rule accepts some line that no rule before it accepts. -/
def OwnLines (accepts : ρ → τ → Bool) (rules : List ρ) (lines : List τ) : Prop :=
  ∀ earlier rule later, rules = earlier ++ rule :: later →
    ∃ line ∈ lines, accepts rule line = true ∧ ∀ other ∈ earlier, accepts other line = false

/-! ### Rules that are left by a scan -/

/-- A rule that accepts none of the lines is left. -/
theorem mem_outstanding_of_unmet {rules : List ρ} {rule : ρ} {lines : List (τ × Nat)}
    (hmem : rule ∈ rules) (h : ∀ line ∈ lines, accepts rule line.1 = false) :
    rule ∈ (scan accepts rules lines).outstanding := by
  rw [← (perm_hits_outstanding accepts rules lines).mem_iff, List.mem_append] at hmem
  rcases hmem with hmet | hleft
  · obtain ⟨hit, hhit, rfl⟩ := List.mem_map.mp hmet
    obtain ⟨line, hline, hacc⟩ := exists_line_of_mem_hits hhit
    rw [h _ hline] at hacc
    exact absurd hacc Bool.false_ne_true
  · exact hleft

/-- No rule is left if each has a line of its own. Induction on the rules: the first rule
takes a line that it accepts, and so none of those that the others have for their own. -/
theorem outstanding_eq_nil_of_ownLines {rules : List ρ} {lines : List (τ × Nat)}
    (h : OwnLines accepts rules (lines.map Prod.fst)) :
    (scan accepts rules lines).outstanding = [] := by
  induction rules generalizing lines with
  | nil => rw [scan_nil_left]
  | cons rule rules ih =>
      cases hfind : lines.find? (fun line => accepts rule line.1) with
      | none =>
          obtain ⟨line, hmem, hacc, -⟩ := h [] rule rules rfl
          obtain ⟨numbered, hnumbered, rfl⟩ := List.mem_map.mp hmem
          exact absurd hacc (List.find?_eq_none.mp hfind numbered hnumbered)
      | some first =>
          rw [(scan_cons_of_find?_eq_some hfind).2]
          refine ih fun earlier other later hrules => ?_
          obtain ⟨line, hmem, hacc, hown⟩ :=
            h (rule :: earlier) other later (by rw [hrules, List.cons_append])
          obtain ⟨hnot, hown⟩ := List.forall_mem_cons.mp hown
          obtain ⟨numbered, hnumbered, rfl⟩ := List.mem_map.mp hmem
          have hkept : numbered ∈ lines.eraseP fun line => accepts rule line.1 :=
            (List.mem_eraseP_of_neg (by rw [hnot]; exact Bool.false_ne_true)).mpr hnumbered
          exact ⟨numbered.1, List.mem_map_of_mem hkept, hacc, hown⟩

/-! ### Verdicts -/

/-- **Detection succeeds if every rule has a line of its own.** -/
theorem detectList_of_ownLines {rules : List ρ} (hne : rules ≠ []) {window : Nat}
    {lines : List τ} (h : OwnLines accepts rules (lines.take window)) :
    (detectList accepts rules window (lines.map Except.ok : List (Except ε τ))).verdict =
      .ok true := by
  rw [← List.zipIdx_map_fst 1 (lines.take window)] at h
  rw [verdict_detectList_eq hne, outstanding_eq_nil_of_ownLines h, List.isEmpty_nil]

/-- **Detection fails if some rule accepts no line of the window.** -/
theorem detectList_of_unmet {rules : List ρ} {rule : ρ} (hmem : rule ∈ rules) {window : Nat}
    {lines : List τ} (h : ∀ line ∈ lines.take window, accepts rule line = false) :
    (detectList accepts rules window (lines.map Except.ok : List (Except ε τ))).verdict =
      .ok false := by
  have hunmet : ∀ line ∈ (lines.take window).zipIdx 1, accepts rule line.1 = false := by
    intro line hline
    refine h line.1 ?_
    rw [← List.zipIdx_map_fst 1 (lines.take window)]
    exact List.mem_map_of_mem hline
  have hleft := List.ne_nil_of_mem (mem_outstanding_of_unmet hmem hunmet)
  rw [verdict_detectList_eq (List.ne_nil_of_mem hmem), List.isEmpty_eq_false_iff.mpr hleft]

end LicenseHeader
