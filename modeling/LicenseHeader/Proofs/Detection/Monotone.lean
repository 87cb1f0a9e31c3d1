import LicenseHeader.Proofs.Detection.Choice
import LicenseHeader.Proofs.Detection.Completion
import LicenseHeader.Proofs.Detection.Refinement

/-!
# Monotonicity

A line that is put between others can take a rule away from the line that met it before. That
line is then free for another rule, which leaves its own line in turn, and so on. No such chain
ends with a rule that is left over: a header that is found stays found if rules are dropped, if
the window grows, and if any lines are put between those of the window.

Rules choose one after the other, so there are two things to follow. More lines are a refinement
of fewer lines in which every block is a single line, and so the rules are met one by one as
before (`outstanding_scan_of_sublist`). A rule that is dropped leaves to the others the line that
it would have taken, which is a case of more lines (`outstanding_scan_of_fewer`).

## Main results

* `detectList_eq_true_iff`: when detection among lines succeeds, with rules and without.
* `detectList_mono`: fewer rules and more lines keep a success.
* `Config.carries_mono`: the same for configurations.
-/

namespace LicenseHeader

variable {ρ τ ε ε' : Type} {accepts : ρ → τ → Bool} {rules fewer : List ρ}

/-! ### Success as a scan -/

/-- **Detection among lines succeeds if the window holds a line and the scan of it leaves no
rule.** Where there are rules, the first condition follows from the second. -/
theorem detectList_eq_true_iff {window : Nat} {lines : List τ} :
    (detectList accepts rules window (lines.map Except.ok : List (Except ε τ))).verdict =
        .ok true ↔
      lines.take window ≠ [] ∧
        (scan accepts rules ((lines.take window).zipIdx 1)).outstanding = [] := by
  by_cases hrules : rules = []
  · subst hrules
    obtain ⟨hfound, hmissing⟩ := @detectList_nil _ _ ε accepts window lines
    have hwindow : lines.take window ≠ [] ↔ 1 ≤ window ∧ lines ≠ [] := by
      rw [ne_eq, List.take_eq_nil_iff, not_or, Nat.one_le_iff_ne_zero]
    rw [scan_nil_left, hwindow]
    constructor
    · intro htrue
      refine ⟨Classical.byContradiction fun hnot => ?_, rfl⟩
      rw [(hmissing hnot).1] at htrue
      exact absurd htrue (by simp)
    · rintro ⟨hline, -⟩
      exact (hfound hline).1
  · rw [verdict_detectList_eq hrules, Except.ok.injEq, List.isEmpty_iff]
    refine ⟨fun hnone => ⟨fun hnil => ?_, hnone⟩, fun h => h.2⟩
    rw [hnil, List.zipIdx_nil, scan_nil_right] at hnone
    exact hrules hnone

/-! ### More lines, fewer rules -/

/-- More lines refine fewer lines, each line being the only piece of its block. -/
theorem Refines.of_sublist {lines more : List τ} (h : lines.Sublist more) :
    Refines accepts rules lines more := by
  induction h with
  | slnil => exact .nil
  | cons extra _ ih => exact ih.piece extra
  | cons_cons line _ ih =>
      have hblock : ∀ rule ∈ rules, accepts rule line = [line].any (accepts rule) := by
        intro rule _
        rw [List.any_cons, List.any_nil, Bool.or_false]
      exact ih.line hblock

/-- A scan that leaves no rule leaves none with more lines. -/
theorem outstanding_scan_of_sublist {lines more : List (τ × Nat)}
    (h : (lines.map Prod.fst).Sublist (more.map Prod.fst))
    (hnone : (scan accepts rules lines).outstanding = []) :
    (scan accepts rules more).outstanding = [] :=
  outstanding_scan_of_refines (.of_sublist h) hnone

/-- **A scan that leaves no rule leaves none with fewer rules.** Induction on the rules that are
kept and dropped, each of which has taken a line: one that is kept takes the same line again, and
one that is dropped leaves it to the others. -/
theorem outstanding_scan_of_fewer (h : fewer.Sublist rules) {lines : List (τ × Nat)}
    (hnone : (scan accepts rules lines).outstanding = []) :
    (scan accepts fewer lines).outstanding = [] := by
  induction h generalizing lines with
  | slnil => rw [scan_nil_left]
  | cons rule _ ih =>
      obtain ⟨first, -, hrest⟩ := exists_find?_of_outstanding_eq_nil hnone
      exact outstanding_scan_of_sublist (List.eraseP_sublist.map Prod.fst) (ih hrest)
  | cons_cons rule _ ih =>
      obtain ⟨first, hfirst, hrest⟩ := exists_find?_of_outstanding_eq_nil hnone
      rw [(scan_cons_of_find?_eq_some hfirst).2]
      exact ih hrest

/-! ### Verdicts -/

/-- **Fewer rules and more lines keep a success.** -/
theorem detectList_mono {window window' : Nat} {lines lines' : List τ}
    (hrules : fewer.Sublist rules)
    (hlines : (lines.take window).Sublist (lines'.take window'))
    (h : (detectList accepts rules window
      (lines.map Except.ok : List (Except ε τ))).verdict = .ok true) :
    (detectList accepts fewer window'
      (lines'.map Except.ok : List (Except ε' τ))).verdict = .ok true := by
  obtain ⟨hne, hnone⟩ := detectList_eq_true_iff.mp h
  refine detectList_eq_true_iff.mpr ⟨fun hnil => ?_, ?_⟩
  · rw [hnil, List.sublist_nil] at hlines
    exact hne hlines
  · refine outstanding_scan_of_sublist ?_ (outstanding_scan_of_fewer hrules hnone)
    rw [List.zipIdx_map_fst, List.zipIdx_map_fst]
    exact hlines

/-- **A header that is found stays found.** If lines carry the header of a configuration, then
lines carry that of a configuration with fewer rules, in the same order, whenever the lines of
the first window stand in the second one, in the same order. So rules may be dropped, the window
may grow, and any lines may be put behind or between those of the window, as long as these stay
in it. -/
theorem Config.carries_mono {config config' : Config} {lines lines' : List Line}
    (h : config.Carries lines) (hrules : config'.rules.Sublist config.rules)
    (hlines : (lines.take config.window).Sublist (lines'.take config'.window)) :
    config'.Carries lines' :=
  detectList_mono hrules hlines h

/-- A line that all rules accept, put in front of the others, takes the first rule away from the
line that met it, and the second rule moves to that one. The third rule is dropped, and the
window has room for one line more. -/
theorem Config.carries_mono_of_line_in_front :
    let a : Rule := ⟨"a", .one ⟨true, [(0x61, 0x61)]⟩⟩
    let b : Rule := ⟨"b", .one ⟨true, [(0x62, 0x62)]⟩⟩
    let c : Rule := ⟨"c", .one ⟨true, [(0x63, 0x63)]⟩⟩
    let config : Config := ⟨[a, b, c], ⟨"", .empty⟩, 3⟩
    let config' : Config := ⟨[a, b], ⟨"", .empty⟩, 4⟩
    let lines : List Line := [['a', 'b'], ['b'], ['c']]
    let lines' : List Line := [['a', 'b', 'c'], ['a', 'b'], ['b'], ['c'], ['a']]
    config.Carries lines ∧ config'.rules.Sublist config.rules ∧
      (lines.take config.window).Sublist (lines'.take config'.window) ∧
      config'.Carries lines' := by
  intro a b c config config' lines lines'
  have hcarries : config.Carries lines := rfl
  have hrules : config'.rules.Sublist config.rules := by decide
  have hlines : (lines.take config.window).Sublist (lines'.take config'.window) := by decide
  exact ⟨hcarries, hrules, hlines, Config.carries_mono hcarries hrules hlines⟩

end LicenseHeader
