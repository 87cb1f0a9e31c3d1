import LicenseHeader.Proofs.Detection.Scan

/-!
# Detection on pieces of lines

A line can be read as several pieces, each of which is a line of its own. This module
compares detection on lines with detection on their pieces. The pieces *refine* the lines if
every line has a block of pieces, the blocks stand in the order of the lines, and a rule
accepts a line if and only if it accepts a piece of its block. Between the blocks there may
be further pieces, of which nothing is known.

A success on lines is one on the pieces, though rules may be met at other places. The rules
choose one after the other, each the first line that it accepts, and what has to be kept is
the refinement when a rule has taken a line on the one side and a piece on the other
(`Refines.eraseP`). The piece comes at the latest from the block of the line. If it comes
from there, what is left of the block are further pieces; and if it stands in front of the
block, it is a further piece itself, since no block in front has one that the rule accepts.

## Main definitions

* `Refines`: pieces in the order of the lines that they are made of.

## Main results

* `Refines.eraseP`: what is left on both sides when a rule has chosen.
* `Refines.verdict_detectList`: a success on lines is a success on pieces.
-/

namespace LicenseHeader

variable {ρ τ : Type} {accepts : ρ → τ → Bool} {rules : List ρ} {lines pieces : List τ}

/-- The second list has a block of pieces for every line of the first one, in their order,
with further pieces in between. Each of the rules accepts a line if and only if it accepts
one of the pieces in its block. -/
inductive Refines (accepts : ρ → τ → Bool) (rules : List ρ) : List τ → List τ → Prop
  /-- No lines have no pieces. -/
  | nil : Refines accepts rules [] []
  /-- A further piece. -/
  | piece {lines pieces : List τ} (extra : τ) (h : Refines accepts rules lines pieces) :
      Refines accepts rules lines (extra :: pieces)
  /-- A line and its block. -/
  | line {lines pieces : List τ} {line : τ} {block : List τ}
      (hblock : ∀ rule ∈ rules, accepts rule line = block.any (accepts rule))
      (h : Refines accepts rules lines pieces) :
      Refines accepts rules (line :: lines) (block ++ pieces)

namespace Refines

/-- Further pieces. -/
theorem append (h : Refines accepts rules lines pieces) (extra : List τ) :
    Refines accepts rules lines (extra ++ pieces) := by
  induction extra with
  | nil => exact h
  | cons piece extra ih => exact ih.piece piece

/-- Pieces refine fewer lines as well. -/
theorem sublist {fewer : List τ} (h : Refines accepts rules lines pieces)
    (hfewer : fewer.Sublist lines) : Refines accepts rules fewer pieces := by
  induction h generalizing fewer with
  | nil =>
      rw [List.sublist_nil.mp hfewer]
      exact .nil
  | piece extra _ ih => exact (ih hfewer).piece extra
  | @line lines pieces line block hblock _ ih =>
      cases hfewer with
      | cons _ hfewer => exact (ih hfewer).append block
      | cons_cons _ hfewer => exact (ih hfewer).line hblock

/-- Pieces refine lines with regard to fewer rules as well. -/
theorem of_subset {fewer : List ρ} (h : Refines accepts rules lines pieces)
    (hfewer : fewer ⊆ rules) : Refines accepts fewer lines pieces := by
  induction h with
  | nil => exact .nil
  | piece extra _ ih => exact ih.piece extra
  | line hblock _ ih => exact ih.line fun rule hrule => hblock rule (hfewer hrule)

/-- A rule that accepts a line accepts a piece. -/
theorem exists_accepted {rule : ρ} (h : Refines accepts rules lines pieces)
    (hrule : rule ∈ rules) {line : τ} (hline : line ∈ lines) (haccepts : accepts rule line = true) :
    ∃ piece ∈ pieces, accepts rule piece = true := by
  induction h with
  | nil => exact absurd hline List.not_mem_nil
  | piece extra _ ih =>
      obtain ⟨piece, hpiece, hfound⟩ := ih hline
      exact ⟨piece, List.mem_cons_of_mem extra hpiece, hfound⟩
  | @line lines pieces other block hblock _ ih =>
      rcases List.mem_cons.mp hline with rfl | hline
      · rw [hblock rule hrule, List.any_eq_true] at haccepts
        obtain ⟨piece, hpiece, hfound⟩ := haccepts
        exact ⟨piece, List.mem_append_left pieces hpiece, hfound⟩
      · obtain ⟨piece, hpiece, hfound⟩ := ih hline
        exact ⟨piece, List.mem_append_right block hpiece, hfound⟩

/-- **What is left when a rule has chosen.** If a rule takes the first line that it accepts,
and the first piece that it accepts, then the pieces that are left refine the lines that are
left. -/
theorem eraseP {rule : ρ} (h : Refines accepts rules lines pieces) (hrule : rule ∈ rules) :
    Refines accepts rules (lines.eraseP (accepts rule)) (pieces.eraseP (accepts rule)) := by
  induction h with
  | nil => exact .nil
  | @piece lines pieces extra h ih =>
      cases hextra : accepts rule extra with
      | true =>
          -- the rule takes a further piece, and its line leaves a block behind
          rw [List.eraseP_cons_of_pos hextra]
          exact h.sublist List.eraseP_sublist
      | false =>
          rw [List.eraseP_cons_of_neg (by simp [hextra])]
          exact ih.piece extra
  | @line lines pieces line block hblock h ih =>
      cases hline : accepts rule line with
      | true =>
          rw [hblock rule hrule, List.any_eq_true] at hline
          obtain ⟨piece, hpiece, hfound⟩ := hline
          rw [List.eraseP_append_left hfound pieces hpiece, List.eraseP_cons_of_pos]
          · exact h.append (block.eraseP (accepts rule))
          · rw [hblock rule hrule, List.any_eq_true]
            exact ⟨piece, hpiece, hfound⟩
      | false =>
          have hnone : ∀ piece ∈ block, ¬accepts rule piece = true := by
            rw [hblock rule hrule, List.any_eq_false] at hline
            exact hline
          rw [List.eraseP_cons_of_neg (by simp [hline]), List.eraseP_append_right pieces hnone]
          exact ih.line hblock

end Refines

/-- **A scan that leaves no rule leaves none on the pieces.** Induction on the rules: the
first of them chooses on both sides, and the others go on with what is left. -/
theorem outstanding_scan_of_refines {lines pieces : List (τ × Nat)}
    (h : Refines accepts rules (lines.map Prod.fst) (pieces.map Prod.fst))
    (hnone : (scan accepts rules lines).outstanding = []) :
    (scan accepts rules pieces).outstanding = [] := by
  induction rules generalizing lines pieces with
  | nil => rw [scan_nil_left]
  | cons rule rules ih =>
      obtain ⟨first, hfirst, hnone⟩ := exists_find?_of_outstanding_eq_nil hnone
      have haccepts := List.find?_some hfirst
      have hmem := List.mem_map_of_mem (f := Prod.fst) (List.mem_of_find?_eq_some hfirst)
      obtain ⟨_, hpiece, hfound⟩ := h.exists_accepted List.mem_cons_self hmem haccepts
      obtain ⟨numbered, hnumbered, rfl⟩ := List.mem_map.mp hpiece
      obtain ⟨first', hfirst'⟩ : ∃ first', pieces.find? (fun numbered =>
          accepts rule numbered.1) = some first' := by
        rw [← Option.isSome_iff_exists, List.find?_isSome]
        exact ⟨numbered, hnumbered, hfound⟩
      rw [(scan_cons_of_find?_eq_some hfirst').2]
      refine ih ?_ hnone
      have herased := h.eraseP List.mem_cons_self
      rw [List.eraseP_map, List.eraseP_map] at herased
      exact herased.of_subset (List.subset_cons_self rule rules)

/-- **A success on lines is a success on pieces** that refine them, if the window has room
for the pieces. -/
theorem Refines.verdict_detectList {ε ε' : Type} (h : Refines accepts rules lines pieces)
    (hne : rules ≠ []) {window window' : Nat} (hwindow : pieces.length ≤ window')
    (htrue : (detectList accepts rules window
      (lines.map Except.ok : List (Except ε τ))).verdict = .ok true) :
    (detectList accepts rules window'
      (pieces.map Except.ok : List (Except ε' τ))).verdict = .ok true := by
  rw [verdict_detectList_eq hne, Except.ok.injEq, List.isEmpty_iff] at htrue ⊢
  have hwhole : Refines accepts rules (((lines.take window).zipIdx 1).map Prod.fst)
      (((pieces.take window').zipIdx 1).map Prod.fst) := by
    rw [List.zipIdx_map_fst, List.zipIdx_map_fst, List.take_of_length_le hwindow]
    exact h.sublist (List.take_sublist window lines)
  exact outstanding_scan_of_refines hwhole htrue

end LicenseHeader
