import Mathlib.Data.List.Forall2
import Mathlib.Data.List.Perm.Subperm
import LicenseHeader.Proofs.Detection.Coverage
import LicenseHeader.Proofs.Detection.Monotone

/-!
# Headers as matchings

A header that is found is a *matching*: the rules have lines of their own, no line has two
rules, and every rule accepts its line. The converse fails, since a rule takes the first line
that it accepts and leaves none for a later rule that accepts no other. This module says when
the order stops mattering. A line is no cause of it unless two rules accept it. Where the rules
are *apart* on the window, in that no line is accepted at two places of the list of rules, it is
enough that every rule accepts some line; and this does not change if the lines of the window, or
the rules, are put in another order.

Positions in the list of rules count, not the rules themselves. A rule that is listed twice needs
two lines, and a line that it accepts is accepted at two places.

## Main definitions

* `AllMet`: every rule accepts some line.
* `Apart`: no line is accepted at two places of the list of rules.

## Main results

* `exists_place`: a scan that leaves no rule is a matching.
* `OwnLines.of_apart`: rules that are apart have lines of their own.
* `Config.carries_matching`: when lines carry a header, and when their order does not matter.
-/

namespace LicenseHeader

variable {ρ τ : Type} {accepts : ρ → τ → Bool} {rules rules' : List ρ} {lines lines' : List τ}

/-- Every rule accepts some line. -/
def AllMet (accepts : ρ → τ → Bool) (rules : List ρ) (lines : List τ) : Prop :=
  ∀ rule ∈ rules, ∃ line ∈ lines, accepts rule line = true

/-- No line is accepted at two places of the list of rules. -/
def Apart (accepts : ρ → τ → Bool) (rules : List ρ) (lines : List τ) : Prop :=
  ∀ line ∈ lines, rules.Pairwise fun rule other =>
    ¬(accepts rule line = true ∧ accepts other line = true)

instance : Decidable (Apart accepts rules lines) :=
  inferInstanceAs (Decidable (∀ line ∈ lines, rules.Pairwise fun rule other =>
    ¬(accepts rule line = true ∧ accepts other line = true)))

/-! ### Lines that are taken -/

/-- The rules of a scan that leaves none take lines of the list, no line twice. Induction on the
rules: the first of them takes its first line, and the others take theirs of what is left. -/
theorem exists_chosen {lines : List (τ × Nat)}
    (hnone : (scan accepts rules lines).outstanding = []) :
    ∃ chosen : List (τ × Nat), chosen.Subperm lines ∧
      List.Forall₂ (fun rule line => accepts rule line.1 = true) rules chosen := by
  induction rules generalizing lines with
  | nil => exact ⟨[], List.nil_subperm, .nil⟩
  | cons rule rules ih =>
      obtain ⟨found, hfind, hrest⟩ := exists_find?_of_outstanding_eq_nil hnone
      obtain ⟨chosen, hsub, hchosen⟩ := ih hrest
      have hfound : accepts rule found.1 = true :=
        List.find?_some (p := fun line : τ × Nat => accepts rule line.1) hfind
      obtain ⟨first, before, behind, -, hfirst, hlines, herased⟩ :=
        List.exists_of_eraseP (p := fun line : τ × Nat => accepts rule line.1)
          (List.mem_of_find?_eq_some hfind) hfound
      rw [herased] at hsub
      refine ⟨first :: chosen, ?_, .cons hfirst hchosen⟩
      rw [hlines]
      exact ((List.subperm_cons first).mpr hsub).trans List.perm_middle.symm.subperm

/-- Numbered lines of a list, no line twice, have different numbers. -/
theorem nodup_of_subperm_zipIdx {chosen : List (τ × Nat)} (h : chosen.Subperm lines.zipIdx) :
    (chosen.map Prod.snd).Nodup := by
  obtain ⟨ordered, hperm, hordered⟩ := h
  have hnumbers : (ordered.map Prod.snd).Sublist (lines.zipIdx.map Prod.snd) :=
    hordered.map Prod.snd
  rw [List.zipIdx_map_snd] at hnumbers
  exact (hperm.map Prod.snd).nodup_iff.mp (hnumbers.nodup List.nodup_range')

/-- **A scan that leaves no rule is a matching**: it assigns to the places of the rules different
places of lines, and every rule accepts its line. -/
theorem exists_place (hnone : (scan accepts rules lines.zipIdx).outstanding = []) :
    ∃ place : Fin rules.length → Fin lines.length, Function.Injective place ∧
      ∀ i, accepts rules[i] lines[place i] = true := by
  obtain ⟨chosen, hsub, hchosen⟩ := exists_chosen hnone
  obtain ⟨hlength, haccepts⟩ := List.forall₂_iff_get.mp hchosen
  have hbound : ∀ i : Fin rules.length, i.val < chosen.length := fun i => hlength ▸ i.isLt
  have hline : ∀ i, lines[(chosen.get ⟨i.val, hbound i⟩).2]? =
      some (chosen.get ⟨i.val, hbound i⟩).1 := fun i =>
    List.mem_zipIdx_iff_getElem?.mp (hsub.subset (List.get_mem _ _))
  refine ⟨fun i => ⟨(chosen.get ⟨i.val, hbound i⟩).2,
    (List.getElem?_eq_some_iff.mp (hline i)).1⟩, fun i j hij => ?_, fun i => ?_⟩
  · have hsame : (chosen.map Prod.snd)[i.val]? = (chosen.map Prod.snd)[j.val]? := by
      rw [List.getElem?_map, List.getElem?_map, List.getElem?_eq_getElem (hbound i),
        List.getElem?_eq_getElem (hbound j)]
      exact congrArg some (Fin.mk.inj hij)
    have hi : i.val < (chosen.map Prod.snd).length := by
      rw [List.length_map]
      exact hbound i
    exact Fin.ext ((List.getElem?_inj hi (nodup_of_subperm_zipIdx hsub)).mp hsame)
  · have hfound := haccepts i.val i.isLt (hbound i)
    rw [← (List.getElem?_eq_some_iff.mp (hline i)).2] at hfound
    exact hfound

/-! ### Rules that are apart -/

/-- Rules that are apart and all met have lines of their own: no rule before one of them accepts
the line that this one accepts. -/
theorem OwnLines.of_apart (hapart : Apart accepts rules lines) (hmet : AllMet accepts rules lines) :
    OwnLines accepts rules lines := by
  rintro earlier rule later rfl
  obtain ⟨line, hline, haccepts⟩ :=
    hmet rule (List.mem_append_right earlier List.mem_cons_self)
  refine ⟨line, hline, haccepts, fun other hother => ?_⟩
  have hnot := (List.pairwise_append.mp (hapart line hline)).2.2 other hother rule
    List.mem_cons_self
  exact Bool.eq_false_iff.mpr fun hother => hnot ⟨hother, haccepts⟩

/-- The order of the rules and of the lines has no part in whether all rules are met. -/
theorem AllMet.of_perm (h : AllMet accepts rules lines) (hrules : rules'.Perm rules)
    (hlines : lines'.Perm lines) : AllMet accepts rules' lines' := by
  intro rule hrule
  obtain ⟨line, hline, haccepts⟩ := h rule (hrules.mem_iff.mp hrule)
  exact ⟨line, hlines.mem_iff.mpr hline, haccepts⟩

/-- Nor has it in whether the rules are apart. -/
theorem Apart.of_perm (h : Apart accepts rules lines) (hrules : rules'.Perm rules)
    (hlines : lines'.Perm lines) : Apart accepts rules' lines' := by
  intro line hline
  refine hrules.symm.pairwise (h line (hlines.mem_iff.mp hline)) ?_
  rintro rule other hnot ⟨hother, hrule⟩
  exact hnot ⟨hrule, hother⟩

/-! ### Verdicts -/

/-- A header that lines carry is a matching. -/
theorem Config.Carries.exists_place {config : Config} {lines : List Line}
    (h : config.Carries lines) :
    ∃ place : Fin config.rules.length → Fin (lines.take config.window).length,
      Function.Injective place ∧
        ∀ i, Rule.accepts config.rules[i] (lines.take config.window)[place i] = true := by
  obtain ⟨-, hnone⟩ := detectList_eq_true_iff.mp h
  refine LicenseHeader.exists_place (outstanding_scan_of_sublist ?_ hnone)
  rw [List.zipIdx_map_fst, List.zipIdx_map_fst]

/-- Lines that carry a header meet all rules. -/
theorem Config.Carries.allMet {config : Config} {lines : List Line} (h : config.Carries lines) :
    AllMet Rule.accepts config.rules (lines.take config.window) := by
  obtain ⟨place, -, haccepts⟩ := h.exists_place
  intro rule hrule
  obtain ⟨i, hi, rfl⟩ := List.getElem_of_mem hrule
  exact ⟨_, List.getElem_mem _, haccepts ⟨i, hi⟩⟩

/-- Where the rules are apart, lines carry a header if and only if they meet all rules. -/
theorem Config.carries_iff_allMet {config : Config} {lines : List Line} (hne : config.rules ≠ [])
    (hapart : Apart Rule.accepts config.rules (lines.take config.window)) :
    config.Carries lines ↔ AllMet Rule.accepts config.rules (lines.take config.window) :=
  ⟨fun h => h.allMet, fun hmet => detectList_of_ownLines hne (.of_apart hapart hmet)⟩

/-- **When lines carry a header.** If they do, the rules are matched with different lines of the
window. If every rule has a line of its own there, one that it accepts and that no rule before it
accepts, they do. And if no line of the window is accepted at two places of the list of rules,
they do exactly if every rule accepts some line of the window, and this stays the same if these
lines, or the rules, are put in another order. -/
theorem Config.carries_matching (config : Config) (hne : config.rules ≠ [])
    (lines : List Line) :
    let window := lines.take config.window
    (config.Carries lines →
      ∃ place : Fin config.rules.length → Fin window.length, Function.Injective place ∧
        ∀ i, Rule.accepts config.rules[i] window[place i] = true) ∧
    (OwnLines Rule.accepts config.rules window → config.Carries lines) ∧
    (Apart Rule.accepts config.rules window →
      (config.Carries lines ↔ AllMet Rule.accepts config.rules window) ∧
      ∀ (config' : Config) (lines' : List Line), config'.rules.Perm config.rules →
        (lines'.take config'.window).Perm window →
        (config'.Carries lines' ↔ config.Carries lines)) := by
  intro window
  refine ⟨fun h => h.exists_place, fun hown => detectList_of_ownLines hne hown,
    fun hapart => ⟨carries_iff_allMet hne hapart, fun config' lines' hrules hlines => ?_⟩⟩
  have hne' : config'.rules ≠ [] := fun hnil => by
    rw [hnil, List.nil_perm] at hrules
    exact hne hrules
  rw [carries_iff_allMet hne hapart, carries_iff_allMet hne' (hapart.of_perm hrules hlines)]
  exact ⟨fun hmet => hmet.of_perm hrules.symm hlines.symm,
    fun hmet => hmet.of_perm hrules hlines⟩

/-- Two rules that are apart on three lines: whichever way lines and rules are turned round, the
header is there, and the places of the rules are different. -/
theorem Config.carries_matching_of_turned_lines :
    let a : Rule := ⟨"a", .one ⟨true, [(0x61, 0x61)]⟩⟩
    let b : Rule := ⟨"b", .one ⟨true, [(0x62, 0x62)]⟩⟩
    let config : Config := ⟨[a, b], ⟨"", .empty⟩, 3⟩
    let config' : Config := ⟨[b, a], ⟨"", .empty⟩, 3⟩
    let lines : List Line := [['c', 'a'], [], ['b'], ['a', 'b']]
    let lines' : List Line := [['b'], [], ['c', 'a'], ['c']]
    Apart Rule.accepts config.rules (lines.take config.window) ∧
      OwnLines Rule.accepts config.rules (lines.take config.window) ∧
      config.Carries lines ∧ config'.Carries lines' ∧
      ∃ place : Fin config.rules.length → Fin (lines.take config.window).length,
        Function.Injective place ∧
          ∀ i, Rule.accepts config.rules[i] (lines.take config.window)[place i] = true := by
  intro a b config config' lines lines'
  have hapart : Apart Rule.accepts config.rules (lines.take config.window) := by decide
  have hmet : AllMet Rule.accepts config.rules (lines.take config.window) := by
    intro rule hrule
    rcases List.mem_cons.mp hrule with rfl | hrule
    · exact ⟨['c', 'a'], by decide, rfl⟩
    · obtain rfl := List.mem_singleton.mp hrule
      exact ⟨['b'], by decide, rfl⟩
  have hown := OwnLines.of_apart hapart hmet
  obtain ⟨hplace, hcarries, hturned⟩ :=
    config.carries_matching (List.cons_ne_nil _ _) lines
  have hfound := hcarries hown
  exact ⟨hapart, hown, hfound,
    ((hturned hapart).2 config' lines' (by decide) (by decide)).mpr hfound, hplace hfound⟩

/-- A line that is accepted at two places: it goes to the first rule if it comes first, and to the
second one if it comes behind a line that only the first rule accepts. -/
example :
    let accepts : Char → Line → Bool := fun rule line => line.contains rule
    let verdict (items : List (Except Empty Line)) := (detectList accepts ['a', 'b'] 2 items).verdict
    verdict [.ok ['a', 'b'], .ok ['a']] = .ok false ∧
      verdict [.ok ['a'], .ok ['a', 'b']] = .ok true :=
  ⟨rfl, rfl⟩

end LicenseHeader
