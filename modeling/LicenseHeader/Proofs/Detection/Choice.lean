import LicenseHeader.Check.Content
import LicenseHeader.Detection.Assignment
import LicenseHeader.Proofs.Detection.Scan

/-!
# Detection as a choice of lines

Detection pulls one line after another and lets each line meet one of the outstanding rules;
`assign` lets one rule after another choose the earliest line that is free. This module
shows that the two orders come to the same pairs of rules and lines, however the rules
overlap and however often one of them is listed.

The lines that are still free after some choices are a filtered list of numbered lines
(`free`), and the earliest of them that a rule accepts is found by a search
(`earliest_eq_find?`), so a choice erases the line that it found (`free_cons`). The scan of
the free lines does the same with its first rule, and the rest is an induction over the
rules (`scan_perm_assigned`).

## Main definitions

* `free`: the lines that are not taken, with their numbers.
* `assigned`: the pairs of rules and lines of an assignment.

## Main results

* `scan_perm_assigned`: a scan makes the hits of the assignment, and leaves a rule exactly
  if some rule has no line.
* `detectList_eq_assign`: the same for detection, with the ledger of pulled items.
* `Config.detectLines_eq_assign`: the same for the rules and the window of a configuration.
-/

namespace LicenseHeader

variable {ρ τ ε : Type} {accepts : ρ → τ → Bool}

/-- The lines that are not taken, each with its number; lines count from one. -/
def free (taken : List Nat) (lines : List τ) : List (τ × Nat) :=
  (lines.zipIdx 1).filter fun line => !taken.contains line.2

/-- The pairs of rules and lines of an assignment. -/
def assigned (rules : List ρ) (choice : List (Option Nat)) : List (Hit ρ) :=
  (rules.zip choice).filterMap fun (rule, number) => number.map (Hit.mk rule)

/-- A rule with a line adds its pair. -/
@[simp] theorem assigned_cons_some (rule : ρ) (rules : List ρ) (number : Nat)
    (choice : List (Option Nat)) :
    assigned (rule :: rules) (some number :: choice) =
      ⟨rule, number⟩ :: assigned rules choice := rfl

/-- A rule without a line adds nothing. -/
@[simp] theorem assigned_cons_none (rule : ρ) (rules : List ρ) (choice : List (Option Nat)) :
    assigned (rule :: rules) (none :: choice) = assigned rules choice := rfl

/-! ### Free lines -/

/-- At first all lines are free. -/
theorem free_nil (lines : List τ) : free [] lines = lines.zipIdx 1 :=
  List.filter_eq_self.mpr fun _ _ => rfl

/-- The numbers of free lines differ. -/
theorem nodup_free (taken : List Nat) (lines : List τ) :
    ((free taken lines).map Prod.snd).Nodup := by
  have hsub : ((free taken lines).map Prod.snd).Sublist ((lines.zipIdx 1).map Prod.snd) :=
    List.filter_sublist.map Prod.snd
  rw [List.zipIdx_map_snd] at hsub
  exact hsub.nodup List.nodup_range'

/-- The earliest line is the first free line that is accepted. -/
theorem earliest_eq_find? (accepts : τ → Bool) (taken : List Nat) (lines : List τ) :
    earliest accepts taken lines =
      ((free taken lines).find? fun line => accepts line.1).map Prod.snd := by
  unfold earliest free
  generalize 1 = first
  induction lines generalizing first with
  | nil => rfl
  | cons line lines ih =>
      rw [earliestFrom, List.zipIdx_cons, ih, List.filter_cons]
      cases hfree : taken.contains first <;> cases hacc : accepts line <;>
        simp [hacc]

/-- Where numbers differ, leaving out the number of the first accepted line erases that
line. -/
theorem filter_ne_eq_eraseP {accepts : τ → Bool} {lines : List (τ × Nat)}
    {first : τ × Nat} (hnodup : (lines.map Prod.snd).Nodup)
    (h : lines.find? (fun line => accepts line.1) = some first) :
    lines.filter (fun line => !(first.2 == line.2)) =
      lines.eraseP fun line => accepts line.1 := by
  induction lines with
  | nil => simp at h
  | cons line lines ih =>
      rw [List.map_cons, List.nodup_cons] at hnodup
      obtain ⟨hnot, hnodup⟩ := hnodup
      cases hacc : accepts line.1 with
      | true =>
          simp only [List.find?_cons, hacc, Option.some.injEq] at h
          subst h
          simp only [List.filter_cons, List.eraseP_cons, hacc, BEq.rfl, Bool.not_true,
            cond_true]
          refine List.filter_eq_self.mpr fun other hother => ?_
          have hne : line.2 ≠ other.2 := fun heq =>
            hnot (heq ▸ List.mem_map_of_mem hother)
          simpa using hne
      | false =>
          simp only [List.find?_cons, hacc] at h
          have hmem := List.mem_of_find?_eq_some h
          have hne : first.2 ≠ line.2 := fun heq =>
            hnot (heq ▸ List.mem_map_of_mem hmem)
          simp only [List.filter_cons, List.eraseP_cons, hacc, cond_false]
          rw [if_pos (by simpa using hne), ih hnodup h]

/-- Taking the first free line that is accepted erases it from the free lines. -/
theorem free_cons {accepts : τ → Bool} {taken : List Nat} {lines : List τ}
    {first : τ × Nat}
    (h : (free taken lines).find? (fun line => accepts line.1) = some first) :
    free (first.2 :: taken) lines =
      (free taken lines).eraseP fun line => accepts line.1 := by
  rw [← filter_ne_eq_eraseP (nodup_free taken lines) h]
  unfold free
  rw [List.filter_filter]
  refine List.filter_congr fun line _ => ?_
  rw [List.contains_cons, Bool.not_or, BEq.comm]

/-! ### Scan and assignment -/

/-- **A scan makes the hits of the assignment.** Scanning the free lines meets each rule at
the line that the rule takes when the rules choose one after the other, and a rule is left
outstanding exactly if some rule finds no line. Induction on the rules: the first of them
has the first choice on both sides. -/
theorem scan_perm_assigned (rules : List ρ) (taken : List Nat) (lines : List τ) :
    let choice := assignFrom accepts lines taken rules
    let tally := scan accepts rules (free taken lines)
    tally.hits.Perm (assigned rules choice) ∧
      (tally.outstanding = [] ↔ ∀ number ∈ choice, number.isSome = true) := by
  induction rules generalizing taken with
  | nil => simp [assignFrom, assigned]
  | cons rule rules ih =>
      cases hfind : (free taken lines).find? (fun line => accepts rule line.1) with
      | none =>
          have hearliest : earliest (accepts rule) taken lines = none := by
            rw [earliest_eq_find?, hfind, Option.map_none]
          obtain ⟨hperm, -⟩ := ih taken
          rw [scan_cons_of_find?_eq_none hfind]
          simp only [assignFrom, hearliest]
          refine ⟨hperm, ?_⟩
          simp
      | some first =>
          have hearliest : earliest (accepts rule) taken lines = some first.2 := by
            rw [earliest_eq_find?, hfind, Option.map_some]
          obtain ⟨hhits, hout⟩ := @scan_cons_of_find?_eq_some _ _ _ _ rules _ _ hfind
          obtain ⟨hperm, hsome⟩ := ih (first.2 :: taken)
          rw [free_cons hfind] at hperm hsome
          simp only [assignFrom, hearliest]
          refine ⟨hhits.trans (hperm.cons _), ?_⟩
          rw [hout, hsome]
          simp

/-- The lines of the pairs of an assignment are those that some rule takes. -/
theorem mem_map_line_assigned {rules : List ρ} {taken : List Nat} {lines : List τ}
    {number : Nat} :
    number ∈ (assigned rules (assignFrom accepts lines taken rules)).map Hit.line ↔
      some number ∈ assignFrom accepts lines taken rules := by
  induction rules generalizing taken with
  | nil => simp [assignFrom, assigned]
  | cons rule rules ih =>
      cases hearliest : earliest (accepts rule) taken lines with
      | none =>
          simp only [assignFrom, hearliest, assigned_cons_none]
          rw [ih, List.mem_cons]
          simp
      | some other =>
          simp only [assignFrom, hearliest, assigned_cons_some]
          rw [List.map_cons, List.mem_cons, List.mem_cons, ih]
          simp

/-! ### Detection and assignment -/

/-- In a list that ascends the last element is the greatest. -/
theorem le_of_getLast?_eq_some {numbers : List Nat} {last number : Nat}
    (hasc : numbers.Pairwise (· < ·)) (hlast : numbers.getLast? = some last)
    (hmem : number ∈ numbers) : number ≤ last := by
  obtain ⟨init, rfl⟩ := List.getLast?_eq_some_iff.mp hlast
  rw [List.pairwise_append] at hasc
  rcases List.mem_append.mp hmem with hmem | hmem
  · exact Nat.le_of_lt (hasc.2.2 number hmem last List.mem_cons_self)
  · exact Nat.le_of_eq (List.mem_singleton.mp hmem)

/-- The hits of a scan of numbered lines ascend. -/
theorem pairwise_lt_hits (rules : List ρ) (lines : List τ) (first : Nat) :
    (scan accepts rules (lines.zipIdx first)).hits.Pairwise
      fun hit other => hit.line < other.line := by
  have hsub := sublist_hits accepts rules (lines.zipIdx first)
  rw [List.zipIdx_map_snd] at hsub
  exact List.pairwise_map.mp (List.Pairwise.sublist hsub List.pairwise_lt_range')

/-- **Detection is an assignment of lines to rules.** Where a header has rules, detection
succeeds if and only if every rule gets a line of the window when the rules choose one
after the other; its hits are the pairs of that choice, in the order of the lines; and it
pulls items up to the last line chosen if it succeeds, and up to the end of the window
otherwise. -/
theorem detectList_eq_assign {rules : List ρ} (hne : rules ≠ []) (window : Nat)
    (lines : List τ) :
    let items : List (Except ε τ) := lines.map Except.ok
    let outcome := detectList accepts rules window items
    let choice := assign accepts rules (lines.take window)
    (outcome.verdict = .ok true ↔ ∀ number ∈ choice, number.isSome = true) ∧
      outcome.hits.Perm (assigned rules choice) ∧
      (outcome.hits.Pairwise fun hit other => hit.line < other.line) ∧
      (outcome.verdict = .ok true → some outcome.pulled ∈ choice ∧
        ∀ number, some number ∈ choice → number ≤ outcome.pulled) ∧
      (outcome.verdict ≠ .ok true → outcome.verdict = .ok false ∧
        outcome.pulled = min window lines.length) := by
  intro items outcome choice
  obtain ⟨hperm, hsome⟩ := @scan_perm_assigned _ _ accepts rules [] (lines.take window)
  obtain ⟨hverdict, hhits, -, hlast, hpulled⟩ :=
    @detectFrom_eq_scan _ _ ε accepts rules hne 0 [] lines window
  have hasc := @pairwise_lt_hits _ _ accepts rules (lines.take window) 1
  rw [free_nil] at hperm hsome
  rw [List.reverse_nil, List.nil_append] at hhits
  change outcome.verdict = _ at hverdict
  change outcome.hits = _ at hhits
  have hdone : outcome.verdict = .ok true ↔
      (scan accepts rules ((lines.take window).zipIdx 1)).outstanding = [] := by
    rw [hverdict]
    simp
  have hlines : ∀ number, some number ∈ choice ↔ number ∈ outcome.hits.map Hit.line := by
    intro number
    rw [hhits, (hperm.map Hit.line).mem_iff]
    exact mem_map_line_assigned.symm
  refine ⟨hdone.trans hsome, ?_, ?_, fun h => ?_, fun h => ?_⟩
  · exact hhits ▸ hperm
  · exact hhits ▸ hasc
  · have hlast := hlast (hdone.mp h)
    rw [← List.getLast?_map, ← hhits] at hlast
    refine ⟨(hlines _).mpr (List.mem_of_getLast? hlast), fun number hnumber => ?_⟩
    have hasc : (outcome.hits.map Hit.line).Pairwise (· < ·) :=
      List.pairwise_map.mpr (hhits ▸ hasc)
    exact le_of_getLast?_eq_some hasc hlast ((hlines number).mp hnumber)
  · have hleft := mt hdone.mpr h
    refine ⟨?_, (hpulled hleft).trans (Nat.zero_add _)⟩
    rw [hverdict, List.isEmpty_eq_false_iff.mpr hleft]

/-- Where a header has no rules, the first line of the window completes it. -/
theorem detectList_nil (window : Nat) (lines : List τ) :
    let items : List (Except ε τ) := lines.map Except.ok
    let outcome := detectList accepts [] window items
    (1 ≤ window ∧ lines ≠ [] → outcome.verdict = .ok true ∧ outcome.pulled = 1) ∧
      (¬(1 ≤ window ∧ lines ≠ []) → outcome.verdict = .ok false ∧ outcome.pulled = 0) := by
  cases window with
  | zero => simp [detectList, detect, detectFrom]
  | succ window =>
      cases lines with
      | nil => simp [detectList, detect, detectFrom, pullItem]
      | cons line lines =>
          simp [detectList, detect, detectFrom, pullItem, enterLine]

/-- **The lines of a header are assigned rule by rule.** For a configuration with rules,
detection among given lines succeeds if and only if every rule gets a line of the window
when the rules choose one after the other, each the earliest line that it accepts and that
is free. Its hits are the pairs of that choice. If it succeeds, it has pulled the items up
to the last line chosen, and if not, all items of the window. A configuration without rules
is content with the first line of the window. -/
theorem Config.detectLines_eq_assign (config : Config) (lines : List Line) :
    let items : List (Except ε Line) := lines.map Except.ok
    let outcome := config.detectLines items
    let choice := assign Rule.accepts config.rules (lines.take config.window)
    (config.rules ≠ [] →
      (outcome.verdict = .ok true ↔ ∀ number ∈ choice, number.isSome = true) ∧
        outcome.hits.Perm (assigned config.rules choice) ∧
        (outcome.hits.Pairwise fun hit other => hit.line < other.line) ∧
        (outcome.verdict = .ok true → some outcome.pulled ∈ choice ∧
          ∀ number, some number ∈ choice → number ≤ outcome.pulled) ∧
        (outcome.verdict ≠ .ok true → outcome.verdict = .ok false ∧
          outcome.pulled = min config.window lines.length)) ∧
      (config.rules = [] →
        (1 ≤ config.window ∧ lines ≠ [] →
          outcome.verdict = .ok true ∧ outcome.pulled = 1) ∧
        (¬(1 ≤ config.window ∧ lines ≠ []) →
          outcome.verdict = .ok false ∧ outcome.pulled = 0)) := by
  intro items outcome choice
  refine ⟨fun hne => detectList_eq_assign hne config.window lines, fun hnil => ?_⟩
  have hdetect : outcome = detectList Rule.accepts [] config.window items := by
    rw [← hnil]
    rfl
  rw [hdetect]
  exact detectList_nil config.window lines

end LicenseHeader
