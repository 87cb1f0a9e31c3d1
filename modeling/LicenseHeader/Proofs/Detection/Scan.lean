import LicenseHeader.Detection.Basic

/-!
# Scanning all lines

Detection goes through the lines once and stops as soon as no rule is outstanding. This
module takes the stop out: `scan` enters every line of a list, given with its number, and
keeps the hits and the rules that are left. A scan without outstanding rules meets nothing
more, so detection over a list of lines has the hits of the scan over its window, and only
its ledger of pulled items tells that it stopped early (`detectFrom_eq_scan`).

What makes a scan easy to reason about is that its first rule has the first choice. On
every line the first rule is tried before the others, so it takes the first line that it
accepts, whatever the others do, and the others scan the remaining lines as if it were not
there. The two cases are `scan_cons_of_find?_eq_none` and `scan_cons_of_find?_eq_some`; an
induction over the rules along them turns the scan, in which the lines stand outermost,
into a choice of lines by one rule after another.

## Main definitions

* `Tally`: the hits and the outstanding rules of a scan.
* `scan`: enters all lines of a list.

## Main results

* `scan_cons_of_find?_eq_none`, `scan_cons_of_find?_eq_some`: the first rule has the first
  choice.
* `detectFrom_eq_scan`: detection is a scan of the window that stops early.
-/

namespace LicenseHeader

variable {ρ τ ε : Type}

/-- What a scan has found. -/
structure Tally (ρ : Type) where
  /-- The rules that were met, in the order of their lines. -/
  hits : List (Hit ρ)
  /-- The rules that were not met, in their order. -/
  outstanding : List ρ
  deriving DecidableEq, Repr

/-- Enters all lines of a list, each with its number, without stopping. -/
def scan (accepts : ρ → τ → Bool) : List ρ → List (τ × Nat) → Tally ρ
  | rules, [] => ⟨[], rules⟩
  | rules, (line, number) :: lines =>
    match takeRule (fun rule => accepts rule line) rules with
    | some (rule, left) =>
      let rest := scan accepts left lines
      ⟨⟨rule, number⟩ :: rest.hits, rest.outstanding⟩
    | none => scan accepts rules lines

/-! ### Taking a rule -/

/-- No rule is taken out of none. -/
@[simp] theorem takeRule_nil (accepts : ρ → Bool) : takeRule accepts [] = none := rfl

/-- The first rule is taken if it accepts the line. -/
theorem takeRule_cons_of_accepts (accepts : ρ → Bool) {rule : ρ} (h : accepts rule = true)
    (rules : List ρ) : takeRule accepts (rule :: rules) = some (rule, rules) := by
  rw [takeRule, if_pos h]

/-- The first rule is left where it is if it does not accept the line. -/
theorem takeRule_cons_of_not_accepts (accepts : ρ → Bool) {rule : ρ}
    (h : accepts rule = false) (rules : List ρ) :
    takeRule accepts (rule :: rules) =
      (takeRule accepts rules).map fun (taken, left) => (taken, rule :: left) := by
  rw [takeRule, if_neg (by simp [h])]

/-- A rule that is taken accepts the line, and together with the rules that are left it
makes up the rules there were. -/
theorem takeRule_spec {accepts : ρ → Bool} {rules left : List ρ} {taken : ρ}
    (h : takeRule accepts rules = some (taken, left)) :
    accepts taken = true ∧ (taken :: left).Perm rules := by
  induction rules generalizing left with
  | nil => simp at h
  | cons rule rules ih =>
      cases hr : accepts rule with
      | true =>
          rw [takeRule_cons_of_accepts accepts hr, Option.some.injEq, Prod.mk.injEq] at h
          obtain ⟨rfl, rfl⟩ := h
          exact ⟨hr, List.Perm.refl _⟩
      | false =>
          rw [takeRule_cons_of_not_accepts accepts hr, Option.map_eq_some_iff] at h
          obtain ⟨⟨other, rest⟩, hrest, heq⟩ := h
          obtain ⟨rfl, rfl⟩ := Prod.mk.inj heq
          obtain ⟨hacc, hperm⟩ := ih hrest
          exact ⟨hacc, (List.Perm.swap rule other rest).trans (hperm.cons rule)⟩

/-! ### Steps of a scan -/

/-- Nothing is found in no lines. -/
@[simp] theorem scan_nil_right (accepts : ρ → τ → Bool) (rules : List ρ) :
    scan accepts rules [] = ⟨[], rules⟩ := by
  rw [scan]

/-- A line that meets a rule. -/
theorem scan_cons_of_taken {accepts : ρ → τ → Bool} {rules left : List ρ} {rule : ρ}
    {line : τ} (h : takeRule (fun rule => accepts rule line) rules = some (rule, left))
    (number : Nat) (lines : List (τ × Nat)) :
    scan accepts rules ((line, number) :: lines) =
      ⟨⟨rule, number⟩ :: (scan accepts left lines).hits,
        (scan accepts left lines).outstanding⟩ := by
  rw [scan, h]

/-- A line that meets no rule. -/
theorem scan_cons_of_not_taken {accepts : ρ → τ → Bool} {rules : List ρ} {line : τ}
    (h : takeRule (fun rule => accepts rule line) rules = none)
    (number : Nat) (lines : List (τ × Nat)) :
    scan accepts rules ((line, number) :: lines) = scan accepts rules lines := by
  rw [scan, h]

/-- Where no rule is outstanding nothing is found. -/
@[simp] theorem scan_nil_left (accepts : ρ → τ → Bool) (lines : List (τ × Nat)) :
    scan accepts [] lines = ⟨[], []⟩ := by
  induction lines with
  | nil => rw [scan_nil_right]
  | cons line lines ih => rw [scan_cons_of_not_taken (takeRule_nil _), ih]

/-! ### The first rule has the first choice -/

/-- A first rule that accepts none of the lines stays outstanding, and the others scan as
if it were not there. -/
theorem scan_cons_of_find?_eq_none {accepts : ρ → τ → Bool} {rule : ρ} {rules : List ρ}
    {lines : List (τ × Nat)} (h : lines.find? (fun line => accepts rule line.1) = none) :
    scan accepts (rule :: rules) lines =
      ⟨(scan accepts rules lines).hits, rule :: (scan accepts rules lines).outstanding⟩ := by
  induction lines generalizing rules with
  | nil => rw [scan_nil_right, scan_nil_right]
  | cons numbered lines ih =>
      obtain ⟨line, number⟩ := numbered
      have hnot : accepts rule line = false :=
        Bool.eq_false_iff.mpr (List.find?_eq_none.mp h _ List.mem_cons_self)
      simp only [List.find?_cons, hnot] at h
      have htake := takeRule_cons_of_not_accepts (fun rule => accepts rule line) hnot rules
      cases hr : takeRule (fun rule => accepts rule line) rules with
      | none =>
          rw [hr, Option.map_none] at htake
          rw [scan_cons_of_not_taken htake, scan_cons_of_not_taken hr, ih h]
      | some found =>
          obtain ⟨taken, left⟩ := found
          rw [hr, Option.map_some] at htake
          rw [scan_cons_of_taken htake, scan_cons_of_taken hr, ih h]

/-- A first rule that accepts some of the lines takes the first of these, and the others
scan the remaining lines as if it were not there. -/
theorem scan_cons_of_find?_eq_some {accepts : ρ → τ → Bool} {rule : ρ} {rules : List ρ}
    {lines : List (τ × Nat)} {first : τ × Nat}
    (h : lines.find? (fun line => accepts rule line.1) = some first) :
    let rest := scan accepts rules (lines.eraseP fun line => accepts rule line.1)
    (scan accepts (rule :: rules) lines).hits.Perm (⟨rule, first.2⟩ :: rest.hits) ∧
      (scan accepts (rule :: rules) lines).outstanding = rest.outstanding := by
  induction lines generalizing rules with
  | nil => simp at h
  | cons numbered lines ih =>
      obtain ⟨line, number⟩ := numbered
      cases hacc : accepts rule line with
      | true =>
          have htake := takeRule_cons_of_accepts (fun rule => accepts rule line) hacc rules
          simp only [List.find?_cons, hacc, Option.some.injEq] at h
          subst h
          simp only [List.eraseP_cons, hacc, cond_true]
          rw [scan_cons_of_taken htake]
          exact ⟨List.Perm.refl _, rfl⟩
      | false =>
          have htake :=
            takeRule_cons_of_not_accepts (fun rule => accepts rule line) hacc rules
          simp only [List.find?_cons, hacc] at h
          simp only [List.eraseP_cons, hacc, cond_false]
          cases hr : takeRule (fun rule => accepts rule line) rules with
          | none =>
              rw [hr, Option.map_none] at htake
              rw [scan_cons_of_not_taken htake, scan_cons_of_not_taken hr]
              exact ih h
          | some found =>
              -- another rule takes this line, and the first rule waits in front of those
              -- that are left
              obtain ⟨taken, left⟩ := found
              rw [hr, Option.map_some] at htake
              rw [scan_cons_of_taken htake, scan_cons_of_taken hr]
              obtain ⟨hperm, hout⟩ := @ih left h
              exact ⟨(hperm.cons _).trans (List.Perm.swap _ _ _), hout⟩

/-- Where no rule is left, the first rule has taken a line, and the others leave no rule among the
remaining lines. -/
theorem exists_find?_of_outstanding_eq_nil {accepts : ρ → τ → Bool} {rule : ρ} {rules : List ρ}
    {lines : List (τ × Nat)} (h : (scan accepts (rule :: rules) lines).outstanding = []) :
    ∃ first, lines.find? (fun line => accepts rule line.1) = some first ∧
      (scan accepts rules (lines.eraseP fun line => accepts rule line.1)).outstanding = [] := by
  cases hfind : lines.find? fun line => accepts rule line.1 with
  | none =>
      rw [scan_cons_of_find?_eq_none hfind] at h
      exact absurd h (List.cons_ne_nil _ _)
  | some first =>
      rw [(scan_cons_of_find?_eq_some hfind).2] at h
      exact ⟨first, rfl, h⟩

/-! ### Hits -/

/-- Every hit is about a line of the list, which its rule accepts. -/
theorem exists_line_of_mem_hits {accepts : ρ → τ → Bool} {rules : List ρ}
    {lines : List (τ × Nat)} {hit : Hit ρ} (h : hit ∈ (scan accepts rules lines).hits) :
    ∃ line, (line, hit.line) ∈ lines ∧ accepts hit.rule line = true := by
  induction lines generalizing rules with
  | nil => simp at h
  | cons numbered lines ih =>
      obtain ⟨line, number⟩ := numbered
      cases hr : takeRule (fun rule => accepts rule line) rules with
      | none =>
          rw [scan_cons_of_not_taken hr] at h
          obtain ⟨other, hmem, hacc⟩ := ih h
          exact ⟨other, List.mem_cons_of_mem _ hmem, hacc⟩
      | some found =>
          obtain ⟨taken, left⟩ := found
          rw [scan_cons_of_taken hr] at h
          rcases List.mem_cons.mp h with rfl | h
          · exact ⟨line, List.mem_cons_self, (takeRule_spec hr).1⟩
          · obtain ⟨other, hmem, hacc⟩ := ih h
            exact ⟨other, List.mem_cons_of_mem _ hmem, hacc⟩

/-- The lines of the hits stand in the order of the list, each at most once. -/
theorem sublist_hits (accepts : ρ → τ → Bool) (rules : List ρ) (lines : List (τ × Nat)) :
    ((scan accepts rules lines).hits.map Hit.line).Sublist (lines.map Prod.snd) := by
  induction lines generalizing rules with
  | nil => simp
  | cons numbered lines ih =>
      obtain ⟨line, number⟩ := numbered
      cases hr : takeRule (fun rule => accepts rule line) rules with
      | none =>
          rw [scan_cons_of_not_taken hr]
          exact (ih rules).cons number
      | some found =>
          obtain ⟨taken, left⟩ := found
          rw [scan_cons_of_taken hr]
          exact (ih left).cons_cons number

/-- The rules of the hits and the outstanding ones are the rules there were. -/
theorem perm_hits_outstanding (accepts : ρ → τ → Bool) (rules : List ρ)
    (lines : List (τ × Nat)) :
    ((scan accepts rules lines).hits.map Hit.rule ++
      (scan accepts rules lines).outstanding).Perm rules := by
  induction lines generalizing rules with
  | nil => simp
  | cons numbered lines ih =>
      obtain ⟨line, number⟩ := numbered
      cases hr : takeRule (fun rule => accepts rule line) rules with
      | none =>
          rw [scan_cons_of_not_taken hr]
          exact ih rules
      | some found =>
          obtain ⟨taken, left⟩ := found
          rw [scan_cons_of_taken hr]
          exact ((ih left).cons taken).trans (takeRule_spec hr).2

/-! ### Steps of a detection -/

section Step

variable {σ : Type} {accepts : ρ → τ → Bool} {pull : σ → Option (Except ε τ) × σ}
  {source rest : σ} {line : τ} {outstanding left : List ρ} {taken : ρ}

/-- A line that meets none of the outstanding rules. -/
theorem detectFrom_of_not_taken (hpull : pull source = (some (.ok line), rest))
    (hr : takeRule (fun rule => accepts rule line) outstanding = none)
    (hne : outstanding ≠ []) (pulled : Nat) (hits : List (Hit ρ)) (window : Nat) :
    detectFrom accepts pull pulled hits outstanding source (window + 1) =
      detectFrom accepts pull (pulled + 1) hits outstanding rest window := by
  simp only [detectFrom, hpull, enterLine, hr, List.isEmpty_eq_false_iff.mpr hne]
  rfl

/-- A line that meets a rule, with other rules left. -/
theorem detectFrom_of_taken (hpull : pull source = (some (.ok line), rest))
    (hr : takeRule (fun rule => accepts rule line) outstanding = some (taken, left))
    (hne : left ≠ []) (pulled : Nat) (hits : List (Hit ρ)) (window : Nat) :
    detectFrom accepts pull pulled hits outstanding source (window + 1) =
      detectFrom accepts pull (pulled + 1) (⟨taken, pulled + 1⟩ :: hits) left rest
        window := by
  simp only [detectFrom, hpull, enterLine, hr, List.isEmpty_eq_false_iff.mpr hne]
  rfl

/-- A line that meets the last rule. -/
theorem detectFrom_of_taken_last (hpull : pull source = (some (.ok line), rest))
    (hr : takeRule (fun rule => accepts rule line) outstanding = some (taken, []))
    (pulled : Nat) (hits : List (Hit ρ)) (window : Nat) :
    detectFrom accepts pull pulled hits outstanding source (window + 1) =
      ⟨.ok true, pulled + 1, (⟨taken, pulled + 1⟩ :: hits).reverse, [], rest⟩ := by
  simp only [detectFrom, hpull, enterLine, hr]
  rfl

end Step

/-! ### Detection and scan -/

/-- **Detection is a scan of the window that stops early.** With rules outstanding,
detection over a list of lines succeeds if and only if the scan leaves no rule; its hits are
those of the scan; and the last item that it pulls is the line of the last hit if it
succeeds, and the last line of the window otherwise. -/
theorem detectFrom_eq_scan {accepts : ρ → τ → Bool} {outstanding : List ρ}
    (hne : outstanding ≠ []) (pulled : Nat) (hits : List (Hit ρ)) (lines : List τ)
    (window : Nat) :
    let items : List (Except ε τ) := lines.map Except.ok
    let outcome := detectFrom accepts pullItem pulled hits outstanding items window
    let tally := scan accepts outstanding ((lines.take window).zipIdx (pulled + 1))
    outcome.verdict = .ok tally.outstanding.isEmpty ∧
      outcome.hits = hits.reverse ++ tally.hits ∧
      outcome.outstanding = tally.outstanding ∧
      (tally.outstanding = [] →
        tally.hits.getLast?.map Hit.line = some outcome.pulled) ∧
      (tally.outstanding ≠ [] → outcome.pulled = pulled + min window lines.length) := by
  induction lines generalizing outstanding pulled hits window with
  | nil =>
      cases window with
      | zero => simp [detectFrom, hne]
      | succ window => simp [detectFrom, pullItem, hne]
  | cons line lines ih =>
      cases window with
      | zero => simp [detectFrom, hne]
      | succ window =>
          have hpull : pullItem (Except.ok line :: lines.map Except.ok) =
              (some (Except.ok line : Except ε τ), lines.map Except.ok) := rfl
          simp only [List.map_cons, List.take_succ_cons, List.zipIdx_cons]
          cases hr : takeRule (fun rule => accepts rule line) outstanding with
          | none =>
              rw [scan_cons_of_not_taken hr, detectFrom_of_not_taken hpull hr hne]
              obtain ⟨hv, hh, ho, hp, hq⟩ := ih hne (pulled + 1) hits window
              refine ⟨hv, hh, ho, hp, fun h => ?_⟩
              rw [hq h, List.length_cons]
              omega
          | some found =>
              obtain ⟨taken, left⟩ := found
              rw [scan_cons_of_taken hr]
              by_cases hleft : left = []
              · subst hleft
                rw [detectFrom_of_taken_last hpull hr]
                simp
              · rw [detectFrom_of_taken hpull hr hleft]
                obtain ⟨hv, hh, ho, hp, hq⟩ :=
                  ih hleft (pulled + 1) (⟨taken, pulled + 1⟩ :: hits) window
                refine ⟨hv, by simpa using hh, ho, fun h => ?_, fun h => ?_⟩
                · -- the rest of the scan has a hit, since it uses up the rules left
                  have hlast := hp h
                  obtain ⟨hit, hhit, hline⟩ := Option.map_eq_some_iff.mp hlast
                  rw [List.getLast?_cons, hhit]
                  exact congrArg some hline
                · rw [hq h, List.length_cons]
                  omega

/-- The verdict of a detection with rules is whether the scan of its window leaves none. -/
theorem verdict_detectList_eq {accepts : ρ → τ → Bool} {rules : List ρ} (hne : rules ≠ [])
    (window : Nat) (lines : List τ) :
    (detectList accepts rules window (lines.map Except.ok : List (Except ε τ))).verdict =
      .ok (scan accepts rules ((lines.take window).zipIdx 1)).outstanding.isEmpty :=
  (detectFrom_eq_scan hne 0 [] lines window).1

end LicenseHeader
