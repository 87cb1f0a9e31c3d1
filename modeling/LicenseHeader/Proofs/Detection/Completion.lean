import LicenseHeader.Check.Content
import LicenseHeader.Proofs.Detection.Settled

/-!
# What ends a detection among items

Items are lines, or failures in their stead. Three things can end a detection among them:
lines that complete the header, a failure, and the end of the window or of the items. This
module says which of them it is by looking at the items alone. The header is *complete at*
item `k` if the first `k` items are lines that carry the header by themselves. The least such
`k` in the window ends a detection with success, whatever stands behind it; if there is none,
then the first failure in the window is the outcome; and if that is missing too, detection
fails at the end of the window or of the items.

A success of the detection is a place where the header is complete (`completeAt_pulled`), and
the header cannot be complete at an earlier one, because the detection would have ended there
(`verdict_of_completeAt`). The rest is a ledger of the items pulled (`detectList_pulls`).

## Main definitions

* `Config.Carries`: whether lines carry the header.
* `Config.CompleteAt`: whether the header is complete at an item.

## Main results

* `detectList_pulls`: which items a detection pulls.
* `Config.detectLines_ends`: what ends a detection among items.
-/

namespace LicenseHeader

variable {ρ τ ε : Type} {accepts : ρ → τ → Bool}

/-! ### Pulls from a list -/

/-- The answer to a pull from a list is the item of that number. -/
@[simp] theorem nthPull_pullItem (k : Nat) (items : List (Except ε τ)) :
    (nthPull pullItem k items).1 = items[k]? := by
  induction k generalizing items with
  | zero => cases items <;> rfl
  | succ k ih =>
      rw [nthPull, ih]
      cases items <;> rfl

/-- Lists with the same first items keep pace for as many pulls. -/
theorem pullItem_lockstep_take :
    Lockstep Eq (pullItem (τ := Except ε τ)) pullItem fun pulls items items' =>
      items.take pulls = items'.take pulls := by
  intro pulls items items' h
  cases items with
  | nil =>
      cases items' with
      | nil => exact ⟨.none, rfl⟩
      | cons item' items' => exact absurd h (by simp)
  | cons item items =>
      cases items' with
      | nil => exact absurd h (by simp)
      | cons item' items' =>
          rw [List.take_succ_cons, List.take_succ_cons, List.cons.injEq] at h
          obtain ⟨rfl, hrest⟩ := h
          exact ⟨.some (Agree.refl item), hrest⟩

/-- Lists of the same lines keep pace for ever, whatever failures there might have been. -/
theorem pullItem_lockstep_lines {ε' : Type} (related : ε → ε' → Prop) :
    Lockstep related pullItem pullItem fun _ items items' =>
      ∃ lines : List τ, items = lines.map Except.ok ∧ items' = lines.map Except.ok := by
  rintro pulls _ _ ⟨lines, rfl, rfl⟩
  cases lines with
  | nil => exact ⟨.none, [], rfl, rfl⟩
  | cons line lines => exact ⟨.some (.ok line), lines, rfl, rfl⟩

/-- Items that are lines one by one are a list of lines. -/
theorem exists_lines_of_getElem? {items : List (Except ε τ)} {count : Nat}
    (h : ∀ k < count, ∃ line, items[k]? = some (.ok line)) :
    ∃ lines : List τ, lines.length = count ∧ items.take count = lines.map Except.ok := by
  induction count generalizing items with
  | zero => exact ⟨[], rfl, rfl⟩
  | succ count ih =>
      obtain ⟨line, hline⟩ := h 0 (Nat.succ_pos count)
      cases items with
      | nil => exact absurd hline (by simp)
      | cons item items =>
          obtain rfl : item = .ok line := Option.some.inj hline
          obtain ⟨lines, hlength, hlines⟩ :=
            ih fun k hk => h (k + 1) (Nat.succ_lt_succ hk)
          refine ⟨line :: lines, by rw [List.length_cons, hlength], ?_⟩
          rw [List.take_succ_cons, hlines, List.map_cons]

/-- **The items that a detection pulls from a list.** They are lines, but for the last one
where the detection fails; and a detection without success that does not fail has pulled the
whole window, or all items. -/
theorem detectList_pulls (accepts : ρ → τ → Bool) (rules : List ρ) (window : Nat)
    (items : List (Except ε τ)) :
    let outcome := detectList accepts rules window items
    outcome.pulled ≤ min window items.length ∧
      (∀ found, outcome.verdict = .ok found →
        ∀ k < outcome.pulled, ∃ line, items[k]? = some (.ok line)) ∧
      (outcome.verdict = .ok false → outcome.pulled = min window items.length) ∧
      (∀ e, outcome.verdict = .error e → ∃ k, outcome.pulled = k + 1 ∧ k < window ∧
        items[k]? = some (.error e) ∧ ∀ j < k, ∃ line, items[j]? = some (.ok line)) := by
  intro outcome
  obtain ⟨count, hcount, hyields, hok, hend, herror⟩ :
      ∃ count ≤ window, Yields pullItem count items ∧
        (∀ found, outcome.verdict = .ok found → outcome.pulled = 0 + count) ∧
        (outcome.verdict = .ok false → count < window →
          (nthPull pullItem count items).1 = none) ∧
        (∀ e, outcome.verdict = .error e → outcome.pulled = 0 + count + 1 ∧
          count < window ∧ (nthPull pullItem count items).1 = some (.error e)) :=
    detectFrom_yields 0 [] rules items window
  simp only [Nat.zero_add, nthPull_pullItem] at hok hend herror
  have hlines : ∀ k < count, ∃ line, items[k]? = some (.ok line) := by
    intro k hk
    rw [← nthPull_pullItem k items]
    exact hyields k hk
  have hlength : count ≤ items.length := by
    refine Nat.le_of_not_lt fun hlt => ?_
    obtain ⟨line, hline⟩ := hlines items.length hlt
    exact absurd hline (by simp)
  refine ⟨?_, fun found hfound => ?_, fun hfalse => ?_, fun e he => ?_⟩
  · cases hverdict : outcome.verdict with
    | ok found =>
        rw [hok found hverdict]
        exact Nat.le_min.mpr ⟨hcount, hlength⟩
    | error e =>
        obtain ⟨hpulled, hlt, hfailed⟩ := herror e hverdict
        obtain ⟨hbound, -⟩ := List.getElem?_eq_some_iff.mp hfailed
        rw [hpulled]
        exact Nat.le_min.mpr ⟨hlt, hbound⟩
  · rw [hok found hfound]
    exact hlines
  · rw [hok false hfalse]
    rcases Nat.lt_or_ge count window with hlt | hge
    · have hover := List.getElem?_eq_none_iff.mp (hend hfalse hlt)
      omega
    · omega
  · obtain ⟨hpulled, hlt, hfailed⟩ := herror e he
    exact ⟨count, hpulled, hlt, hfailed, hlines⟩

/-! ### Completion -/

/-- Whether lines carry the header, when all of them can be had. -/
def Config.Carries (config : Config) (lines : List Line) : Prop :=
  (config.detectLines (lines.map Except.ok : List (Except Empty Line))).verdict = .ok true

/-- The header is complete at item number `k`: the first `k` items, which have room in the
window, are lines that carry the header. -/
def Config.CompleteAt (config : Config) (items : List (Except ε Line)) (k : Nat) : Prop :=
  1 ≤ k ∧ k ≤ config.window ∧
    ∃ lines : List Line, lines.length = k ∧ items.take k = lines.map Except.ok ∧
      config.Carries lines

variable {config : Config} {items : List (Except ε Line)}

/-- Lines that carry the header do so where failures are possible too. -/
theorem Config.carries_iff (ε : Type) {lines : List Line} :
    config.Carries lines ↔
      (config.detectLines (lines.map Except.ok : List (Except ε Line))).verdict = .ok true :=
  (detect_lockstep (pullItem_lockstep_lines fun (_ : Empty) (_ : ε) => True)
    Rule.accepts config.rules config.window ⟨lines, rfl, rfl⟩).verdict.eq_ok_iff

/-- **Items that are not pulled do not matter.** Unless a detection came to the end of its
items, which others might follow, all lists with the items that it pulled lead to the same
outcome. -/
theorem Config.detectLines_of_take {items' : List (Except ε Line)}
    (h : items'.take (config.detectLines items).pulled =
      items.take (config.detectLines items).pulled)
    (hstop : (config.detectLines items).Settled ∨
      (config.detectLines items).pulled = config.window) :
    (config.detectLines items').verdict = (config.detectLines items).verdict ∧
      (config.detectLines items').pulled = (config.detectLines items).pulled := by
  have hagrees := detect_lockstep_of_stopped pullItem_lockstep_take Rule.accepts
    config.rules config.window h hstop
  exact ⟨hagrees.verdict.eq, hagrees.pulled⟩

/-- Where the header is complete, detection succeeds there or earlier. -/
theorem Config.verdict_of_completeAt {k : Nat} (h : config.CompleteAt items k) :
    (config.detectLines items).verdict = .ok true ∧ (config.detectLines items).pulled ≤ k := by
  obtain ⟨-, -, lines, hlength, htake, hcarries⟩ := h
  have htrue := (carries_iff ε).mp hcarries
  rw [← htake] at htrue
  -- the items up to there by themselves stop the detection, and so all the more the others
  have hle : (config.detectLines (items.take k)).pulled ≤ k := by
    have hpulls :=
      (detectList_pulls Rule.accepts config.rules config.window (items.take k)).1
    rw [List.length_take] at hpulls
    exact Nat.le_trans hpulls (Nat.le_trans (Nat.min_le_right _ _) (Nat.min_le_left _ _))
  have hsettled : (config.detectLines (items.take k)).Settled := by
    rw [Outcome.Settled, htrue]
    simp
  have hsame : items.take (config.detectLines (items.take k)).pulled =
      (items.take k).take (config.detectLines (items.take k)).pulled := by
    rw [List.take_take, Nat.min_eq_left hle]
  obtain ⟨hverdict, hpulled⟩ := detectLines_of_take hsame (.inl hsettled)
  exact ⟨hverdict.trans htrue, hpulled ▸ hle⟩

/-- Where detection succeeds, the header is complete. -/
theorem Config.completeAt_pulled (h : (config.detectLines items).verdict = .ok true) :
    config.CompleteAt items (config.detectLines items).pulled := by
  have hsettled : (config.detectLines items).Settled := by
    rw [Outcome.Settled, h]
    simp
  obtain ⟨hle, hlines, -⟩ :=
    detectList_pulls Rule.accepts config.rules config.window items
  obtain ⟨lines, hlength, htake⟩ := exists_lines_of_getElem? (hlines true h)
  refine ⟨lt_pulled_of_settled hsettled, Nat.le_trans hle (Nat.min_le_left _ _), lines,
    hlength, htake, (carries_iff ε).mpr ?_⟩
  rw [← htake]
  refine (detectLines_of_take ?_ (.inl hsettled)).1.trans h
  exact (List.take_take ..).trans (congrArg (items.take ·) (Nat.min_self _))

/-! ### What ends a detection -/

/-- The least place at which the header is complete ends a detection with success. -/
theorem Config.detectLines_of_least {k : Nat} (hk : config.CompleteAt items k)
    (hleast : ∀ j < k, ¬config.CompleteAt items j) :
    (config.detectLines items).verdict = .ok true ∧ (config.detectLines items).pulled = k := by
  obtain ⟨htrue, hearly⟩ := verdict_of_completeAt hk
  refine ⟨htrue, Nat.le_antisymm hearly (Nat.le_of_not_lt fun hlt => ?_)⟩
  exact hleast _ hlt (completeAt_pulled htrue)

/-- Without a place at which the header is complete, the first failure in the window ends a
detection. -/
theorem Config.detectLines_of_failure {k : Nat} {e : ε}
    (hnone : ∀ k, ¬config.CompleteAt items k) (hwindow : k < config.window)
    (hfailure : items[k]? = some (.error e))
    (hfirst : ∀ j < k, ∀ e', items[j]? ≠ some (.error e')) :
    (config.detectLines items).verdict = .error e ∧
      (config.detectLines items).pulled = k + 1 := by
  obtain ⟨-, hlines, hfalse, herror⟩ :=
    detectList_pulls Rule.accepts config.rules config.window items
  rcases hverdict : (config.detectLines items).verdict with e' | found
  · obtain ⟨k', hpulled, -, hfailure', hbefore⟩ := herror e' hverdict
    -- both failures are the first one
    rcases Nat.lt_trichotomy k k' with hlt | rfl | hgt
    · obtain ⟨line, hline⟩ := hbefore k hlt
      rw [hfailure] at hline
      exact absurd hline (by simp)
    · rw [hfailure] at hfailure'
      obtain rfl := Except.error.inj (Option.some.inj hfailure')
      exact ⟨rfl, hpulled⟩
    · exact absurd hfailure' (hfirst k' hgt e')
  · cases found with
    | true => exact absurd (completeAt_pulled hverdict) (hnone _)
    | false =>
        -- the failure would have been pulled as well
        obtain ⟨hbound, -⟩ := List.getElem?_eq_some_iff.mp hfailure
        have hlt : k < (config.detectLines items).pulled :=
          Nat.lt_of_lt_of_eq (Nat.lt_min.mpr ⟨hwindow, hbound⟩) (hfalse hverdict).symm
        obtain ⟨line, hline⟩ := hlines false hverdict k hlt
        rw [hfailure] at hline
        exact absurd hline (by simp)

/-- Without a place at which the header is complete and without a failure in the window, a
detection ends without success, with the window or with the items. -/
theorem Config.detectLines_of_clean (hnone : ∀ k, ¬config.CompleteAt items k)
    (hclean : ∀ item ∈ items.take config.window, ∀ e, item ≠ .error e) :
    (config.detectLines items).verdict = .ok false ∧
      (config.detectLines items).pulled = min config.window items.length := by
  obtain ⟨-, -, hfalse, herror⟩ :=
    detectList_pulls Rule.accepts config.rules config.window items
  rcases hverdict : (config.detectLines items).verdict with e' | found
  · obtain ⟨k', -, hwindow, hfailure, -⟩ := herror e' hverdict
    have hplace : (items.take config.window)[k']? = some (.error e') := by
      rw [List.getElem?_take_of_lt hwindow, hfailure]
    exact absurd rfl (hclean _ (List.mem_of_getElem? hplace) e')
  · cases found with
    | true => exact absurd (completeAt_pulled hverdict) (hnone _)
    | false => exact ⟨rfl, hfalse hverdict⟩

/-- Behind the items that a detection pulled, others may stand. Where it came to the end of
the items before the end of the window, there must be none. -/
theorem Config.detectLines_take_append {others : List (Except ε Line)}
    (hothers : (config.detectLines items).verdict = .ok false →
      (config.detectLines items).pulled < config.window →
      items.length ≤ (config.detectLines items).pulled → others = []) :
    let items' := items.take (config.detectLines items).pulled ++ others
    (config.detectLines items').verdict = (config.detectLines items).verdict ∧
      (config.detectLines items').pulled = (config.detectLines items).pulled := by
  obtain ⟨hle, -, hfalse, -⟩ :=
    detectList_pulls Rule.accepts config.rules config.window items
  change (config.detectLines items).pulled ≤ _ at hle
  by_cases hstop : (config.detectLines items).Settled ∨
      (config.detectLines items).pulled = config.window
  · refine detectLines_of_take ?_ hstop
    have hlength : (config.detectLines items).pulled ≤
        (items.take (config.detectLines items).pulled).length := by
      rw [List.length_take]
      exact Nat.le_min.mpr ⟨Nat.le_refl _, Nat.le_trans hle (Nat.min_le_right _ _)⟩
    rw [List.take_append_of_le_length hlength, List.take_take, Nat.min_self]
  · -- the detection came to the end of the items
    rw [not_or] at hstop
    have hverdict : (config.detectLines items).verdict = .ok false :=
      Classical.not_not.mp hstop.1
    have hpulled : (config.detectLines items).pulled = min config.window items.length :=
      hfalse hverdict
    have hend : items.length ≤ (config.detectLines items).pulled := by omega
    have hroom : (config.detectLines items).pulled < config.window := by omega
    rw [hothers hverdict hroom hend, List.append_nil, List.take_of_length_le hend]
    exact ⟨rfl, rfl⟩

/-- **What ends a detection among items.** The least place at which the header is complete
ends it with success there. If there is none, the first failure in the window ends it with
that failure. If there is neither, it ends without success, when the window or the items are
used up. Items behind the last one pulled never influence it: others may stand there, unless
it had come to the end of the items. -/
theorem Config.detectLines_ends (config : Config) (items : List (Except ε Line)) :
    let outcome := config.detectLines items
    (∀ k, config.CompleteAt items k → (∀ j < k, ¬config.CompleteAt items j) →
      outcome.verdict = .ok true ∧ outcome.pulled = k) ∧
    ((∀ k, ¬config.CompleteAt items k) →
      (∀ k e, k < config.window → items[k]? = some (.error e) →
        (∀ j < k, ∀ e', items[j]? ≠ some (.error e')) →
        outcome.verdict = .error e ∧ outcome.pulled = k + 1) ∧
      ((∀ item ∈ items.take config.window, ∀ e, item ≠ .error e) →
        outcome.verdict = .ok false ∧ outcome.pulled = min config.window items.length)) ∧
    (∀ others : List (Except ε Line),
      (outcome.verdict = .ok false → outcome.pulled < config.window →
        items.length ≤ outcome.pulled → others = []) →
      let outcome' := config.detectLines (items.take outcome.pulled ++ others)
      outcome'.verdict = outcome.verdict ∧ outcome'.pulled = outcome.pulled) := by
  intro outcome
  refine ⟨fun k hk hleast => detectLines_of_least hk hleast, fun hnone =>
    ⟨fun k e hwindow hfailure hfirst => ?_, fun hclean => detectLines_of_clean hnone hclean⟩,
    fun others hothers => detectLines_take_append hothers⟩
  exact detectLines_of_failure hnone hwindow hfailure hfirst

/-- A failure behind the line that completes a header of one rule is not seen, and one before
it is the outcome. -/
theorem Config.detectLines_ends_of_failure :
    let config : Config := ⟨[⟨"a", .one ⟨true, [(0x61, 0x61)]⟩⟩], ⟨"", .empty⟩, 3⟩
    let behind : List (Except Unit Line) := [.ok ['b'], .ok ['a'], .error ()]
    let before : List (Except Unit Line) := [.ok ['b'], .error (), .ok ['a']]
    ((config.detectLines behind).verdict = .ok true ∧ (config.detectLines behind).pulled = 2) ∧
      (config.detectLines before).verdict = .error () ∧
        (config.detectLines before).pulled = 2 := by
  intro config behind before
  have hother : ¬config.Carries [['b']] := by
    have hfalse : (config.detectLines
        ([['b']].map Except.ok : List (Except Empty Line))).verdict = .ok false := rfl
    rw [Config.Carries, hfalse]
    simp
  -- one line is not enough, and two items are not lines where the second one is a failure
  have hone : ∀ items : List (Except Unit Line), items.head? = some (.ok ['b']) →
      ¬config.CompleteAt items 1 := by
    rintro (_ | ⟨_, items⟩) hhead ⟨-, -, lines, -, htake, hcarries⟩
    · exact absurd hhead (by simp)
    · obtain rfl := Option.some.inj hhead
      obtain ⟨line, rest, rfl, hline, hrest⟩ := List.map_eq_cons_iff.mp htake.symm
      obtain rfl := Except.ok.inj hline
      obtain rfl := List.map_eq_nil_iff.mp hrest
      exact hother hcarries
  have hcomplete : config.CompleteAt behind 2 :=
    ⟨by decide, by decide, [['b'], ['a']], rfl, rfl, rfl⟩
  have hnone : ∀ k, ¬config.CompleteAt before k := by
    rintro (_ | _ | k) h
    · exact absurd h.1 (by decide)
    · exact hone before rfl h
    · obtain ⟨-, -, lines, -, htake, -⟩ := h
      obtain ⟨_, _, -, -, hrest⟩ := List.map_eq_cons_iff.mp htake.symm
      obtain ⟨_, _, -, hfailure, -⟩ := List.map_eq_cons_iff.mp hrest
      exact absurd hfailure (by simp)
  refine ⟨(Config.detectLines_ends config behind).1 2 hcomplete fun j hj => ?_,
    ((Config.detectLines_ends config before).2.1 hnone).1 1 () (by decide) rfl fun j hj => ?_⟩
  · rcases j with _ | _ | j
    · exact fun h => absurd h.1 (by decide)
    · exact hone behind rfl
    · omega
  · obtain rfl : j = 0 := by omega
    exact fun e => by simp [before]

end LicenseHeader
