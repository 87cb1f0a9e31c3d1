import LicenseHeader.Pattern.Chain
import LicenseHeader.Pattern.Places

/-!
# Steps from sets of places

What repeated steps from a set of places lead to. A step on sets is asked to follow a
relation on places that never leads to the left; the sets of `Places.times`,
`Places.atMost` and `Places.closure` are then those of the chains of this relation.

## Main definitions

* `Places.Follows`: a step on sets that follows a relation on places.

## Main results

* `Places.mem_times`: exactly so many steps.
* `Places.mem_atMost`: at most so many steps.
* `Places.mem_closure`: any number of steps.
-/

namespace LicenseHeader.Places

variable {α : Type} {haystack : List α} {step : Places α → Places α}
  {next : Cursor α → Cursor α → Prop}

/-- A step on sets of places that leads to just the places that a relation leads to, none
of which lies further left. -/
structure Follows (haystack : List α) (step : Places α → Places α)
    (next : Cursor α → Cursor α → Prop) : Prop where
  /-- A step leads from a set to a set. -/
  of : ∀ {places}, Of haystack places → Of haystack (step places)
  /-- A step leads to the places that the relation leads to. -/
  mem : ∀ {places}, Of haystack places → ∀ d, d ∈ step places ↔ ∃ c ∈ places, next c d
  /-- The relation does not lead to the left. -/
  onward : ∀ {c d}, c.haystack = haystack → next c d → c.place ≤ d.place

/-! ### So many steps -/

/-- From an empty set no step leads anywhere. -/
theorem Follows.not_next_of_step_nil (h : Follows haystack step next) {places : Places α}
    (hp : Of haystack places) (hs : step places = []) {c d : Cursor α} (hc : c ∈ places) :
    ¬ next c d := fun hn => by
  have := (h.mem hp d).mpr ⟨c, hc, hn⟩
  simp [hs] at this

/-- A set that a step does not change holds the places one step from it. -/
theorem Follows.mem_of_same (h : Follows haystack step next) {places : Places α}
    (hp : Of haystack places) (hs : same (step places) places = true) (d : Cursor α) :
    d ∈ places ↔ ∃ c ∈ places, next c d := by
  rw [← h.mem hp, eq_of_same (h.of hp) hp hs]

/-- Exactly `n` steps from a set lead to a set. -/
theorem Of.times (h : Follows haystack step next) {places : Places α}
    (hp : Of haystack places) (n : Nat) : Of haystack (times step n places) := by
  induction n generalizing places with
  | zero => exact hp
  | succ n ih =>
    simp only [Places.times]
    split
    · exact .nil haystack
    · split
      · exact hp
      · exact ih (h.of hp)

/-- Exactly `n` steps from a set lead to the ends of the chains of that length. -/
theorem mem_times (h : Follows haystack step next) {places : Places α}
    (hp : Of haystack places) {n : Nat} {d : Cursor α} :
    d ∈ times step n places ↔ ∃ c ∈ places, Chain next n c d := by
  induction n generalizing places with
  | zero => simp [times, Chain]
  | succ n ih =>
    simp only [times]
    split
    · next hs =>
      have hs := List.isEmpty_iff.mp hs
      simp only [List.not_mem_nil, false_iff]
      rintro ⟨c, hc, e, he, -⟩
      exact h.not_next_of_step_nil hp hs hc he
    · split
      · next hs => exact (Chain.exists_mem_iff (h.mem_of_same hp hs) (n + 1) d).symm
      · rw [ih (h.of hp)]
        constructor
        · rintro ⟨e, he, hd⟩
          obtain ⟨c, hc, hce⟩ := (h.mem hp e).mp he
          exact ⟨c, hc, e, hce, hd⟩
        · rintro ⟨c, hc, e, hce, hd⟩
          exact ⟨e, (h.mem hp e).mpr ⟨c, hc, hce⟩, hd⟩

/-! ### At most so many steps -/

/-- At most `n` steps from a set lead to a set. -/
theorem Of.atMost (h : Follows haystack step next) {places reached : Places α}
    (hp : Of haystack places) (hr : Of haystack reached) (n : Nat) :
    Of haystack (atMost step reached n places) := by
  induction n generalizing places reached with
  | zero => exact hr
  | succ n ih =>
    simp only [Places.atMost]
    split
    · exact hr
    · split
      · exact hr
      · exact ih (h.of hp) (hr.union (h.of hp))

/-- At most `n` steps from a set lead to the ends of the chains that are no longer, where
the set itself has been reached before. -/
theorem mem_atMost (h : Follows haystack step next) {places reached : Places α}
    (hp : Of haystack places) (hr : Of haystack reached) (hsub : ∀ c ∈ places, c ∈ reached)
    {n : Nat} {d : Cursor α} :
    d ∈ atMost step reached n places ↔
      d ∈ reached ∨ ∃ k, k ≤ n ∧ ∃ c ∈ places, Chain next k c d := by
  induction n generalizing places reached with
  | zero =>
    simp only [atMost]
    constructor
    · exact .inl
    · rintro (hd | ⟨k, hk, c, hc, hd⟩)
      · exact hd
      · obtain rfl := Nat.le_zero.mp hk
        exact hd ▸ hsub c hc
  | succ n ih =>
    simp only [atMost]
    split
    · next hs =>
      have hs := List.isEmpty_iff.mp hs
      constructor
      · exact .inl
      · rintro (hd | ⟨k, -, c, hc, hd⟩)
        · exact hd
        · cases k with
          | zero => exact hd ▸ hsub c hc
          | succ k =>
            obtain ⟨e, he, -⟩ := hd
            exact absurd he (h.not_next_of_step_nil hp hs hc)
    · split
      · next hs =>
        constructor
        · exact .inl
        · rintro (hd | ⟨k, -, hd⟩)
          · exact hd
          · exact hsub d ((Chain.exists_mem_iff (h.mem_of_same hp hs) k d).mp hd)
      · have hstep := h.of hp
        rw [ih hstep (hr.union hstep) fun c hc => (mem_union hr hstep).mpr (.inr hc),
          mem_union hr hstep]
        constructor
        · rintro ((hd | hd) | ⟨k, hk, e, he, hd⟩)
          · exact .inl hd
          · obtain ⟨c, hc, hcd⟩ := (h.mem hp d).mp hd
            exact .inr ⟨1, by omega, c, hc, d, hcd, rfl⟩
          · obtain ⟨c, hc, hce⟩ := (h.mem hp e).mp he
            exact .inr ⟨k + 1, by omega, c, hc, e, hce, hd⟩
        · rintro (hd | ⟨k, hk, c, hc, hd⟩)
          · exact .inl (.inl hd)
          · cases k with
            | zero => exact .inl (.inl (hd ▸ hsub c hc))
            | succ k =>
              obtain ⟨e, hce, hd⟩ := hd
              exact .inr ⟨k, by omega, e, (h.mem hp e).mpr ⟨c, hc, hce⟩, hd⟩

/-! ### Any number of steps -/

/-- The state of a closure between two rounds. -/
structure Underway (haystack : List α) (next : Cursor α → Cursor α → Prop)
    (passed reached frontier : Places α) (room : Nat) : Prop where
  /-- The places reached are a set, with those passed to the left. -/
  of : Of haystack (passed.reverse ++ reached)
  /-- The frontier is a set. -/
  of_frontier : Of haystack frontier
  /-- The frontier has been reached. -/
  sub : ∀ c ∈ frontier, c ∈ reached
  /-- From all other places every step leads to a place that has been reached. -/
  closed : ∀ c, c ∈ passed ∨ c ∈ reached → c ∉ frontier → ∀ d, next c d →
    d ∈ passed ∨ d ∈ reached
  /-- There is room for the places to the right of the frontier. -/
  enough : ∀ c ∈ frontier, haystack.length ≤ c.place + room

namespace Underway

variable {passed reached frontier : Places α} {room : Nat}

/-- The places reached that were not passed are a set. -/
theorem of_reached (u : Underway haystack next passed reached frontier room) :
    Of haystack reached :=
  u.of.sublist (List.sublist_append_right _ _)

/-- The places passed lie to the left of the others. -/
theorem passed_lt (u : Underway haystack next passed reached frontier room) {c d : Cursor α}
    (hc : c ∈ passed) (hd : d ∈ reached) : c.place < d.place :=
  (List.pairwise_append.mp u.of.ascending).2.2 c (List.mem_reverse.mpr hc) d hd

/-- Where a step from the frontier leads to nothing new, the places reached are closed. -/
theorem closed_of_difference_nil (h : Follows haystack step next)
    (u : Underway haystack next passed reached frontier room)
    (hd : difference (step frontier) reached = []) (c : Cursor α)
    (hc : c ∈ passed ∨ c ∈ reached) (d : Cursor α) (hn : next c d) :
    d ∈ passed ∨ d ∈ reached := by
  by_cases hf : c ∈ frontier
  · have hs := (h.mem u.of_frontier d).mpr ⟨c, hf, hn⟩
    refine .inr (Classical.byContradiction fun hr => ?_)
    have := (mem_difference (h.of u.of_frontier) u.of_reached).mpr ⟨hs, hr⟩
    simp [hd] at this
  · exact u.closed c hc hf d hn

/-- At the end of the haystack no step leads to anything new. -/
theorem difference_nil (h : Follows haystack step next)
    (u : Underway haystack next passed reached frontier 0) :
    difference (step frontier) reached = [] := by
  refine List.eq_nil_iff_forall_not_mem.mpr fun d hd => ?_
  have hstep := h.of u.of_frontier
  obtain ⟨hs, hr⟩ := (mem_difference hstep u.of_reached).mp hd
  obtain ⟨c, hc, hn⟩ := (h.mem u.of_frontier d).mp hs
  have hay := u.of_frontier.haystack_eq c hc
  have h1 := h.onward hay hn
  have h2 := u.enough c hc
  have h3 := d.place_add_length
  rw [hstep.haystack_eq d hs] at h3
  have : c = d := Cursor.eq_of_place_eq (hay.trans (hstep.haystack_eq d hs).symm) (by omega)
  exact hr (this ▸ u.sub c hc)

/-- One round. -/
theorem round (h : Follows haystack step next)
    (u : Underway haystack next passed reached frontier (room + 1)) {c : Cursor α}
    {new : Places α} (hd : difference (step frontier) reached = c :: new) :
    Underway haystack next ((leftOf c reached).reverseAux passed)
      (union (reached.dropWhile fun d => d.place < c.place) (c :: new)) (c :: new) room := by
  have hr := u.of_reached
  have hstep := h.of u.of_frontier
  have hnew : Of haystack (c :: new) := hd ▸ hstep.sublist (difference_sublist _ _)
  have hmem : ∀ e, e ∈ c :: new ↔ e ∈ step frontier ∧ e ∉ reached := fun e => by
    rw [← hd, mem_difference hstep hr]
  have hdrop := hr.sublist (List.dropWhile_sublist fun d => decide (d.place < c.place))
  have hle : ∀ e ∈ c :: new, c.place ≤ e.place := fun e he => by
    rcases List.mem_cons.mp he with rfl | he
    · exact Nat.le_refl _
    · exact Nat.le_of_lt (hnew.uncons.2.1 e he)
  have hright : ∀ e ∈ union (reached.dropWhile fun d => d.place < c.place) (c :: new),
      c.place ≤ e.place := fun e he => by
    rcases (mem_union hdrop hnew).mp he with he | he
    · exact ((mem_dropWhile_lt hr).mp he).2
    · exact hle e he
  have hall : ∀ e, (e ∈ (leftOf c reached).reverseAux passed ∨
      e ∈ union (reached.dropWhile fun d => d.place < c.place) (c :: new)) ↔
      e ∈ passed ∨ e ∈ reached ∨ e ∈ c :: new := fun e => by
    rw [mem_union hdrop hnew, mem_dropWhile_lt hr, List.reverseAux_eq, List.mem_append,
      List.mem_reverse, mem_leftOf hr]
    by_cases he : e.place < c.place
    · have : ¬ c.place ≤ e.place := by omega
      simp [he, this, or_comm, or_assoc, or_left_comm]
    · have : c.place ≤ e.place := by omega
      simp [he, this]
  obtain ⟨f, hf, hfc⟩ := (h.mem u.of_frontier c).mp ((hmem c).mp (by simp)).1
  have hfar : ∀ e ∈ c :: new, ∃ f ∈ frontier, f.place < e.place := fun e he => by
    obtain ⟨hes, her⟩ := (hmem e).mp he
    obtain ⟨f, hf, hfe⟩ := (h.mem u.of_frontier e).mp hes
    refine ⟨f, hf, Nat.lt_of_le_of_ne (h.onward (u.of_frontier.haystack_eq f hf) hfe) ?_⟩
    intro hp
    exact her ((u.of_frontier.eq_of_place_eq hstep hf hes hp) ▸ u.sub f hf)
  refine ⟨?_, hnew, fun e he => (mem_union hdrop hnew).mpr (.inr he), ?_, ?_⟩
  · rw [List.reverseAux_eq, List.reverse_append, List.reverse_reverse]
    have hleft : Of haystack (passed.reverse ++ leftOf c reached) :=
      u.of.sublist ((leftOf_sublist c reached).append_left _)
    refine hleft.append (hdrop.union hnew) fun d hd e he => ?_
    have := hright e he
    rcases List.mem_append.mp hd with hd | hd
    · obtain ⟨g, hg, hgc⟩ := hfar c (by simp)
      have h1 := u.passed_lt (List.mem_reverse.mp hd) (u.sub g hg)
      omega
    · have := ((mem_leftOf hr).mp hd).2
      omega
  · intro e he hen d hnd
    rw [hall] at he ⊢
    by_cases hef : e ∈ frontier
    · by_cases hdr : d ∈ reached
      · exact .inr (.inl hdr)
      · exact .inr (.inr ((hmem d).mpr ⟨(h.mem u.of_frontier d).mpr ⟨e, hef, hnd⟩, hdr⟩))
    · have he : e ∈ passed ∨ e ∈ reached := by
        rcases he with he | he | he
        · exact .inl he
        · exact .inr he
        · exact absurd he hen
      rcases u.closed e he hef d hnd with hd | hd
      · exact .inl hd
      · exact .inr (.inl hd)
  · intro e he
    obtain ⟨f, hf, hfe⟩ := hfar e he
    have := u.enough f hf
    omega

end Underway

/-- What a closure holds that is under way: the places reached, nothing but ends of chains
from them, and every place one step from another one that it holds. -/
theorem closed_closureFrom (h : Follows haystack step next) (room : List α)
    {passed reached frontier : Places α}
    (u : Underway haystack next passed reached frontier room.length) :
    Of haystack (closureFrom step passed reached room frontier) ∧
      (∀ c, c ∈ passed ∨ c ∈ reached → c ∈ closureFrom step passed reached room frontier) ∧
      (∀ d ∈ closureFrom step passed reached room frontier,
        ∃ n c, (c ∈ passed ∨ c ∈ reached) ∧ Chain next n c d) ∧
      ∀ c ∈ closureFrom step passed reached room frontier, ∀ d, next c d →
        d ∈ closureFrom step passed reached room frontier := by
  induction room generalizing passed reached frontier with
  | nil =>
    have hclosed := u.closed_of_difference_nil h (u.difference_nil h)
    simp only [closureFrom, List.reverseAux_eq, List.mem_append, List.mem_reverse]
    exact ⟨u.of, fun c hc => hc, fun d hd => ⟨0, d, hd, rfl⟩, hclosed⟩
  | cons a room ih =>
    simp only [closureFrom]
    split
    · next hd =>
      have hclosed := u.closed_of_difference_nil h hd
      simp only [List.reverseAux_eq, List.mem_append, List.mem_reverse]
      exact ⟨u.of, fun c hc => hc, fun d hd => ⟨0, d, hd, rfl⟩, hclosed⟩
    · next c new hd =>
      have hr := u.of_reached
      have hstep := h.of u.of_frontier
      have hdrop := hr.sublist (List.dropWhile_sublist fun d => decide (d.place < c.place))
      have hnew : Of haystack (c :: new) := hd ▸ hstep.sublist (difference_sublist _ _)
      have hmem : ∀ e ∈ c :: new, e ∈ step frontier := fun e he =>
        ((mem_difference hstep hr).mp (hd ▸ he)).1
      obtain ⟨h1, h2, h3, h4⟩ := ih (u.round h hd)
      refine ⟨h1, fun e he => h2 e ?_, fun d hd' => ?_, h4⟩
      · rw [mem_union hdrop hnew, mem_dropWhile_lt hr, List.reverseAux_eq, List.mem_append,
          List.mem_reverse, mem_leftOf hr]
        rcases he with he | he
        · exact .inl (.inr he)
        · rcases Nat.lt_or_ge e.place c.place with hlt | hge
          · exact .inl (.inl ⟨he, hlt⟩)
          · exact .inr (.inl ⟨he, hge⟩)
      · obtain ⟨n, e, he, hchain⟩ := h3 d hd'
        rw [mem_union hdrop hnew, mem_dropWhile_lt hr, List.reverseAux_eq, List.mem_append,
          List.mem_reverse, mem_leftOf hr] at he
        rcases he with (⟨he, -⟩ | he) | ⟨he, -⟩ | he
        · exact ⟨n, e, .inr he, hchain⟩
        · exact ⟨n, e, .inl he, hchain⟩
        · exact ⟨n, e, .inr he, hchain⟩
        · obtain ⟨f, hf, hfe⟩ := (h.mem u.of_frontier e).mp (hmem e he)
          exact ⟨n + 1, f, .inr (u.sub f hf), e, hfe, hchain⟩

/-- The state before the first round. -/
theorem Underway.first {c : Cursor α} {places : Places α} (hp : Of haystack (c :: places)) :
    Underway haystack next [] (c :: places) (c :: places) c.after.length := by
  refine ⟨by simpa using hp, hp, fun _ h => h, ?_, fun d hd => ?_⟩
  · intro d hd hd'
    simp only [List.not_mem_nil, false_or] at hd
    exact absurd hd hd'
  · obtain ⟨hay, lt, -⟩ := hp.uncons
    have h1 := c.place_add_length
    rw [hay] at h1
    rcases List.mem_cons.mp hd with rfl | hd
    · omega
    · have := lt d hd
      omega

/-- Any number of steps from a set lead to a set. -/
theorem Of.closure (h : Follows haystack step next) {places : Places α}
    (hp : Of haystack places) : Of haystack (closure step places) := by
  cases places with
  | nil => exact .nil haystack
  | cons c places => exact (closed_closureFrom h c.after (.first hp)).1

/-- Any number of steps from a set lead to the ends of all chains. -/
theorem mem_closure (h : Follows haystack step next) {places : Places α}
    (hp : Of haystack places) {d : Cursor α} :
    d ∈ closure step places ↔ ∃ n, ∃ c ∈ places, Chain next n c d := by
  cases places with
  | nil => simp [closure]
  | cons c places =>
    obtain ⟨-, hsub, hchain, hclosed⟩ := closed_closureFrom h c.after (.first hp)
    constructor
    · intro hd
      obtain ⟨n, e, he, hn⟩ := hchain d hd
      exact ⟨n, e, by simpa using he, hn⟩
    · rintro ⟨n, e, he, hn⟩
      exact hn.keeps (fun f g hf hg => hclosed f hf g hg) (hsub e (.inr he))

end LicenseHeader.Places
