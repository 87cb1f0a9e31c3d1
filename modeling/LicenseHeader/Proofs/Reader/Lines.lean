import LicenseHeader.Proofs.Reader.Delivery
import LicenseHeader.Reader.Split

/-!
# The lines that a reader delivers

`LineStyle.split` cuts a content into lines without a reader; `Reader.next` pulls one line
after another from a reader that sees only pieces of it. This module ties the two together.
A reader *holds* lines when the content that it is about to deliver splits into them, and a
call of `Reader.next` takes the first line off: it hands over the decoded text, consumes the
text and the ending and nothing more, and leaves a reader that holds the other lines
(`Holds.next_cons`); a reader that holds no line is at its end (`Holds.next_nil`). Since
neither says how the content arrives, all that is read off them is the same for every
script that delivers it.

In the universal style a content has a first line in one of four ways, by the first byte that
may end it: there is none, it is a line feed, it is a carriage return in front of a line feed,
or it is another carriage return (`universal_cases`). The splitting lemmas and those on
`Reader.next` come in these cases. What they have in common with the feed-only style is said
of first lines (`FirstLine`), along which there is an induction for both
(`line_induction`). The lemmas on `Reader.next` leave open what follows the content wherever
reading a line does not touch it.

## Main definitions

* `RawLine.bytes`: the text of a line with its ending.
* `FirstLine`: a content that begins with a line.
* `Reader.Holds`: the lines that a reader delivers.

## Main results

* `LineStyle.flatMap_bytes_split`: the lines of a content make it up.
* `Reader.Holds.next_cons`, `Reader.Holds.next_nil`: what a call of `Reader.next` does.
-/

namespace LicenseHeader

/-- The bytes of a line, those of its ending included. -/
def RawLine.bytes (line : RawLine) : Bytes :=
  line.text ++ line.ending

/-! ### Ways to end a line -/

/-- Bytes that no line of a style ends at. -/
def LineStyle.Clean (style : LineStyle) (bytes : Bytes) : Prop :=
  ∀ b ∈ bytes, style.stops b = false

/-- In the universal style a byte ends no line if it is neither of the two. -/
theorem LineStyle.universal_stops_eq_false {b : UInt8} :
    LineStyle.universal.stops b = false ↔ b ≠ lineFeed ∧ b ≠ carriageReturn := by
  simp [stops]

/-- Bytes that end no line do not begin with a line feed. -/
theorem LineStyle.Clean.head?_ne {bytes : Bytes} (h : LineStyle.universal.Clean bytes) :
    bytes.head? ≠ some lineFeed := fun hhead =>
  (LineStyle.universal_stops_eq_false.mp (h lineFeed (List.mem_of_head? hhead))).1 rfl

/-- In the feed-only style a byte ends no line if it is not the line feed. -/
theorem LineStyle.feedOnly_stops_eq_false {b : UInt8} :
    LineStyle.feedOnly.stops b = false ↔ b ≠ lineFeed := by
  simp [stops]

/-- A byte string without a stop byte, or cut at the first of them. -/
theorem clean_or_exists_stop (stops : UInt8 → Bool) (bytes : Bytes) :
    (∀ b ∈ bytes, stops b = false) ∨
      ∃ text b rest, bytes = text ++ b :: rest ∧ (∀ c ∈ text, stops c = false) ∧
        stops b = true := by
  induction bytes with
  | nil => exact .inl (by simp)
  | cons c bytes ih =>
      cases hc : stops c with
      | true => exact .inr ⟨[], c, bytes, rfl, by simp, hc⟩
      | false =>
          rcases ih with hclean | ⟨text, b, rest, rfl, hclean, hb⟩
          · exact .inl (List.forall_mem_cons.mpr ⟨hc, hclean⟩)
          · exact .inr ⟨c :: text, b, rest, rfl, List.forall_mem_cons.mpr ⟨hc, hclean⟩, hb⟩

/-- The four ways in which the first line of a content may end in the universal style. -/
theorem LineStyle.universal_cases (content : Bytes) :
    LineStyle.universal.Clean content ∨
      ∃ text rest, LineStyle.universal.Clean text ∧
        (content = text ++ lineFeed :: rest ∨
          content = text ++ carriageReturn :: lineFeed :: rest ∨
          content = text ++ carriageReturn :: rest ∧ rest.head? ≠ some lineFeed) := by
  rcases clean_or_exists_stop LineStyle.universal.stops content with
    hclean | ⟨text, b, rest, hcontent, hclean, hb⟩
  · exact .inl hclean
  · rw [stops, Bool.or_eq_true, beq_iff_eq, beq_iff_eq] at hb
    rcases hb with rfl | rfl
    · exact .inr ⟨text, rest, hclean, .inl hcontent⟩
    · by_cases hrest : rest.head? = some lineFeed
      · obtain ⟨rest', rfl⟩ := List.head?_eq_some_iff.mp hrest
        exact .inr ⟨text, rest', hclean, .inr (.inl hcontent)⟩
      · exact .inr ⟨text, rest, hclean, .inr (.inr ⟨hcontent, hrest⟩)⟩

/-- The two ways in which the first line of a content may end in the feed-only style. -/
theorem LineStyle.feedOnly_cases (content : Bytes) :
    LineStyle.feedOnly.Clean content ∨
      ∃ text rest, LineStyle.feedOnly.Clean text ∧ content = text ++ lineFeed :: rest := by
  rcases clean_or_exists_stop LineStyle.feedOnly.stops content with
    hclean | ⟨text, b, rest, hcontent, hclean, hb⟩
  · exact .inl hclean
  · rw [stops, beq_iff_eq] at hb
    exact .inr ⟨text, rest, hclean, hb ▸ hcontent⟩

/-- Induction along the lines of a content in the universal style. -/
theorem LineStyle.universal_induction {motive : Bytes → Prop}
    (clean : ∀ content, LineStyle.universal.Clean content → motive content)
    (feed : ∀ text rest, LineStyle.universal.Clean text → motive rest →
      motive (text ++ lineFeed :: rest))
    (pair : ∀ text rest, LineStyle.universal.Clean text → motive rest →
      motive (text ++ carriageReturn :: lineFeed :: rest))
    (lone : ∀ text rest, LineStyle.universal.Clean text → rest.head? ≠ some lineFeed →
      motive rest → motive (text ++ carriageReturn :: rest))
    (content : Bytes) : motive content := by
  induction hn : content.length using Nat.strongRecOn generalizing content with
  | ind n ih =>
      rcases universal_cases content with
        hclean | ⟨text, rest, hclean, rfl | rfl | ⟨rfl, hrest⟩⟩
      · exact clean content hclean
      · exact feed text rest hclean (ih rest.length (by simp at hn; omega) rest rfl)
      · exact pair text rest hclean (ih rest.length (by simp at hn; omega) rest rfl)
      · exact lone text rest hclean hrest (ih rest.length (by simp at hn; omega) rest rfl)

/-! ### Unfinished lines -/

section Unfinished

variable {split : Bytes → Bytes → List RawLine} {stops : UInt8 → Bool}

/-- A splitter that puts single bytes to the unfinished line puts several to it, the last of
them in front. -/
theorem split_append_of_clean
    (hcons : ∀ b, stops b = false → ∀ text rest, split text (b :: rest) = split (b :: text) rest)
    {bytes : Bytes} (h : ∀ b ∈ bytes, stops b = false) (text rest : Bytes) :
    split text (bytes ++ rest) = split (bytes.reverse ++ text) rest := by
  induction bytes generalizing text with
  | nil => rfl
  | cons b bytes ih =>
      obtain ⟨hb, hclean⟩ := List.forall_mem_cons.mp h
      rw [List.cons_append, hcons b hb, ih hclean, List.reverse_cons, List.append_assoc]
      rfl

/-- Where the content ends, an unfinished line is one if it has bytes. -/
theorem split_reverse_nil (hnil : split [] [] = [])
    (hend : ∀ b text, split (b :: text) [] = [⟨(b :: text).reverse, []⟩]) (content : Bytes) :
    split content.reverse [] = if content = [] then [] else [⟨content, []⟩] := by
  cases hrev : content.reverse with
  | nil => rw [if_pos (List.reverse_eq_nil_iff.mp hrev), hnil]
  | cons b text =>
      have hne : content ≠ [] := by rintro rfl; simp at hrev
      rw [if_neg hne, hend, ← hrev, List.reverse_reverse]

end Unfinished

/-! ### Splitting in the universal style -/

/-- A byte that ends no line is put to the unfinished line. -/
theorem splitUniversalFrom_cons {b : UInt8} (h : LineStyle.universal.stops b = false)
    (text rest : Bytes) :
    splitUniversalFrom text (b :: rest) = splitUniversalFrom (b :: text) rest := by
  obtain ⟨hfeed, hreturn⟩ := LineStyle.universal_stops_eq_false.mp h
  rw [splitUniversalFrom]
  · rw [if_neg (by simp [hfeed, hreturn])]
  · rintro rest' rfl -
    exact hreturn rfl

/-- Clean bytes are put to the unfinished line. -/
theorem splitUniversalFrom_append {bytes : Bytes} (h : LineStyle.universal.Clean bytes)
    (text rest : Bytes) :
    splitUniversalFrom text (bytes ++ rest) =
      splitUniversalFrom (bytes.reverse ++ text) rest :=
  split_append_of_clean (fun _ => splitUniversalFrom_cons) h text rest

/-- A line that ends at a line feed. -/
theorem split_universal_feed {text : Bytes} (h : LineStyle.universal.Clean text)
    (rest : Bytes) :
    LineStyle.universal.split (text ++ lineFeed :: rest) =
      ⟨text, [lineFeed]⟩ :: LineStyle.universal.split rest := by
  simp only [LineStyle.split]
  rw [splitUniversalFrom_append h, List.append_nil]
  conv => rhs; rw [← List.reverse_reverse text]
  rfl

/-- A line that ends at a carriage return and a line feed. -/
theorem split_universal_pair {text : Bytes} (h : LineStyle.universal.Clean text)
    (rest : Bytes) :
    LineStyle.universal.split (text ++ carriageReturn :: lineFeed :: rest) =
      ⟨text, [carriageReturn, lineFeed]⟩ :: LineStyle.universal.split rest := by
  simp only [LineStyle.split]
  rw [splitUniversalFrom_append h, List.append_nil]
  conv => rhs; rw [← List.reverse_reverse text]
  rfl

/-- A line that ends at a carriage return alone. -/
theorem split_universal_return {text rest : Bytes} (h : LineStyle.universal.Clean text)
    (hrest : rest.head? ≠ some lineFeed) :
    LineStyle.universal.split (text ++ carriageReturn :: rest) =
      ⟨text, [carriageReturn]⟩ :: LineStyle.universal.split rest := by
  simp only [LineStyle.split]
  rw [splitUniversalFrom_append h, List.append_nil, splitUniversalFrom]
  · rw [if_pos (.inr rfl), List.reverse_reverse]
  · rintro rest' - rfl
    exact hrest rfl

/-- Behind a line feed the universal style begins anew. -/
theorem split_universal_append_feed (front back : Bytes) :
    LineStyle.universal.split (front ++ lineFeed :: back) =
      LineStyle.universal.split (front ++ [lineFeed]) ++ LineStyle.universal.split back := by
  induction front using LineStyle.universal_induction with
  | clean front hclean =>
      rw [split_universal_feed hclean, split_universal_feed hclean]
      rfl
  | feed text rest htext ih =>
      rw [List.append_assoc, List.append_assoc, List.cons_append, List.cons_append,
        split_universal_feed htext, split_universal_feed htext, ih, List.cons_append]
  | pair text rest htext ih =>
      rw [List.append_assoc, List.append_assoc, List.cons_append, List.cons_append,
        List.cons_append, List.cons_append, split_universal_pair htext,
        split_universal_pair htext, ih, List.cons_append]
  | lone text rest htext hrest ih =>
      rw [List.append_assoc, List.append_assoc, List.cons_append, List.cons_append]
      cases rest with
      | nil =>
          -- the carriage return was the first half of an ending
          rw [List.nil_append, List.nil_append, split_universal_pair htext,
            split_universal_pair htext]
          rfl
      | cons b rest =>
          have hhead : ∀ more, (b :: rest ++ more).head? ≠ some lineFeed := fun _ => hrest
          rw [split_universal_return htext (hhead _), split_universal_return htext (hhead _),
            ih]
          rfl

/-! ### Splitting in the feed-only style -/

/-- The line that ends at a line feed with the bytes of `text` before it. -/
def RawLine.fed (text : Bytes) : RawLine :=
  if text.getLast? = some carriageReturn then
    ⟨text.dropLast, [carriageReturn, lineFeed]⟩
  else ⟨text, [lineFeed]⟩

/-- The text of such a line goes without a carriage return at its end. -/
theorem RawLine.text_fed (text : Bytes) : (RawLine.fed text).text = dropCarriageReturn text := by
  unfold fed dropCarriageReturn
  split <;> rfl

/-- Nothing is lost of such a line. -/
theorem RawLine.bytes_fed (text : Bytes) : (RawLine.fed text).bytes = text ++ [lineFeed] := by
  unfold fed
  split
  · next h =>
      obtain ⟨init, rfl⟩ := List.getLast?_eq_some_iff.mp h
      rw [bytes, List.dropLast_concat, List.append_assoc]
      rfl
  · rfl

/-- A byte that ends no line is put to the unfinished line. -/
theorem splitFeedOnlyFrom_cons {b : UInt8} (h : LineStyle.feedOnly.stops b = false)
    (text rest : Bytes) :
    splitFeedOnlyFrom text (b :: rest) = splitFeedOnlyFrom (b :: text) rest := by
  rw [splitFeedOnlyFrom.eq_def]
  exact if_neg (LineStyle.feedOnly_stops_eq_false.mp h)

/-- Clean bytes are put to the unfinished line. -/
theorem splitFeedOnlyFrom_append {bytes : Bytes} (h : LineStyle.feedOnly.Clean bytes)
    (text rest : Bytes) :
    splitFeedOnlyFrom text (bytes ++ rest) =
      splitFeedOnlyFrom (bytes.reverse ++ text) rest :=
  split_append_of_clean (fun _ => splitFeedOnlyFrom_cons) h text rest

/-- A line that ends at a line feed. -/
theorem split_feedOnly_feed {text : Bytes} (h : LineStyle.feedOnly.Clean text)
    (rest : Bytes) :
    LineStyle.feedOnly.split (text ++ lineFeed :: rest) =
      RawLine.fed text :: LineStyle.feedOnly.split rest := by
  simp only [LineStyle.split]
  rw [splitFeedOnlyFrom_append h, List.append_nil, splitFeedOnlyFrom.eq_def]
  simp only [if_pos]
  congr 1
  unfold RawLine.fed
  split
  · next earlier hrev =>
      have htext : text = earlier.reverse ++ [carriageReturn] := by
        rw [← List.reverse_reverse text, hrev, List.reverse_cons]
        rfl
      rw [if_pos (by rw [htext]; simp), htext, List.dropLast_concat]
      rfl
  · next hnot =>
      rw [if_neg, List.reverse_reverse]
      · rfl
      · intro hlast
        obtain ⟨init, rfl⟩ := List.getLast?_eq_some_iff.mp hlast
        exact hnot init.reverse (by simp [carriageReturn])

/-! ### Splitting in either style -/

/-- A clean content is one line, or none if it is empty. -/
theorem LineStyle.split_of_clean {style : LineStyle} {content : Bytes}
    (h : style.Clean content) :
    style.split content = if content = [] then [] else [⟨content, []⟩] := by
  cases style with
  | universal =>
      have happend := splitUniversalFrom_append h [] []
      rw [List.append_nil, List.append_nil] at happend
      rw [split, happend]
      exact split_reverse_nil rfl (fun _ _ => rfl) content
  | feedOnly =>
      have happend := splitFeedOnlyFrom_append h [] []
      rw [List.append_nil, List.append_nil] at happend
      rw [split, happend]
      exact split_reverse_nil rfl (fun _ _ => rfl) content

/-! ### First lines -/

/-- A content begins with a line that has an ending, behind which comes the rest: the four
ways in which this can be. -/
inductive FirstLine : LineStyle → Bytes → RawLine → Bytes → Prop
  /-- A line of the universal style that ends at a line feed. -/
  | feed {text : Bytes} (h : LineStyle.universal.Clean text) (rest : Bytes) :
      FirstLine .universal (text ++ lineFeed :: rest) ⟨text, [lineFeed]⟩ rest
  /-- A line that ends at a carriage return and a line feed. -/
  | pair {text : Bytes} (h : LineStyle.universal.Clean text) (rest : Bytes) :
      FirstLine .universal (text ++ carriageReturn :: lineFeed :: rest)
        ⟨text, [carriageReturn, lineFeed]⟩ rest
  /-- A line that ends at another carriage return. -/
  | lone {text rest : Bytes} (h : LineStyle.universal.Clean text)
      (hrest : rest.head? ≠ some lineFeed) :
      FirstLine .universal (text ++ carriageReturn :: rest) ⟨text, [carriageReturn]⟩ rest
  /-- A line of the feed-only style. -/
  | fed {text : Bytes} (h : LineStyle.feedOnly.Clean text) (rest : Bytes) :
      FirstLine .feedOnly (text ++ lineFeed :: rest) (RawLine.fed text) rest

/-- A content has no ending or a first line. -/
theorem LineStyle.clean_or_firstLine (style : LineStyle) (content : Bytes) :
    style.Clean content ∨ ∃ line rest, FirstLine style content line rest := by
  cases style with
  | universal =>
      rcases universal_cases content with
        hclean | ⟨text, rest, htext, rfl | rfl | ⟨rfl, hrest⟩⟩
      · exact .inl hclean
      · exact .inr ⟨_, rest, .feed htext rest⟩
      · exact .inr ⟨_, rest, .pair htext rest⟩
      · exact .inr ⟨_, rest, .lone htext hrest⟩
  | feedOnly =>
      rcases feedOnly_cases content with hclean | ⟨text, rest, htext, rfl⟩
      · exact .inl hclean
      · exact .inr ⟨_, rest, .fed htext rest⟩

namespace FirstLine

variable {style : LineStyle} {content rest : Bytes} {line : RawLine}

/-- The first line is split off. -/
theorem split (h : FirstLine style content line rest) :
    style.split content = line :: style.split rest := by
  cases h with
  | feed h => exact split_universal_feed h rest
  | pair h => exact split_universal_pair h rest
  | lone h hrest => exact split_universal_return h hrest
  | fed h => exact split_feedOnly_feed h rest

/-- The first line has an ending. -/
theorem ending_ne_nil (h : FirstLine style content line rest) : line.ending ≠ [] := by
  cases h with
  | feed => exact List.cons_ne_nil _ _
  | pair => exact List.cons_ne_nil _ _
  | lone => exact List.cons_ne_nil _ _
  | fed =>
      rw [RawLine.fed]
      split <;> exact List.cons_ne_nil _ _

/-- The first line and the rest make up the content. -/
theorem bytes_append (h : FirstLine style content line rest) : line.bytes ++ rest = content := by
  cases h with
  | feed | pair | lone => simp [RawLine.bytes]
  | fed => simp [RawLine.bytes_fed]

/-- What is left behind the first line is shorter. -/
theorem length_lt (h : FirstLine style content line rest) : rest.length < content.length := by
  have hpos := List.length_pos_iff.mpr h.ending_ne_nil
  rw [← h.bytes_append, RawLine.bytes, List.length_append, List.length_append]
  omega

end FirstLine

/-- Induction along the lines of a content in either style. -/
theorem LineStyle.line_induction {style : LineStyle} {motive : Bytes → Prop}
    (clean : ∀ content, style.Clean content → motive content)
    (first : ∀ content line rest, FirstLine style content line rest → motive rest →
      motive content)
    (content : Bytes) : motive content := by
  induction hn : content.length using Nat.strongRecOn generalizing content with
  | ind n ih =>
      rcases style.clean_or_firstLine content with hclean | ⟨line, rest, h⟩
      · exact clean content hclean
      · exact first content line rest h (ih rest.length (hn ▸ h.length_lt) rest rfl)

/-- **The lines of a content make it up.** -/
theorem LineStyle.flatMap_bytes_split (style : LineStyle) (content : Bytes) :
    (style.split content).flatMap RawLine.bytes = content := by
  induction content using @line_induction style with
  | clean content hclean =>
      rw [split_of_clean hclean]
      split
      · next h => rw [h]; rfl
      · simp [RawLine.bytes]
  | first content line rest h ih => rw [h.split, List.flatMap_cons, ih, h.bytes_append]

/-- The lines of what some lines of a content make up at its end are these lines. -/
theorem LineStyle.split_flatMap_drop (style : LineStyle) (content : Bytes) (count : Nat) :
    style.split (((style.split content).drop count).flatMap RawLine.bytes) =
      (style.split content).drop count := by
  induction count generalizing content with
  | zero => rw [List.drop_zero, flatMap_bytes_split]
  | succ count ih =>
      rcases style.clean_or_firstLine content with hclean | ⟨line, rest, h⟩
      · have hnone : (style.split content).drop (count + 1) = [] := by
          rw [split_of_clean hclean]
          split <;> simp
        rw [hnone]
        exact split_of_clean (List.forall_mem_nil _)
      · rw [h.split, List.drop_succ_cons]
        exact ih rest

/-! ### Calls of `Reader.next` -/

/-- The next call takes a line off: it hands over the decoded text, consumes the line with
its ending, and leaves the rest of the content. -/
def Reader.Takes (style : LineStyle) (reader : Reader) (line : RawLine) (rest : Bytes)
    (later : List Event) : Prop :=
  ∃ after : Reader, reader.next style = (some (line.decode style), after) ∧
    after.Delivers rest later ∧ after.consumed = reader.consumed + line.bytes.length

section Next

variable {reader : Reader} {text rest : Bytes} {later : List Event}

/-- Without a content there is no line. -/
theorem Reader.Delivers.next_nil (style : LineStyle) (h : reader.Delivers [] []) :
    reader.next style = (none, ⟨[], [], reader.consumed⟩) := by
  have hclean : style.Clean [] := List.forall_mem_nil _
  simp only [next, h.takeUntil_of_clean hclean, Stretch.ofSighting]
  rfl

/-- A content without an ending is one line. -/
theorem Reader.Delivers.takes_clean {style : LineStyle} (h : reader.Delivers text [])
    (hclean : style.Clean text) (hne : text ≠ []) : reader.Takes style ⟨text, []⟩ [] [] := by
  refine ⟨⟨[], [], reader.consumed + text.length⟩, ?_, ⟨[], rfl, by simp, rfl⟩, ?_⟩
  · simp only [next, h.takeUntil_of_clean hclean, Stretch.ofSighting, List.reverse_reverse]
    cases text with
    | nil => exact absurd rfl hne
    | cons b text => rfl
  · rw [RawLine.bytes, List.append_nil]

/-- A line that ends at a line feed. -/
theorem Reader.Delivers.takes_feed (h : reader.Delivers (text ++ lineFeed :: rest) later)
    (hclean : LineStyle.universal.Clean text) :
    reader.Takes .universal ⟨text, [lineFeed]⟩ rest later := by
  obtain ⟨after, htake, hdelivers, hconsumed⟩ := h.takeUntil_of_stop hclean rfl
  refine ⟨after, ?_, hdelivers, ?_⟩
  · simp only [next, htake, endUniversal]
    rfl
  · rw [hconsumed, RawLine.bytes, List.length_append]
    rfl

/-- A line that ends at a carriage return and a line feed. -/
theorem Reader.Delivers.takes_pair
    (h : reader.Delivers (text ++ carriageReturn :: lineFeed :: rest) later)
    (hclean : LineStyle.universal.Clean text) :
    reader.Takes .universal ⟨text, [carriageReturn, lineFeed]⟩ rest later := by
  obtain ⟨ahead, htake, hahead, hconsumed⟩ := h.takeUntil_of_stop hclean rfl
  obtain ⟨after, hskip, hdelivers, hskipped⟩ := hahead.skip_of_eq
  refine ⟨after, ?_, hdelivers, ?_⟩
  · simp only [next, htake, endUniversal, hskip]
    rfl
  · rw [hskipped, hconsumed, RawLine.bytes, List.length_append]
    rfl

/-- A line that ends at a carriage return in front of another byte, or at the end of all
input. -/
theorem Reader.Delivers.takes_return
    (h : reader.Delivers (text ++ carriageReturn :: rest) later)
    (hclean : LineStyle.universal.Clean text) (hrest : rest.head? ≠ some lineFeed)
    (hlater : rest = [] → later = []) :
    reader.Takes .universal ⟨text, [carriageReturn]⟩ rest later := by
  obtain ⟨ahead, htake, hahead, hconsumed⟩ := h.takeUntil_of_stop hclean rfl
  obtain ⟨after, hskip, hdelivers, hskipped⟩ : ∃ after, ahead.skip lineFeed = (none, after) ∧
      after.Delivers rest later ∧ after.consumed = ahead.consumed := by
    cases rest with
    | nil =>
        rw [hlater rfl] at hahead ⊢
        exact ⟨_, hahead.skip_nil, ⟨[], rfl, by simp, rfl⟩, rfl⟩
    | cons c rest =>
        have hne : c ≠ lineFeed := by simpa using hrest
        exact hahead.skip_of_ne hne
  refine ⟨after, ?_, hdelivers, ?_⟩
  · simp only [next, htake, endUniversal, hskip]
    rfl
  · rw [hskipped, hconsumed, RawLine.bytes, List.length_append]
    rfl

/-- A line of the feed-only style that ends at a line feed. -/
theorem Reader.Delivers.takes_fed (h : reader.Delivers (text ++ lineFeed :: rest) later)
    (hclean : LineStyle.feedOnly.Clean text) :
    reader.Takes .feedOnly (RawLine.fed text) rest later := by
  obtain ⟨after, htake, hdelivers, hconsumed⟩ := h.takeUntil_of_stop hclean rfl
  refine ⟨after, ?_, hdelivers, ?_⟩
  · simp only [next, htake, RawLine.decode, RawLine.text_fed]
  · rw [hconsumed, RawLine.bytes_fed, List.length_append]
    rfl

end Next

/-- A call takes the first line of a content off, if it has an ending. Only a carriage return
at the end of the content makes the reader look at what follows. -/
theorem FirstLine.takes {style : LineStyle} {reader : Reader} {content rest : Bytes}
    {line : RawLine} {later : List Event} (hfirst : FirstLine style content line rest)
    (h : reader.Delivers content later)
    (hlone : style = .universal → line.ending = [carriageReturn] → rest = [] → later = []) :
    reader.Takes style line rest later := by
  cases hfirst with
  | feed hclean => exact h.takes_feed hclean
  | pair hclean => exact h.takes_pair hclean
  | lone hclean hrest => exact h.takes_return hclean hrest (hlone rfl rfl)
  | fed hclean => exact h.takes_fed hclean

/-! ### Lines that are held -/

/-- A reader that delivers a content, and nothing behind it, holds the lines of it. -/
def Reader.Holds (style : LineStyle) (reader : Reader) (lines : List RawLine) : Prop :=
  ∃ content, reader.Delivers content [] ∧ style.split content = lines

/-- At the beginning of a script that delivers a content, a reader holds all its lines. -/
theorem Event.Delivers.holds {script : List Event} {content : Bytes}
    (h : Event.Delivers script content) (style : LineStyle) :
    (Reader.ofEvents script).Holds style (style.split content) :=
  ⟨content, h.ofEvents, rfl⟩

/-- A reader that took a line off holds the lines of the rest. -/
theorem Reader.Takes.holds {style : LineStyle} {reader : Reader} {line : RawLine}
    {rest : Bytes} (h : reader.Takes style line rest []) :
    ∃ after : Reader, reader.next style = (some (line.decode style), after) ∧
      after.Holds style (style.split rest) ∧
      after.consumed = reader.consumed + line.bytes.length := by
  obtain ⟨after, hnext, hdelivers, hconsumed⟩ := h
  exact ⟨after, hnext, ⟨rest, hdelivers, rfl⟩, hconsumed⟩

/-- A reader that holds no line is at its end, and stays there. -/
theorem Reader.Holds.next_nil {style : LineStyle} {reader : Reader}
    (h : reader.Holds style []) :
    ∃ after : Reader, reader.next style = (none, after) ∧ after.Holds style [] ∧
      after.consumed = reader.consumed := by
  obtain ⟨content, hdelivers, hsplit⟩ := h
  have hcontent := style.flatMap_bytes_split content
  rw [hsplit, List.flatMap_nil] at hcontent
  subst hcontent
  exact ⟨_, hdelivers.next_nil style, ⟨[], ⟨[], rfl, by simp, rfl⟩, hsplit⟩, rfl⟩

/-- **A call takes the first line off.** A reader that holds lines hands over the first of
them, decoded, has consumed it with its ending and nothing more, and holds the others. -/
theorem Reader.Holds.next_cons {style : LineStyle} {reader : Reader} {line : RawLine}
    {lines : List RawLine} (h : reader.Holds style (line :: lines)) :
    ∃ after : Reader, reader.next style = (some (line.decode style), after) ∧
      after.Holds style lines ∧ after.consumed = reader.consumed + line.bytes.length := by
  obtain ⟨content, hdelivers, hsplit⟩ := h
  rcases style.clean_or_firstLine content with hclean | ⟨first, rest, hfirst⟩
  · -- the content is the only line
    rw [LineStyle.split_of_clean hclean] at hsplit
    by_cases hcontent : content = []
    · rw [if_pos hcontent] at hsplit
      exact absurd hsplit (List.cons_ne_nil _ _).symm
    · rw [if_neg hcontent, List.cons.injEq] at hsplit
      obtain ⟨rfl, rfl⟩ := hsplit
      have hrest : style.split [] = [] := LineStyle.split_of_clean (List.forall_mem_nil _)
      exact hrest ▸ (hdelivers.takes_clean hclean hcontent).holds
  · rw [hfirst.split, List.cons.injEq] at hsplit
    obtain ⟨rfl, rfl⟩ := hsplit
    exact (hfirst.takes hdelivers fun _ _ _ => rfl).holds

end LicenseHeader
