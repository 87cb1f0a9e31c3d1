import Mathlib.Data.List.Chain
import LicenseHeader.Proofs.Reader.Calls

/-!
# Joining lines

Lines of text are joined by writing them one after the other, each with an ending. There are
three endings, and every line may have its own; what stands behind the last one is a line too,
unless it is empty. Splitting what was joined gives back the lines, with one exception. Where a
line ends at a carriage return and the next one is an empty line that ends at a line feed, the
two bytes are the ending of the first line, and the second one is lost. Its line feed is
*swallowed*.

Nothing else can be lost, and every text is made of lines in this way. The induction is along
the lines that are joined, with the line in front of them in view, because this one's ending
decides whether the first of them is lost (`map_text_split_behind`).

## Main definitions

* `Ending`, `EndedLine`, `JoinedText`: lines that are joined.
* `EndedLine.Swallows`: a line that takes the line feed of the next one to its own ending.
* `JoinedText.kept`: what is left of joined lines.

## Main results

* `map_text_split_joined`: the lines of a joined text.
* `exists_joined`: every text is joined of its lines.
* `JoinedText.call_universal_joined`: what a reader of a file makes of joined lines.
-/

namespace LicenseHeader

/-! ### Lines to be joined -/

/-- The endings of the universal style. -/
inductive Ending where
  /-- A line feed. -/
  | feed
  /-- A carriage return and a line feed. -/
  | pair
  /-- A carriage return. -/
  | lone
  deriving DecidableEq, Repr

/-- An ending as text. -/
def Ending.text : Ending → Line
  | .feed => ['\n']
  | .pair => ['\r', '\n']
  | .lone => ['\r']

/-- An ending as bytes. -/
def Ending.bytes (ending : Ending) : Bytes :=
  Utf8.encode ending.text

/-- A text within which no line ends. -/
def Unbroken (text : Line) : Prop :=
  '\r' ∉ text ∧ '\n' ∉ text

instance (text : Line) : Decidable (Unbroken text) :=
  inferInstanceAs (Decidable ('\r' ∉ text ∧ '\n' ∉ text))

/-- A line with its ending. -/
structure EndedLine where
  /-- The text of the line. -/
  text : Line
  /-- The line is one line. -/
  unbroken : Unbroken text
  /-- Its ending. -/
  ending : Ending

/-- The bytes of a line, those of its ending included. -/
def EndedLine.bytes (line : EndedLine) : Bytes :=
  Utf8.encode line.text ++ line.ending.bytes

/-- Lines to be joined. -/
structure JoinedText where
  /-- The lines that have an ending. -/
  ended : List EndedLine
  /-- What stands behind the last ending. -/
  last : Line
  /-- It is one line. -/
  unbroken : Unbroken last

/-- What stands behind the last ending is a line, unless it is empty. -/
def lastLine (last : Line) : List Line :=
  if last = [] then [] else [last]

/-- The texts of the lines. -/
def JoinedText.texts (joined : JoinedText) : List Line :=
  joined.ended.map EndedLine.text ++ lastLine joined.last

/-- The lines one after the other. -/
def JoinedText.content (joined : JoinedText) : Bytes :=
  joined.ended.flatMap EndedLine.bytes ++ Utf8.encode joined.last

/-- An ending at a carriage return takes the line feed of an empty line behind it. -/
def EndedLine.Swallows (before line : EndedLine) : Prop :=
  before.ending = .lone ∧ line.text = [] ∧ line.ending = .feed

instance (before line : EndedLine) : Decidable (before.Swallows line) :=
  inferInstanceAs (Decidable (before.ending = .lone ∧ line.text = [] ∧ line.ending = .feed))

/-- Lines behind another one, without those that are swallowed by the line in front of them. -/
def keptBehind (before : EndedLine) : List EndedLine → List EndedLine
  | [] => []
  | line :: lines =>
    if before.Swallows line then keptBehind line lines else line :: keptBehind line lines

/-- Joined lines without those that are swallowed. -/
def JoinedText.kept (joined : JoinedText) : JoinedText :=
  match joined.ended with
  | [] => joined
  | line :: lines => { joined with ended := line :: keptBehind line lines }

/-- Where no line swallows the next one, all lines behind another one are kept. -/
theorem keptBehind_eq_self {before : EndedLine} {lines : List EndedLine}
    (h : (before :: lines).IsChain fun before line => ¬before.Swallows line) :
    keptBehind before lines = lines := by
  induction lines generalizing before with
  | nil => rfl
  | cons line lines ih =>
      obtain ⟨hline, hlines⟩ := List.isChain_cons_cons.mp h
      rw [keptBehind, if_neg hline, ih hlines]

/-- Where no line swallows the next one, all lines are kept. -/
theorem JoinedText.kept_eq_self {joined : JoinedText}
    (h : joined.ended.IsChain fun before line => ¬before.Swallows line) :
    joined.kept = joined := by
  obtain ⟨_ | ⟨line, lines⟩, last, hlast⟩ := joined
  · rfl
  · simp only [kept, keptBehind_eq_self h]

/-! ### Unbroken texts -/

/-- The bytes of an unbroken text end no line. -/
theorem Unbroken.clean {text : Line} (h : Unbroken text) :
    LineStyle.universal.Clean (Utf8.encode text) := by
  intro b hb
  refine LineStyle.universal_stops_eq_false.mpr ⟨?_, ?_⟩
  · rintro rfl
    exact h.2 (Utf8.mem_of_mem_encode (by decide) hb)
  · rintro rfl
    exact h.1 (Utf8.mem_of_mem_encode (by decide) hb)

/-- A text whose bytes end no line is unbroken. -/
theorem Unbroken.of_clean {text : Line} (h : LineStyle.universal.Clean (Utf8.encode text)) :
    Unbroken text := by
  have hbyte : ∀ c ∈ text, ∀ b ∈ String.utf8EncodeChar c, LineStyle.universal.stops b = false :=
    fun c hc b hb => h b (List.mem_flatMap.mpr ⟨c, hc, hb⟩)
  constructor
  · intro hmem
    exact absurd (hbyte '\r' hmem carriageReturn (by decide)) (by decide)
  · intro hmem
    exact absurd (hbyte '\n' hmem lineFeed (by decide)) (by decide)

/-! ### Splitting what was joined -/

/-- A line is split off what it is joined to, unless this begins with the rest of its ending. -/
theorem map_text_split_ended (line : EndedLine) {rest : Bytes}
    (h : line.ending = .lone → rest.head? ≠ some lineFeed) :
    (LineStyle.universal.split (line.bytes ++ rest)).map RawLine.text =
      Utf8.encode line.text :: (LineStyle.universal.split rest).map RawLine.text := by
  obtain ⟨text, hunbroken, ending⟩ := line
  rw [EndedLine.bytes, List.append_assoc]
  cases ending with
  | feed => exact congrArg (List.map _) (split_universal_feed hunbroken.clean rest)
  | pair => exact congrArg (List.map _) (split_universal_pair hunbroken.clean rest)
  | lone => exact congrArg (List.map _) (split_universal_return hunbroken.clean (h rfl))

/-- A carriage return and a line feed behind it are one ending. -/
theorem map_text_split_swallowed {line : EndedLine} (h : line.ending = .lone) (rest : Bytes) :
    (LineStyle.universal.split (line.bytes ++ lineFeed :: rest)).map RawLine.text =
      Utf8.encode line.text :: (LineStyle.universal.split rest).map RawLine.text := by
  obtain ⟨text, hunbroken, ending⟩ := line
  obtain rfl : ending = .lone := h
  rw [EndedLine.bytes, List.append_assoc]
  exact congrArg (List.map _) (split_universal_pair hunbroken.clean rest)

/-- What begins with a line feed begins with an empty line that ends at it. -/
theorem EndedLine.head?_bytes_ne {before line : EndedLine} (h : ¬before.Swallows line)
    (hlone : before.ending = .lone) (rest : Bytes) :
    (line.bytes ++ rest).head? ≠ some lineFeed := by
  obtain ⟨text, hunbroken, ending⟩ := line
  cases text with
  | nil =>
      cases ending with
      | feed => exact absurd ⟨hlone, rfl, rfl⟩ h
      | pair | lone => exact fun hhead => absurd (Option.some.inj hhead) (by decide)
  | cons c text =>
      have hne : Utf8.encode (c :: text) ≠ [] := fun hnil =>
        List.cons_ne_nil c text (Utf8.encode_inj.mp hnil)
      rw [bytes, List.append_assoc, List.head?_append_of_ne_nil _ hne]
      exact hunbroken.clean.head?_ne

/-- An unbroken text is one line, unless it is empty. -/
theorem map_text_split_last {last : Line} (h : LineStyle.universal.Clean (Utf8.encode last)) :
    (LineStyle.universal.split (Utf8.encode last)).map RawLine.text =
      (lastLine last).map Utf8.encode := by
  rw [LineStyle.split_of_clean h, lastLine]
  by_cases hnil : last = []
  · subst hnil
    rfl
  · have hbytes : Utf8.encode last ≠ [] := fun h => hnil (Utf8.encode_inj.mp h)
    rw [if_neg hnil, if_neg hbytes]
    rfl

/-- **The lines behind another one.** Joined to a line in front of them, lines are split off one
after the other, but for those that are swallowed. Induction on the lines: the ending in front
decides whether the first of them is lost, and then its own ending is the one in front. -/
theorem map_text_split_behind {last : Line} (hlast : Unbroken last) (before : EndedLine)
    (lines : List EndedLine) :
    (LineStyle.universal.split
        (before.bytes ++ (lines.flatMap EndedLine.bytes ++ Utf8.encode last))).map RawLine.text =
      ((before :: keptBehind before lines).map EndedLine.text ++ lastLine last).map
        Utf8.encode := by
  induction lines generalizing before with
  | nil =>
      rw [List.flatMap_nil, List.nil_append,
        map_text_split_ended before fun _ => hlast.clean.head?_ne, map_text_split_last hlast.clean]
      rfl
  | cons line lines ih =>
      rw [List.flatMap_cons, List.append_assoc]
      by_cases hswallows : before.Swallows line
      · rw [keptBehind, if_pos hswallows]
        obtain ⟨hlone, htext, hfeed⟩ := hswallows
        have hbytes : line.bytes = [lineFeed] := by
          rw [EndedLine.bytes, htext, hfeed]
          rfl
        have hclosed : line.ending ≠ .lone := by
          rw [hfeed]
          exact nofun
        -- by itself the empty line would have come first
        have hbehind := ih line
        rw [map_text_split_ended line fun hlone => absurd hlone hclosed] at hbehind
        rw [hbytes, List.singleton_append, map_text_split_swallowed hlone,
          (List.cons.inj hbehind).2]
        rfl
      · rw [keptBehind, if_neg hswallows, map_text_split_ended before fun hlone =>
          EndedLine.head?_bytes_ne hswallows hlone _, ih line]
        rfl

/-- **Splitting undoes joining.** The lines of a joined text are those that were joined and are
not swallowed. -/
theorem map_text_split_joined (joined : JoinedText) :
    (LineStyle.universal.split joined.content).map RawLine.text =
      joined.kept.texts.map Utf8.encode := by
  obtain ⟨_ | ⟨line, lines⟩, last, hlast⟩ := joined
  · rw [JoinedText.content, List.flatMap_nil, List.nil_append]
    exact map_text_split_last hlast.clean
  · rw [JoinedText.content, List.flatMap_cons, List.append_assoc]
    exact map_text_split_behind hlast line lines

/-! ### Joining what was split -/

/-- The first line of a text is a line of text with an ending, and the rest is a text. -/
theorem FirstLine.exists_ended {text : Line} {line : RawLine} {rest : Bytes}
    (h : FirstLine .universal (Utf8.encode text) line rest) :
    ∃ (ended : EndedLine) (back : Line), text = ended.text ++ (ended.ending.text ++ back) ∧
      line = ⟨Utf8.encode ended.text, ended.ending.bytes⟩ ∧ rest = Utf8.encode back := by
  generalize hcontent : Utf8.encode text = content at h
  cases h with
  | feed hclean =>
      obtain ⟨front, back, rfl, rfl, hback⟩ :=
        Utf8.exists_cut_of_encode_eq (by decide) hcontent
      exact ⟨⟨front, .of_clean hclean, .feed⟩, back, rfl, rfl, hback⟩
  | pair hclean =>
      obtain ⟨front, behind, rfl, rfl, hbehind⟩ :=
        Utf8.exists_cut_of_encode_eq (by decide) hcontent
      obtain ⟨between, back, rfl, hbetween, hback⟩ :=
        @Utf8.exists_cut_of_encode_eq _ [] _ _ (by decide) hbehind.symm
      obtain rfl : [] = between := Utf8.encode_inj.mp hbetween
      exact ⟨⟨front, .of_clean hclean, .pair⟩, back, rfl, rfl, hback⟩
  | lone hclean =>
      obtain ⟨front, back, rfl, rfl, hback⟩ :=
        Utf8.exists_cut_of_encode_eq (by decide) hcontent
      exact ⟨⟨front, .of_clean hclean, .lone⟩, back, rfl, rfl, hback⟩

/-- **Every text is joined of its lines.** -/
theorem exists_joined (text : Line) :
    ∃ joined : JoinedText, joined.content = Utf8.encode text ∧
      (LineStyle.universal.split (Utf8.encode text)).map RawLine.text =
        joined.texts.map Utf8.encode := by
  induction hcontent : Utf8.encode text using @LineStyle.line_induction .universal
    generalizing text with
  | clean content hclean =>
      subst hcontent
      exact ⟨⟨[], text, .of_clean hclean⟩, rfl, map_text_split_last hclean⟩
  | first content line rest hfirst ih =>
      subst hcontent
      obtain ⟨ended, back, -, rfl, hrest⟩ := hfirst.exists_ended
      obtain ⟨⟨lines, last, hlast⟩, hjoined, htexts⟩ := ih back hrest.symm
      refine ⟨⟨ended :: lines, last, hlast⟩, ?_, ?_⟩
      · rw [← hfirst.bytes_append, ← hjoined]
        exact List.append_assoc ..
      · rw [hfirst.split, List.map_cons, htexts]
        rfl

/-! ### Readers of joined lines -/

/-- A reader of a file hands over the texts that the lines of its content have. -/
theorem Event.Delivers.call_of_texts {script : List Event} {content : Bytes}
    {texts : List Line} (h : Event.Delivers script content)
    (htexts : (LineStyle.universal.split content).map RawLine.text = texts.map Utf8.encode)
    (k : Nat) :
    ((Reader.ofEvents script).call .universal k).1 = texts[k]?.map Except.ok := by
  rw [h.call_eq, ← List.getElem?_map, RawLine.map_decode_eq htexts, List.getElem?_map]

/-- **A reader of a file undoes joining.** However joined lines arrive, the calls hand over just
those that are not swallowed, in their order; if none is swallowed, these are all of them. And
every content that is valid UTF-8 is joined of the lines that the calls hand over. -/
theorem JoinedText.call_universal_joined :
    (∀ (joined : JoinedText) (script : List Event), Event.Delivers script joined.content →
      ∀ k, ((Reader.ofEvents script).call .universal k).1 =
        joined.kept.texts[k]?.map Except.ok) ∧
    (∀ joined : JoinedText,
      (joined.ended.IsChain fun before line => ¬before.Swallows line) → joined.kept = joined) ∧
    ∀ content : Bytes, Utf8.IsValid content →
      ∃ joined : JoinedText, joined.content = content ∧
        ∀ script, Event.Delivers script content →
          ∀ k, ((Reader.ofEvents script).call .universal k).1 =
            joined.texts[k]?.map Except.ok := by
  refine ⟨fun joined script h k => h.call_of_texts (map_text_split_joined joined) k,
    fun joined h => kept_eq_self h, ?_⟩
  rintro _ ⟨text, rfl⟩
  obtain ⟨joined, hjoined, htexts⟩ := exists_joined text
  exact ⟨joined, hjoined, fun script h k => h.call_of_texts htexts k⟩

/-- An empty line behind a carriage return is lost, and a second one behind it is not; with a
carriage return between them both are kept. -/
theorem JoinedText.call_universal_joined_of_empty_lines :
    let first : EndedLine := ⟨['a'], by decide, .lone⟩
    let empty : EndedLine := ⟨[], by decide, .feed⟩
    let other : EndedLine := ⟨[], by decide, .lone⟩
    let joined : JoinedText := ⟨[first, empty, empty], ['b'], by decide⟩
    let apart : JoinedText := ⟨[first, other, ⟨[], by decide, .pair⟩], [], by decide⟩
    let script : List Event :=
      [.data [0x61, 0x0D], .failure ⟨.interrupted, "again"⟩, .data [0x0A, 0x0A, 0x62]]
    let reader := Reader.ofEvents script
    Event.Delivers script joined.content ∧ (reader.call .universal 0).1 = some (.ok ['a']) ∧
      (reader.call .universal 1).1 = some (.ok []) ∧
      (reader.call .universal 2).1 = some (.ok ['b']) ∧ (reader.call .universal 3).1 = none ∧
      apart.kept = apart := by
  intro first empty other joined apart script reader
  have h : Event.Delivers script joined.content := ⟨by decide, by decide⟩
  obtain ⟨hcalls, hkept, -⟩ := JoinedText.call_universal_joined
  have hcalls := hcalls joined script h
  exact ⟨h, hcalls 0, hcalls 1, hcalls 2, hcalls 3, hkept apart (by decide)⟩

end LicenseHeader
