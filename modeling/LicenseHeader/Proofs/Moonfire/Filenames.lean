import LicenseHeader.Config
import LicenseHeader.Proofs.Pattern.Words

/-!
# The names of the source files of Moonfire NVR

The expected header is asked of source files, which are told by their names. The pattern of
these names stands for a name as a whole: anything, then a period, then one of some endings.
All its classes stand for bytes, and none of them has the line feed. So whatever bytes a name
may have, one that needs a header has a period and does not go over several lines. That makes
such names fit for a list with one name on each line.

What stands in front of the last period may have periods as well, so the search tries several
places for it. None of this shows in the answer: the endings have ten words, and a name needs
a header if and only if it is free of line feeds and ends with a period and one of these words
(`Config.requiresHeader_moonfire_iff_suffix`).

## Main definitions

* `SourceName.anything`, `SourceName.period`, `SourceName.ending`: the parts of a name.
* `SourceName.suffixes`: how such names end.

## Main results

* `Config.moonfire_filenames`: the pattern of the configuration.
* `Config.requiresHeader_moonfire_iff`: the names that it is found in.
* `SourceName.lineFeed_notMem`, `SourceName.period_mem`: such a name fills a line.
* `Config.requiresHeader_moonfire_iff_suffix`: such a name is known by its suffix.
-/

namespace LicenseHeader

namespace SourceName

/-! ### Parts of a name -/

/-- The pattern of a single byte. -/
def byte (b : UInt8) : Pattern := .one ⟨false, [(b.toNat, b.toNat)]⟩

/-- The pattern of a text, byte for byte. -/
def text (written : String) : Pattern :=
  .inRow ((Bytes.ofString written).map byte) .empty

/-- What may stand in front of the last period. -/
def anything : Pattern := .repeated (.one (CharClass.dot false)) 0 none

/-- The period in front of the ending. -/
def period : Pattern := byte 0x2E

/-- The endings of scripts: `js` or `ts`, and an `x` if there is markup in them. -/
def scriptEnding : Pattern :=
  .inRow [.one ⟨false, [(0x6A, 0x6A), (0x74, 0x74)]⟩, byte 0x73,
    .repeated (byte 0x78) 0 (some 1)] .empty

/-- The endings of source files. -/
def ending : Pattern :=
  .alternatives [text "sh", text "rs", text "py", text "css", text "html", scriptEnding]
    (text "sql")

/-- The dot stands for every byte but the line feed. -/
theorem contains_dot {b : UInt8} :
    (CharClass.dot false).contains b.toNat = true ↔ b ≠ lineFeed := by
  have hranges : CharClass.dot false = ⟨false, [(0x00, 0x09), (0x0B, 0xFF)]⟩ := rfl
  have hlt : b.toNat < 256 := b.toNat_lt
  have hfeed : b = lineFeed ↔ b.toNat = 0x0A := UInt8.toNat_inj.symm
  rw [Ne, hfeed, hranges, CharClass.contains, Ranges.covers_cons, Ranges.covers_singleton]
  omega

/-- Anything may stand in front of the period, so long as it stays on one line. -/
theorem spells_anything {word : Bytes} : anything.Spells word ↔ lineFeed ∉ word := by
  constructor
  · intro hword
    exact Pattern.byte_notMem_of_spells (List.forall_mem_singleton.mpr ⟨rfl, rfl⟩) hword
  · intro hword
    have hwords : ∀ w ∈ word.map fun b => [b],
        (Pattern.one (CharClass.dot false)).Spells w := by
      rw [List.forall_mem_map]
      intro b hb
      have hdot : (CharClass.dot false).contains b.toNat = true := by
        rw [contains_dot]
        exact fun heq => hword (heq ▸ hb)
      exact (CharClass.spells_iff_contains rfl).mpr ⟨b, hdot, rfl⟩
    exact ⟨word.length, fun m hm => absurd hm (by simp), word.map fun b => [b], by simp, hwords,
      (List.flatMap_singleton' word).symm⟩

/-- The only word of a byte. -/
theorem spells_byte {b : UInt8} {word : Bytes} : (byte b).Spells word ↔ word = [b] := by
  refine (CharClass.spells_iff_contains rfl).trans ?_
  simp only [CharClass.contains_single, UInt8.toNat_inj, exists_eq_left]

/-- A byte is spelled by itself. -/
theorem byte_spells (b : UInt8) : (byte b).Spells [b] := by
  rw [spells_byte]

end SourceName

/-! ### The configuration -/

/-- The pattern of names is that of a whole name and its parts. -/
theorem Config.moonfire_filenames :
    Config.moonfire.filenames.pattern =
      .whole [SourceName.anything, SourceName.period, SourceName.ending] := by
  obtain ⟨-, hname, -⟩ := of_ofStrings ofStrings_moonfire
  exact Rule.pattern_of_ofString hname (by decide +kernel)

/-- **A source file is one whose name has an ending behind its last period.** -/
theorem Config.requiresHeader_moonfire_iff {name : Bytes} :
    Config.moonfire.requiresHeader name = true ↔
      ∃ front back, lineFeed ∉ front ∧ SourceName.ending.Spells back ∧
        name = front ++ 0x2E :: back := by
  rw [requiresHeader, moonfire_filenames, Pattern.isIn_whole_iff (by decide)]
  constructor
  · rintro ⟨front, _, hfront, ⟨dot, _, hdot, ⟨back, _, hback, rfl, rfl⟩, rfl⟩, rfl⟩
    rw [SourceName.spells_anything] at hfront
    rw [SourceName.period, SourceName.spells_byte] at hdot
    rw [hdot, List.append_nil]
    exact ⟨front, back, hfront, hback, rfl⟩
  · rintro ⟨front, back, hfront, hback, rfl⟩
    rw [← SourceName.spells_anything] at hfront
    exact ⟨front, 0x2E :: back, hfront,
      ⟨[0x2E], back, SourceName.byte_spells 0x2E,
        ⟨back, [], hback, rfl, (List.append_nil back).symm⟩, rfl⟩, rfl⟩

/-! ### Names on lines of their own -/

namespace SourceName

variable {name : Bytes} (h : Config.moonfire.requiresHeader name = true)

include h

/-- The name of a source file has no line feed. -/
theorem lineFeed_notMem : lineFeed ∉ name := by
  rw [Config.requiresHeader_moonfire_iff] at h
  obtain ⟨front, back, hfront, hback, rfl⟩ := h
  have hclean : lineFeed ∉ back := Pattern.byte_notMem_of_spells (by decide) hback
  rw [List.mem_append, List.mem_cons]
  rintro (hmem | hmem | hmem)
  · exact hfront hmem
  · exact absurd hmem (by decide)
  · exact hclean hmem

/-- The name of a source file has a period. -/
theorem period_mem : 0x2E ∈ name := by
  rw [Config.requiresHeader_moonfire_iff] at h
  obtain ⟨front, back, -, -, rfl⟩ := h
  exact List.mem_append_right front List.mem_cons_self

end SourceName

/-! ### Suffixes -/

namespace SourceName

/-- How the names of source files end. -/
def suffixes : List String :=
  [".js", ".jsx", ".ts", ".tsx", ".html", ".css", ".py", ".rs", ".sh", ".sql"]

/-- The only word of bytes in a row. -/
theorem spells_bytes {bytes word : Bytes} :
    (Pattern.inRow (bytes.map byte) .empty).Spells word ↔ word = bytes := by
  induction bytes generalizing word with
  | nil => exact Iff.rfl
  | cons b bytes ih =>
      constructor
      · rintro ⟨front, back, hfront, hback, rfl⟩
        rw [spells_byte] at hfront
        rw [hfront, ih.mp hback]
        rfl
      · rintro rfl
        exact ⟨[b], bytes, byte_spells b, ih.mpr rfl, rfl⟩

/-- The words of a class of two bytes. -/
theorem spells_either {b c : UInt8} (h : b.toNat < c.toNat) {word : Bytes} :
    (Pattern.one ⟨false, [(b.toNat, b.toNat), (c.toNat, c.toNat)]⟩).Spells word ↔
      word = [b] ∨ word = [c] := by
  refine (CharClass.spells_iff_contains rfl).trans ?_
  have hcontains : ∀ d : UInt8,
      CharClass.contains ⟨false, [(b.toNat, b.toNat), (c.toNat, c.toNat)]⟩ d.toNat = true ↔
        d = b ∨ d = c := by
    intro d
    rw [CharClass.contains, Ranges.covers_cons, Ranges.covers_singleton, ← UInt8.toNat_inj,
      ← UInt8.toNat_inj]
    omega
  simp only [hcontains, or_and_right, exists_or, exists_eq_left]

/-- A script's ending is `js` or `ts`, with or without an `x` behind it. -/
theorem spells_scriptEnding {word : Bytes} :
    scriptEnding.Spells word ↔ ∃ front back : Bytes, (front = [0x6A] ∨ front = [0x74]) ∧
      (back = [] ∨ back = [0x78]) ∧ word = front ++ 0x73 :: back := by
  constructor
  · rintro ⟨front, _, hfront, ⟨_, _, hs, ⟨back, _, hback, rfl, rfl⟩, rfl⟩, rfl⟩
    rw [spells_byte] at hs
    rw [Pattern.spells_optional, spells_byte] at hback
    rw [hs, List.append_nil]
    exact ⟨front, back, (spells_either (by decide)).mp hfront, hback, rfl⟩
  · rintro ⟨front, back, hfront, hback, rfl⟩
    rw [← spells_byte, ← Pattern.spells_optional] at hback
    exact ⟨front, _, (spells_either (by decide)).mpr hfront, ⟨[0x73], back, byte_spells 0x73,
      ⟨back, [], hback, rfl, (List.append_nil back).symm⟩, rfl⟩, rfl⟩

/-- The words of a script's ending, one by one. -/
theorem spells_scriptEnding_iff_mem {word : Bytes} :
    scriptEnding.Spells word ↔ word ∈ ["js", "jsx", "ts", "tsx"].map Bytes.ofString := by
  rw [spells_scriptEnding]
  constructor
  · rintro ⟨_, _, rfl | rfl, rfl | rfl, rfl⟩ <;> decide
  · simp only [List.map_cons, List.map_nil, List.mem_cons, List.not_mem_nil, or_false]
    rintro (rfl | rfl | rfl | rfl)
    · exact ⟨[0x6A], [], .inl rfl, .inl rfl, rfl⟩
    · exact ⟨[0x6A], [0x78], .inl rfl, .inr rfl, rfl⟩
    · exact ⟨[0x74], [], .inr rfl, .inl rfl, rfl⟩
    · exact ⟨[0x74], [0x78], .inr rfl, .inr rfl, rfl⟩

/-- The words of the endings are what stands behind the periods of the suffixes. -/
theorem spells_ending {word : Bytes} :
    ending.Spells word ↔ 0x2E :: word ∈ suffixes.map Bytes.ofString := by
  have hsuffixes : suffixes.map Bytes.ofString =
      (["js", "jsx", "ts", "tsx"].map Bytes.ofString ++
        ["html", "css", "py", "rs", "sh", "sql"].map Bytes.ofString).map (0x2E :: ·) := by
    decide
  have hending : ending.Spells word ↔ scriptEnding.Spells word ∨
      word ∈ ["html", "css", "py", "rs", "sh", "sql"].map Bytes.ofString := by
    simp only [ending, Pattern.alternatives, List.foldl, Pattern.Spells, text, spells_bytes]
    simp
  rw [hending, spells_scriptEnding_iff_mem, hsuffixes, ← List.mem_append]
  simp

end SourceName

/-- **A source file is known by the suffix of its name.** Whatever bytes a name consists of, it
needs the header if and only if it has no line feed and ends with one of the suffixes, in this
case of the letters. -/
theorem Config.requiresHeader_moonfire_iff_suffix (name : Bytes) :
    Config.moonfire.requiresHeader name = true ↔
      lineFeed ∉ name ∧ ∃ suffix ∈ SourceName.suffixes, Bytes.ofString suffix <:+ name := by
  constructor
  · intro h
    have hfeed := SourceName.lineFeed_notMem h
    rw [requiresHeader_moonfire_iff] at h
    obtain ⟨front, back, -, hback, hname⟩ := h
    rw [SourceName.spells_ending, List.mem_map] at hback
    obtain ⟨suffix, hsuffix, hwritten⟩ := hback
    exact ⟨hfeed, suffix, hsuffix, front, by rw [hwritten, hname]⟩
  · rintro ⟨hfeed, suffix, hsuffix, front, rfl⟩
    have hperiods : ∀ suffix ∈ SourceName.suffixes,
        (Bytes.ofString suffix).head? = some 0x2E := by
      decide
    obtain ⟨back, hback⟩ := List.head?_eq_some_iff.mp (hperiods suffix hsuffix)
    have hspells : SourceName.ending.Spells back := by
      rw [SourceName.spells_ending, ← hback]
      exact List.mem_map_of_mem hsuffix
    have hfront : lineFeed ∉ front := fun hmem => hfeed (List.mem_append_left _ hmem)
    rw [requiresHeader_moonfire_iff]
    exact ⟨front, back, hfront, hspells, by rw [hback]⟩

end LicenseHeader
