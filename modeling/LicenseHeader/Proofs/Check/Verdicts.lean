import LicenseHeader.Proofs.Check.Files
import LicenseHeader.Proofs.Detection.Pulls
import LicenseHeader.Proofs.Reader.Calls

/-!
# Verdicts on files

Of the names that a check is given it passes over those that need no header. On the others
it comes to a verdict one by one, until it meets a file that cannot be opened or read, and
that file ends it. So names fall into three kinds, and what a check does with a list of them
is said along an induction with one case for each kind (`lackingFiles_induction`). Without a
file that fails, the result is a filter of the names; with one, it is the error of the first
such file, whatever stands behind it. The verdicts that are told on the way are those on
the files before it.

Which files a check opens depends on the files themselves, since a failure keeps it from
those behind. It is these files alone that a check depends on (`lackingFiles_congr`).

## Main definitions

* `Config.decides`, `Config.lacks`: the verdict on a file.
* `Config.decided`, `Config.failing?`, `Config.opened`: the files that a check opens.

## Main results

* `Config.result_checkFile_eq_error_iff`: how the check of a file fails.
* `Config.result_lackingFiles`, `Config.verdicts_lackingFiles`: what comes of a list.
* `Config.missingFiles_eq_filter`: a check of files is a filter that a failure ends.
-/

namespace LicenseHeader

variable {config : Config} {files : FileView} {path : Bytes}

/-! ### Single files -/

/-- Whether the check of a file comes to a verdict. -/
def Config.decides (config : Config) (files : FileView) (path : Bytes) : Bool :=
  (config.checkFile files path).result.isOk

/-- Whether the check of a file comes to the verdict that its header is missing. -/
def Config.lacks (config : Config) (files : FileView) (path : Bytes) : Bool :=
  match (config.checkFile files path).result with
  | .ok found => !found
  | .error _ => false

/-- A file with a verdict. -/
theorem Config.decides_of_ok {found : Bool}
    (h : (config.checkFile files path).result = .ok found) :
    config.decides files path = true ∧ config.lacks files path = !found := by
  rw [decides, lacks, h]
  exact ⟨rfl, rfl⟩

/-- A file without a verdict. -/
theorem Config.decides_of_error {e : CheckError}
    (h : (config.checkFile files path).result = .error e) :
    config.decides files path = false := by
  rw [decides, h]
  rfl

/-- Calls one after the other are pulls one after the other. -/
theorem Reader.call_eq_nthPull (style : LineStyle) (k : Nat) (reader : Reader) :
    reader.call style k = nthPull (Reader.next style) k reader := by
  induction k generalizing reader with
  | zero => rfl
  | succ k ih => exact ih (reader.next style).2

/-- Detection in a file fails if one of the lines that are pulled before a verdict cannot be
had. -/
theorem Config.verdict_detectRead_eq_error_iff {reader : Reader} {failure : Failure} :
    (config.detectRead .universal reader).verdict = .error failure ↔
      ∃ k < (config.detectRead .universal reader).pulled,
        (reader.call .universal k).1 = some (.error failure) := by
  simp only [Reader.call_eq_nthPull]
  exact detect_error_iff

/-- Naming the file in an error neither makes nor mends one. -/
theorem mapError_eq_error_iff {ε ε' β : Type} {result : Except ε β} {name : ε → ε'} {e : ε'} :
    result.mapError name = .error e ↔ ∃ failure, result = .error failure ∧ e = name failure := by
  cases result with
  | error failure =>
      constructor
      · intro h
        exact ⟨failure, rfl, (Except.error.inj h).symm⟩
      · rintro ⟨_, hfailure, rfl⟩
        obtain rfl := Except.error.inj hfailure
        rfl
  | ok found =>
      constructor
      · intro h
        have hok : (Except.ok found : Except ε' β) = .error e := h
        exact absurd hok (by simp)
      · rintro ⟨_, hfailure, -⟩
        exact absurd hfailure (by simp)

/-- **The check of a file fails in two ways.** Either the file cannot be opened, or one of
the lines that are pulled before a verdict cannot be had. The error keeps the failure. -/
theorem Config.result_checkFile_eq_error_iff {e : CheckError} :
    (config.checkFile files path).result = .error e ↔
      (∃ failure, files path = .error failure ∧ e = .opening path failure) ∨
      ∃ events failure, files path = .ok events ∧ e = .reading path failure ∧
        ∃ k < (config.detectRead .universal (.ofEvents events)).pulled,
          ((Reader.ofEvents events).call .universal k).1 = some (.error failure) := by
  cases hfile : files path with
  | error failure =>
      rw [checkFile, hfile]
      simp [eq_comm]
  | ok events =>
      simp only [result_checkFile_of_opened hfile, mapError_eq_error_iff,
        verdict_detectRead_eq_error_iff]
      constructor
      · rintro ⟨failure, hpull, rfl⟩
        exact .inr ⟨events, failure, rfl, rfl, hpull⟩
      · rintro (⟨failure, hopen, -⟩ | ⟨_, failure, hopen, rfl, hpull⟩)
        · exact absurd hopen (by simp)
        · obtain rfl := Except.ok.inj hopen
          exact ⟨failure, hpull, rfl⟩

/-! ### Lists of files -/

/-- The files on which a check comes to a verdict: those that need a header, up to the first
that fails. -/
def Config.decided (config : Config) (files : FileView) (paths : List Bytes) : List Bytes :=
  (paths.filter config.requiresHeader).takeWhile (config.decides files)

/-- The file that ends a check with an error, if there is one: the first that needs a header
and fails. -/
def Config.failing? (config : Config) (files : FileView) (paths : List Bytes) :
    Option Bytes :=
  (paths.filter config.requiresHeader).find? fun path => !config.decides files path

/-- The files that a check opens. -/
def Config.opened (config : Config) (files : FileView) (paths : List Bytes) : List Bytes :=
  config.decided files paths ++ (config.failing? files paths).toList

section Exempt

variable (h : config.requiresHeader path = false) (files : FileView) (paths : List Bytes)

include h

/-- A file that needs no header is passed over. -/
theorem Config.lackingFiles_of_exempt :
    config.lackingFiles files (path :: paths) =
      ⟨(config.lackingFiles files paths).result,
        .diagnostic (.exempt path) :: (config.lackingFiles files paths).notices⟩ := by
  rw [lackingFiles, h]
  rfl

/-- A file that needs no header is not opened. -/
theorem Config.opened_of_exempt :
    config.decided files (path :: paths) = config.decided files paths ∧
      config.failing? files (path :: paths) = config.failing? files paths := by
  have hfilter : (path :: paths).filter config.requiresHeader =
      paths.filter config.requiresHeader :=
    List.filter_cons_of_neg (by rw [h]; exact Bool.false_ne_true)
  rw [decided, failing?, hfilter]
  exact ⟨rfl, rfl⟩

end Exempt

section Required

variable (h : config.requiresHeader path = true)

include h

/-- A file that fails ends the check. -/
theorem Config.lackingFiles_of_error {e : CheckError}
    (he : (config.checkFile files path).result = .error e) (paths : List Bytes) :
    config.lackingFiles files (path :: paths) =
      ⟨.error e, (config.checkFile files path).notices⟩ := by
  rw [lackingFiles, if_pos h]
  simp only [he]

/-- Behind a file that fails no other one is opened. -/
theorem Config.opened_of_error {e : CheckError}
    (he : (config.checkFile files path).result = .error e) (paths : List Bytes) :
    config.decided files (path :: paths) = [] ∧
      config.failing? files (path :: paths) = some path := by
  have hnot := decides_of_error he
  rw [decided, failing?, List.filter_cons_of_pos h]
  simp only [List.takeWhile_cons, List.find?_cons, hnot]
  exact ⟨rfl, rfl⟩

/-- The verdict on a file stands in front of those on the others. -/
theorem Config.lackingFiles_of_ok {found : Bool}
    (hfound : (config.checkFile files path).result = .ok found) (paths : List Bytes) :
    config.lackingFiles files (path :: paths) =
      ⟨(config.lackingFiles files paths).result.map (if found then id else (path :: ·)),
        (config.checkFile files path).notices ++
          .verdict path found :: (config.lackingFiles files paths).notices⟩ := by
  rw [lackingFiles, if_pos h]
  simp only [hfound]

/-- A file with a verdict is opened, and then the others are. -/
theorem Config.opened_of_ok {found : Bool}
    (hfound : (config.checkFile files path).result = .ok found) (paths : List Bytes) :
    config.decided files (path :: paths) = path :: config.decided files paths ∧
      config.failing? files (path :: paths) = config.failing? files paths := by
  obtain ⟨hdecides, -⟩ := decides_of_ok hfound
  rw [decided, failing?, List.filter_cons_of_pos h]
  simp only [List.takeWhile_cons, List.find?_cons, hdecides]
  exact ⟨rfl, rfl⟩

end Required

/-- Induction along the names that a check is given. A name is that of a file that needs no
header, of one that fails, or of one with a verdict. -/
theorem Config.lackingFiles_induction {motive : List Bytes → Prop} (config : Config)
    (files : FileView) (nil : motive [])
    (exempt : ∀ path paths, config.requiresHeader path = false → motive paths →
      motive (path :: paths))
    (failed : ∀ path paths e, config.requiresHeader path = true →
      (config.checkFile files path).result = .error e → motive (path :: paths))
    (found : ∀ path paths found, config.requiresHeader path = true →
      (config.checkFile files path).result = .ok found → motive paths →
      motive (path :: paths))
    (paths : List Bytes) : motive paths := by
  induction paths with
  | nil => exact nil
  | cons path paths ih =>
      cases hname : config.requiresHeader path with
      | false => exact exempt path paths hname ih
      | true =>
          cases hfile : (config.checkFile files path).result with
          | error e => exact failed path paths e hname hfile
          | ok verdict => exact found path paths verdict hname hfile ih

/-- **The result of a check is a filter or an error.** -/
theorem Config.result_lackingFiles (config : Config) (files : FileView) (paths : List Bytes) :
    (config.failing? files paths = none →
      (config.lackingFiles files paths).result =
        .ok ((config.decided files paths).filter (config.lacks files))) ∧
    ∀ path, config.failing? files paths = some path →
      ∃ e, (config.checkFile files path).result = .error e ∧
        (config.lackingFiles files paths).result = .error e := by
  induction paths using config.lackingFiles_induction files with
  | nil => exact ⟨fun _ => rfl, fun path hpath => absurd hpath (by simp [failing?])⟩
  | exempt path paths hname ih =>
      obtain ⟨hdecided, hfailing⟩ := opened_of_exempt hname files paths
      rw [hdecided, hfailing, lackingFiles_of_exempt hname]
      exact ih
  | failed path paths e hname he =>
      obtain ⟨hdecided, hfailing⟩ := opened_of_error hname he paths
      rw [hdecided, hfailing, lackingFiles_of_error hname he]
      refine ⟨fun h => absurd h (by simp), fun other hother => ?_⟩
      obtain rfl := Option.some.inj hother
      exact ⟨e, he, rfl⟩
  | found path paths found hname hfound ih =>
      obtain ⟨hdecided, hfailing⟩ := opened_of_ok hname hfound paths
      obtain ⟨-, hlacks⟩ := decides_of_ok hfound
      rw [hdecided, hfailing, lackingFiles_of_ok hname hfound]
      refine ⟨fun h => ?_, fun other hother => ?_⟩
      · simp only [ih.1 h, List.filter_cons, hlacks]
        cases found <;> rfl
      · obtain ⟨e, he, hresult⟩ := ih.2 other hother
        exact ⟨e, he, by simp only [hresult]; rfl⟩

/-- The files in the result of a check are ones that need a header. -/
theorem Config.requiresHeader_of_mem_lacking {paths missing : List Bytes}
    (h : (config.lackingFiles files paths).result = .ok missing) {name : Bytes}
    (hname : name ∈ missing) : config.requiresHeader name = true := by
  obtain ⟨hfilter, herror⟩ := config.result_lackingFiles files paths
  cases hfailing : config.failing? files paths with
  | none =>
      obtain rfl := Except.ok.inj ((hfilter hfailing).symm.trans h)
      obtain ⟨hdecided, -⟩ := List.mem_filter.mp hname
      have hrequired := (List.takeWhile_sublist _).subset hdecided
      exact (List.mem_filter.mp hrequired).2
  | some path =>
      obtain ⟨e, -, he⟩ := herror path hfailing
      exact absurd (he.symm.trans h) (by simp)

/-! ### Files that are not opened -/

/-- Only the file at a path matters for its check. -/
theorem Config.checkFile_congr (config : Config) {files' : FileView}
    (h : files' path = files path) :
    config.checkFile files' path = config.checkFile files path := by
  rw [checkFile, checkFile, h]

/-- **A check depends on the files that it opens and on no others.** -/
theorem Config.lackingFiles_congr (config : Config) (files files' : FileView)
    (paths : List Bytes) (h : ∀ path ∈ config.opened files paths, files' path = files path) :
    config.lackingFiles files' paths = config.lackingFiles files paths := by
  induction paths using config.lackingFiles_induction files with
  | nil => rfl
  | exempt path paths hname ih =>
      obtain ⟨hdecided, hfailing⟩ := opened_of_exempt hname files paths
      rw [opened, hdecided, hfailing] at h
      rw [lackingFiles_of_exempt hname, lackingFiles_of_exempt hname, ih h]
  | failed path paths e hname he =>
      obtain ⟨hdecided, hfailing⟩ := opened_of_error hname he paths
      rw [opened, hdecided, hfailing] at h
      have hsame := config.checkFile_congr (h path (by simp))
      rw [lackingFiles_of_error hname he, lackingFiles_of_error hname (hsame ▸ he), hsame]
  | found path paths found hname hfound ih =>
      obtain ⟨hdecided, hfailing⟩ := opened_of_ok hname hfound paths
      rw [opened, hdecided, hfailing, List.cons_append] at h
      obtain ⟨hpath, hothers⟩ := List.forall_mem_cons.mp h
      have hsame := config.checkFile_congr hpath
      rw [lackingFiles_of_ok hname hfound, lackingFiles_of_ok hname (hsame ▸ hfound), hsame,
        ih hothers]

/-! ### Verdicts that are told -/

/-- Where no file fails all files that need a header are decided. -/
theorem Config.decided_of_decides {paths : List Bytes}
    (h : ∀ path ∈ paths.filter config.requiresHeader, config.decides files path = true) :
    config.decided files paths = paths.filter config.requiresHeader ∧
      config.failing? files paths = none := by
  constructor
  · have hprefix := @List.takeWhile_append_of_pos _ _ _ [] h
    rwa [List.takeWhile_nil, List.append_nil] at hprefix
  · refine List.find?_eq_none.mpr fun path hpath => ?_
    rw [h path hpath]
    exact Bool.false_ne_true

/-- Where some file fails there is a first one. -/
theorem Config.exists_failing?_eq_some {paths : List Bytes}
    (h : ∃ path ∈ paths.filter config.requiresHeader, config.decides files path = false) :
    ∃ path, config.failing? files paths = some path := by
  obtain ⟨path, hpath, hnot⟩ := h
  have hsome : (config.failing? files paths).isSome = true :=
    List.find?_isSome.mpr ⟨path, hpath, by rw [hnot]; rfl⟩
  exact Option.isSome_iff_exists.mp hsome

/-- **A check of files is a filter that the first failure ends.** -/
theorem Config.missingFiles_eq_filter (config : Config) (files : FileView)
    (paths : List Bytes) :
    let required := paths.filter config.requiresHeader
    let missing := config.missingFiles files paths
    ((∀ path ∈ required, config.decides files path = true) →
      missing.result = .ok (required.filter (config.lacks files))) ∧
    ((∃ path ∈ required, config.decides files path = false) →
      ∃ front path back e, required = front ++ path :: back ∧
        (∀ earlier ∈ front, config.decides files earlier = true) ∧
        (config.checkFile files path).result = .error e ∧ missing.result = .error e ∧
        ((∃ failure, files path = .error failure ∧ e = .opening path failure) ∨
          ∃ events failure, files path = .ok events ∧ e = .reading path failure ∧
            ∃ k < (config.detectRead .universal (.ofEvents events)).pulled,
              ((Reader.ofEvents events).call .universal k).1 = some (.error failure))) ∧
    ∀ files' : FileView, (∀ path ∈ config.opened files paths, files' path = files path) →
      config.missingFiles files' paths = missing := by
  intro required missing
  obtain ⟨hfilter, herror⟩ := config.result_lackingFiles files paths
  have hresult : missing.result = (config.lackingFiles files paths).result :=
    config.result_missingFiles files paths
  refine ⟨fun hall => ?_, fun hsome => ?_, fun files' hsame => ?_⟩
  · obtain ⟨hdecided, hnone⟩ := decided_of_decides hall
    rw [hresult, hfilter hnone, hdecided]
  · obtain ⟨path, hpath⟩ := exists_failing?_eq_some hsome
    obtain ⟨e, he, hlacking⟩ := herror path hpath
    obtain ⟨-, front, back, hrequired, hfront⟩ := List.find?_eq_some_iff_append.mp hpath
    refine ⟨front, path, back, e, hrequired, fun earlier hearlier => ?_, he,
      hresult.trans hlacking, result_checkFile_eq_error_iff.mp he⟩
    simpa using hfront earlier hearlier
  · have hlacking := config.lackingFiles_congr files files' paths hsame
    simp only [missing, missingFiles, hlacking]

/-- Names with an `r` need a header, which is an `x` in the first two lines. The file `r` has
none, `re` fails in its second line, and the other files are never opened. -/
theorem Config.missingFiles_eq_filter_of_late_failure :
    let config : Config := ⟨[⟨"x", .one ⟨true, [(0x78, 0x78)]⟩⟩],
      ⟨"r", .one ⟨false, [(0x72, 0x72)]⟩⟩, 2⟩
    let gone : Failure := ⟨.other, "gone"⟩
    let files : FileView := fun path =>
      if path = [0x72] then .ok [.data [0x79, 0x0A, 0x79]]
      else .ok [.data [0x79, 0x0A], .failure gone]
    let files' : FileView := fun path =>
      if path = [0x72] ∨ path = [0x72, 0x65] then files path else .error gone
    (config.missingFiles files [[0x72], [0x6D], [0x72]]).result = .ok [[0x72], [0x72]] ∧
      (∃ e, (config.missingFiles files [[0x6D], [0x72], [0x72, 0x65], [0x72, 0x73]]).result =
        .error e) ∧
      config.missingFiles files' [[0x6D], [0x72], [0x72, 0x65], [0x72, 0x73]] =
        config.missingFiles files [[0x6D], [0x72], [0x72, 0x65], [0x72, 0x73]] := by
  intro config gone files files'
  obtain ⟨hfilter, -, -⟩ := config.missingFiles_eq_filter files [[0x72], [0x6D], [0x72]]
  obtain ⟨-, herror, hsame⟩ :=
    config.missingFiles_eq_filter files [[0x6D], [0x72], [0x72, 0x65], [0x72, 0x73]]
  obtain ⟨-, -, -, e, -, -, -, he, -⟩ := herror ⟨[0x72, 0x65], by decide, by decide⟩
  have hopened : config.opened files [[0x6D], [0x72], [0x72, 0x65], [0x72, 0x73]] =
      [[0x72], [0x72, 0x65]] := by decide
  refine ⟨hfilter (by decide), ⟨e, he⟩, hsame files' fun path hpath => ?_⟩
  rw [hopened, List.mem_cons, List.mem_singleton] at hpath
  exact if_pos hpath

end LicenseHeader
