import LicenseHeader.Check.Files

/-!
# Results of checking files

A check goes through the names in their order and gathers those that need a header and lack
it, until a file cannot be opened or read. Its result, without the notices, is a sequence in
the sense of `Except`: it is that of the names in front, and then that of the others
(`result_lackingFiles_append`). So where the verdict on one file is known, what it adds to
the result of any list that it stands in is known too.

## Main results

* `Config.result_lackingFiles_cons`, `Config.result_lackingFiles_append`: the result of a
  list of names.
* `Config.result_missingFiles_of_checked`: what a single file adds.
-/

namespace LicenseHeader

variable {config : Config} {files : FileView} {path : Bytes}

/-- The result for a first name and the others. -/
theorem Config.result_lackingFiles_cons (config : Config) (files : FileView) (path : Bytes)
    (paths : List Bytes) :
    (config.lackingFiles files (path :: paths)).result =
      if config.requiresHeader path then do
        let found ← (config.checkFile files path).result
        let others ← (config.lackingFiles files paths).result
        return if found then others else path :: others
      else (config.lackingFiles files paths).result := by
  rw [lackingFiles]
  split
  · cases hfile : (config.checkFile files path).result with
    | error e => simp only [hfile]; rfl
    | ok found =>
        simp only [hfile]
        cases (config.lackingFiles files paths).result <;> cases found <;> rfl
  · rfl

/-- The result for some names and the others behind them. -/
theorem Config.result_lackingFiles_append (config : Config) (files : FileView)
    (front back : List Bytes) :
    (config.lackingFiles files (front ++ back)).result = do
      let missing ← (config.lackingFiles files front).result
      let others ← (config.lackingFiles files back).result
      return missing ++ others := by
  induction front with
  | nil =>
      rw [List.nil_append, lackingFiles]
      exact (bind_pure _).symm
  | cons path front ih =>
      rw [List.cons_append, result_lackingFiles_cons, result_lackingFiles_cons, ih]
      split
      · simp only [bind_assoc, pure_bind]
        refine bind_congr fun found => ?_
        refine bind_congr fun missing => ?_
        cases found <;> rfl
      · rfl

/-- The closing notice has no bearing on the result. -/
theorem Config.result_missingFiles (config : Config) (files : FileView)
    (paths : List Bytes) :
    (config.missingFiles files paths).result = (config.lackingFiles files paths).result := by
  rw [missingFiles]
  split <;> rfl

/-- Among no names there are none of files that lack the header. -/
theorem Config.result_missingFiles_nil (config : Config) (files : FileView) :
    (config.missingFiles files []).result = .ok [] := rfl

/-- The opening notice has no bearing on the result. -/
theorem Config.result_checkFiles (config : Config) (files : FileView) (paths : List Bytes) :
    (config.checkFiles files paths).result = (config.missingFiles files paths).result := rfl

/-- The result for standard input is that of detection among its lines. -/
theorem Config.result_checkInput (config : Config) (input : List Event) :
    (config.checkInput input).result =
      (config.detectRead .feedOnly (.ofEvents input)).verdict.mapError .standardInput := rfl

/-- The result for a file that could be opened is that of detection among its lines. -/
theorem Config.result_checkFile_of_opened {script : List Event} (hfile : files path = .ok script) :
    (config.checkFile files path).result =
      (config.detectRead .universal (.ofEvents script)).verdict.mapError (.reading path) := by
  rw [checkFile, hfile]

/-- The result for a file that could be read is the verdict on its lines. -/
theorem Config.result_checkFile_of_ok {script : List Event} {found : Bool}
    (hfile : files path = .ok script)
    (hverdict : (config.detectRead .universal (.ofEvents script)).verdict = .ok found) :
    (config.checkFile files path).result = .ok found := by
  rw [result_checkFile_of_opened hfile, hverdict]
  rfl

/-- **A file adds its name to the result exactly if it lacks the header.** The names before
it and behind it count as they would without it. -/
theorem Config.result_missingFiles_of_checked {found : Bool}
    (hname : config.requiresHeader path = true)
    (hfound : (config.checkFile files path).result = .ok found) (front back : List Bytes) :
    (config.missingFiles files (front ++ path :: back)).result = do
      let missing ← (config.missingFiles files front).result
      let others ← (config.missingFiles files back).result
      return missing ++ if found then others else path :: others := by
  simp only [result_missingFiles]
  rw [result_lackingFiles_append, result_lackingFiles_cons, if_pos hname, hfound]
  refine bind_congr fun missing => ?_
  simp only [bind_assoc, pure_bind]
  rfl

end LicenseHeader
