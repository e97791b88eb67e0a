import MuonDetector.Sinks.WorkingFiles
import Mathlib.Data.Nat.Digits.Lemmas

/-!
# The rotation of the files

Three loops have to agree on which files are the sink's: the one that looks for a free
pair of names, the one that collects the files of the data folder, and the one that
removes the old ones. The first numbers the pair behind the extension, where the second
no longer sees it, and the third stops at the first file that it cannot remove.
-/

namespace MuonDetector.Sinks.Rotation

open MuonDetector.Library MuonDetector.Library.Paths
open MuonDetector.Sinks.WorkingFiles

/-! ## The names -/

inductive Kind
  | data
  | log
  deriving DecidableEq, Repr

def Kind.head : Kind → Text
  | .data => ['d', 'a', 't', 'a', '_']
  | .log => ['l', 'o', 'g', '_']

/-- `"." + std::to_string(i)` -/
def number (i : Nat) : Text := '.' :: Nat.toDigits 10 i

def addSuffix (base : Path) : Option Nat → Path
  | none => base
  | some i => base ++ number i

/-- Without a number, and with 0 to 999. -/
def suffixes : List (Option Nat) := none :: (List.range 1000).map some

/-- The characters of `%Y-%m-%d_%H-%M-%S`. -/
def isStamp (c : Char) : Bool := c.isDigit || c = '-' || c = '_'

/-- A file that the sink creates. -/
structure SinkFile where
  kind : Kind
  /-- `dateStringNow` when it was created. -/
  stamp : Text
  suffix : Option Nat
  stamped : stamp.all isStamp = true
  numbered : suffix ∈ suffixes

def createFileName (stamp : Text) : Text := stamp ++ ['.', 'd', 'a', 't']

def SinkFile.name (f : SinkFile) : Text :=
  addSuffix (f.kind.head ++ createFileName f.stamp) f.suffix

/-! ## The rotation -/

def makeBasePaths (stamp : Text) : Path × Path :=
  (filePath (Kind.data.head ++ createFileName stamp),
    filePath (Kind.log.head ++ createFileName stamp))

/-- The loop over `i`, with the pair that is looked at next. -/
def resolveLoop (taken : Path → Bool) (baseData baseLog : Path) :
    List Nat → Path × Path → Path × Path
  | [], pair => pair
  | i :: is, (data, log) =>
    if !taken data && !taken log then (data, log)
    else resolveLoop taken baseData baseLog is
      (addSuffix baseData (some i), addSuffix baseLog (some i))

def resolveUniquePaths (taken : Path → Bool) (baseData baseLog : Path) : Path × Path :=
  resolveLoop taken baseData baseLog (List.range 1000) (baseData, baseLog)

/-- `fs::exists`, for a path in the data folder. -/
def existsAt (d : Disk) (p : Path) : Bool := d.dataFolder.any fun entry => filePath entry.name = p

def removeFiles (removed : List Text) (d : Disk) : Disk :=
  { d with dataFolder := d.dataFolder.filter fun entry => entry.name ∉ removed }

/-- `open` with `std::ios::app`. -/
def openForAppend (opened : Bool) (p : Path) (d : Disk) : Disk :=
  if opened && !existsAt d p then
    let entry := { name := filename p, isRegular := true, age := some 0 }
    { d with dataFolder := d.dataFolder ++ [entry] }
  else d

/-- What the clock and the file system answer during a rotation. -/
structure World where
  stamp : Text
  /-- If a file can be removed. -/
  remove : Text → Bool
  configOpens : Bool := true
  dataOpens : Bool := true
  logOpens : Bool := true

/-- A rotation, with the folder as the removal leaves it. -/
structure Rotated where
  removal : Removal
  left : Disk
  sink : FileSink
  disk : Disk
  ok : Bool

def rotateFiles (w : World) (s : FileSink) (d : Disk) : Rotated :=
  let s := (readConfigFile d s).2
  let removal := removeOldFiles w.remove d s
  let left := removeFiles removal.removed d
  let base := makeBasePaths w.stamp
  let paths := resolveUniquePaths (existsAt left) base.1 base.2
  let s := { s with currentWorkingFilePath := paths.1, currentWorkingLogPath := paths.2 }
  let d := (writeConfigFile w.configOpens s left).2
  { removal := removal
    left := left
    sink := s
    disk := openForAppend w.logOpens paths.2 (openForAppend w.dataOpens paths.1 d)
    ok := w.dataOpens && w.logOpens }

/-! ## The free pair -/

/-- Neither name is taken. -/
def Free (taken : Path → Bool) (pair : Path × Path) : Prop :=
  taken pair.1 = false ∧ taken pair.2 = false

def suffixedPair (base : Path × Path) (suffix : Option Nat) : Path × Path :=
  (addSuffix base.1 suffix, addSuffix base.2 suffix)

theorem resolveLoop_free {taken : Path → Bool} {base pair : Path × Path} {is : List Nat}
    (h : Free taken pair ∨ ∃ i ∈ is, Free taken (suffixedPair base (some i))) :
    Free taken (resolveLoop taken base.1 base.2 is pair) := by
  induction is generalizing pair with
  | nil =>
    rcases h with h | ⟨i, hi, -⟩
    · exact h
    · cases hi
  | cons i is ih =>
    rw [resolveLoop]
    split
    · next hfree =>
      simpa [Free] using hfree
    · next hfree =>
      apply ih
      rcases h with h | ⟨j, hj, hfreej⟩
      · exact absurd (by simpa [Free] using h) hfree
      · rcases List.mem_cons.mp hj with rfl | hj
        · exact .inl hfreej
        · exact .inr ⟨j, hj, hfreej⟩

theorem resolveUniquePaths_free {taken : Path → Bool} {base : Path × Path} {suffix : Option Nat}
    (hsuffix : suffix ∈ suffixes) (hfree : Free taken (suffixedPair base suffix)) :
    Free taken (resolveUniquePaths taken base.1 base.2) := by
  apply resolveLoop_free
  rcases List.mem_cons.mp hsuffix with rfl | hsuffix
  · exact .inl hfree
  · obtain ⟨i, hi, rfl⟩ := List.mem_map.mp hsuffix
    exact .inr ⟨i, hi, hfree⟩

theorem resolveLoop_suffixed {taken : Path → Bool} {base pair : Path × Path} {is : List Nat}
    (h : ∃ suffix ∈ suffixes, pair = suffixedPair base suffix) (his : ∀ i ∈ is, i < 1000) :
    ∃ suffix ∈ suffixes, resolveLoop taken base.1 base.2 is pair = suffixedPair base suffix := by
  induction is generalizing pair with
  | nil => exact h
  | cons i is ih =>
    rw [resolveLoop]
    split
    · exact h
    · refine ih ⟨some i, ?_, rfl⟩ fun j hj => his j (List.mem_cons_of_mem _ hj)
      have hi := his i (List.mem_cons_self ..)
      exact List.mem_cons_of_mem _ (List.mem_map.mpr ⟨i, List.mem_range.mpr hi, rfl⟩)

theorem resolveUniquePaths_suffixed (taken : Path → Bool) (base : Path × Path) :
    ∃ suffix ∈ suffixes, resolveUniquePaths taken base.1 base.2 = suffixedPair base suffix :=
  resolveLoop_suffixed ⟨none, List.mem_cons_self, rfl⟩ fun _ hi => List.mem_range.mp hi

theorem addSuffix_filePath {name : Text} (h : isAbsolute name = false) (hne : name ≠ [])
    (suffix : Option Nat) :
    addSuffix (filePath name) suffix = filePath (addSuffix name suffix) := by
  cases suffix with
  | none => rfl
  | some i =>
    have habsolute : isAbsolute (name ++ number i) = false := by
      obtain ⟨c, rest, rfl⟩ := List.exists_cons_of_ne_nil hne
      exact h
    have hslash : dataFolderPath = [] ∨ dataFolderPath.getLast? = some '/' := by decide +kernel
    simp only [addSuffix, filePath, append, h, habsolute, if_pos hslash, Bool.false_eq_true,
      if_false, List.append_assoc]

/-- The paths that a rotation opens. -/
def openedPaths (w : World) (s : FileSink) (d : Disk) : Path × Path :=
  ((rotateFiles w s d).sink.currentWorkingFilePath, (rotateFiles w s d).sink.currentWorkingLogPath)

theorem openedPaths_eq (w : World) (s : FileSink) (d : Disk) :
    openedPaths w s d = resolveUniquePaths (existsAt (rotateFiles w s d).left)
      (makeBasePaths w.stamp).1 (makeBasePaths w.stamp).2 := by
  simp only [openedPaths, rotateFiles]

/-- The pair that a rotation opens: a data file and a log file of one stamp and suffix. -/
theorem opened_sinkFiles (w : World) (s : FileSink) (d : Disk)
    (hstamp : w.stamp.all isStamp = true) :
    ∃ data log : SinkFile, data.kind = .data ∧ log.kind = .log ∧ data.suffix = log.suffix ∧
      openedPaths w s d = (filePath data.name, filePath log.name) := by
  obtain ⟨suffix, hsuffix, hpair⟩ := resolveUniquePaths_suffixed (existsAt (rotateFiles w s d).left)
    (makeBasePaths w.stamp)
  have hname : ∀ kind : Kind, addSuffix (filePath (kind.head ++ createFileName w.stamp)) suffix =
      filePath (addSuffix (kind.head ++ createFileName w.stamp) suffix) := by
    intro kind
    cases kind <;> exact addSuffix_filePath rfl (List.cons_ne_nil _ _) suffix
  refine ⟨⟨.data, w.stamp, suffix, hstamp, hsuffix⟩, ⟨.log, w.stamp, suffix, hstamp, hsuffix⟩,
    rfl, rfl, rfl, ?_⟩
  rw [openedPaths_eq, hpair]
  exact Prod.ext (hname .data) (hname .log)

/-! ## The collected files -/

theorem dot_notMem_digits (i : Nat) : '.' ∉ Nat.toDigits 10 i := by
  intro hmem
  exact absurd (Nat.isDigit_of_mem_toDigits (by decide) (by decide) hmem) (by decide)

theorem extension_unsuffixed (kind : Kind) (stamp : Text) :
    extension (kind.head ++ createFileName stamp) = ['.', 'd', 'a', 't'] := by
  have hne : kind.head ++ stamp ≠ [] := by cases kind <;> exact List.cons_ne_nil _ _
  rw [createFileName, ← List.append_assoc]
  refine extension_append hne (by decide) ?_
  intro h
  have hlength := congrArg List.length h
  simp at hlength
  omega

theorem extension_suffixed (kind : Kind) (stamp : Text) (i : Nat) :
    extension (kind.head ++ createFileName stamp ++ number i) = number i := by
  have hne : kind.head ++ createFileName stamp ≠ [] := by cases kind <;> exact List.cons_ne_nil _ _
  refine extension_append hne (dot_notMem_digits i) ?_
  intro h
  have hlength := congrArg List.length h
  simp [createFileName] at hlength
  omega

/-- The number hides the file from the collection. -/
theorem extension_name_iff (f : SinkFile) :
    extension f.name = ['.', 'd', 'a', 't'] ↔ f.suffix = none := by
  rw [SinkFile.name]
  cases hsuffix : f.suffix with
  | none => exact iff_of_true (extension_unsuffixed _ _) rfl
  | some i =>
    refine iff_of_false ?_ (by simp)
    rw [addSuffix, extension_suffixed]
    intro h
    have hmem : 'd' ∈ Nat.toDigits 10 i := by
      rw [(List.cons.inj h).2]
      exact List.mem_cons_self
    exact absurd (Nat.isDigit_of_mem_toDigits (by decide) (by decide) hmem) (by decide)

/-! ## The removed files -/

/-- Old, and not to be removed. -/
def Fails (remove : Text → Bool) (d : Disk) (s : FileSink) (fileName : Text) : Prop :=
  IsOld d s fileName ∧ remove fileName = false

instance (remove : Text → Bool) (d : Disk) (s : FileSink) (fileName : Text) :
    Decidable (Fails remove d s fileName) := inferInstanceAs (Decidable (_ ∧ _))

theorem removeOldFile_of_failed (remove : Text → Bool) (d : Disk) (s : FileSink)
    (removed : List Text) (fileName : Text) :
    removeOldFile remove d s ⟨false, removed⟩ fileName = ⟨false, removed⟩ := by
  rw [removeOldFile]
  split
  · rfl
  · split
    · rfl
    · rw [if_neg (by simp)]

theorem removeOldFile_of_ok (remove : Text → Bool) (d : Disk) (s : FileSink)
    (removed : List Text) (fileName : Text) :
    removeOldFile remove d s ⟨true, removed⟩ fileName =
      if Fails remove d s fileName then ⟨false, removed⟩
      else ⟨true, removed ++ [fileName].filter (IsOld d s)⟩ := by
  rw [removeOldFile, List.filter_singleton]
  by_cases hcurrent : IsCurrent s (filePath fileName)
  · simp [hcurrent, Fails, IsOld]
  · rw [if_neg hcurrent]
    cases hage : ageOf d fileName with
    | none => simp [Fails, IsOld, hage]
    | some age =>
      by_cases hold : age > s.m_logrotate_period <;> cases hremove : remove fileName <;>
        simp [Fails, IsOld, hage, hold, hcurrent, hremove]

/-- The removal ends at the first failure. -/
theorem removed_eq (remove : Text → Bool) (d : Disk) (s : FileSink) :
    (removeOldFiles remove d s).removed =
      (s.m_filename_list.takeWhile fun name => ¬ Fails remove d s name).filter (IsOld d s) := by
  have hfailed : ∀ names removed : List Text,
      names.foldl (removeOldFile remove d s) ⟨false, removed⟩ = ⟨false, removed⟩ := by
    intro names removed
    induction names with
    | nil => rfl
    | cons name names ih => rw [List.foldl_cons, removeOldFile_of_failed, ih]
  have hfold : ∀ names removed : List Text,
      (names.foldl (removeOldFile remove d s) ⟨true, removed⟩).removed =
        removed ++ (names.takeWhile fun name => ¬ Fails remove d s name).filter (IsOld d s) := by
    intro names
    induction names with
    | nil => exact fun removed => (List.append_nil removed).symm
    | cons name names ih =>
      intro removed
      rw [List.foldl_cons, removeOldFile_of_ok]
      by_cases hfails : Fails remove d s name
      · rw [if_pos hfails, hfailed, List.takeWhile_cons_of_neg (by simpa using hfails)]
        exact (List.append_nil removed).symm
      · rw [if_neg hfails, ih, List.takeWhile_cons_of_pos (by simpa using hfails),
          List.append_assoc, ← List.filter_append]
        rfl
  exact hfold s.m_filename_list []

theorem mem_takeWhile_iff {α : Type} [DecidableEq α] {p : α → Bool} {x : α} {xs : List α} :
    x ∈ xs.takeWhile p ↔ x ∈ xs ∧ p x = true ∧ ∀ y ∈ xs.takeWhile (· ≠ x), p y = true := by
  induction xs with
  | nil => simp
  | cons y xs ih =>
    by_cases hy : y = x
    · subst hy
      cases hp : p y <;> simp [hp]
    · have hne : x ≠ y := fun h => hy h.symm
      cases hp : p y with
      | false => simp [hp, hy]
      | true => simp [hp, hy, hne, ih]

/-! ## The property -/

/-- The two lines of the config file; where there is no line, the path that the sink has. -/
def namedPaths (d : Disk) (s : FileSink) : Path × Path :=
  match d.configFile.bind Texts.getline with
  | none => (s.currentWorkingFilePath, s.currentWorkingLogPath)
  | some (line, rest) =>
    (line, (Texts.getline rest).elim s.currentWorkingLogPath Prod.fst)

/-- The sink after it has read the config file. -/
theorem readConfigFile_sink (d : Disk) (s : FileSink) :
    (readConfigFile d s).2 = { s with
      currentWorkingFilePath := (namedPaths d s).1
      currentWorkingLogPath := (namedPaths d s).2
      m_filename_list := dataFiles d } := by
  simp only [readConfigFile, namedPaths]
  cases hconfig : d.configFile with
  | none => rfl
  | some text =>
    by_cases hempty : text = []
    · subst hempty
      rfl
    · simp only [if_neg hempty, readPaths, Option.bind_some]
      cases hfirst : Texts.getline text with
      | none => rfl
      | some first =>
        cases hsecond : Texts.getline first.2 with
        | none => simp [hsecond]
        | some second => simp [hsecond]

/-- A regular file of the folder, older than the rotation period. -/
def OldFile (d : Disk) (s : FileSink) (name : Text) : Prop :=
  (∃ entry ∈ d.dataFolder, entry.isRegular = true ∧ entry.name = name) ∧
    ∃ age ∈ ageOf d name, age > s.m_logrotate_period

structure Lawful (w : World) (s : FileSink) (d : Disk) : Prop where
  /-- Where a pair of names is free, so is the pair that is opened. -/
  fresh : (∃ suffix ∈ suffixes, Free (existsAt (rotateFiles w s d).left)
      (suffixedPair (makeBasePaths w.stamp) suffix)) →
    Free (existsAt (rotateFiles w s d).left) (openedPaths w s d)
  /-- Of the old files of the sink that can be removed all are, except the current pair. -/
  retained : ∀ f : SinkFile, OldFile d s f.name → w.remove f.name = true →
    (f.name ∈ (rotateFiles w s d).removal.removed ↔ ¬ IsCurrent s (filePath f.name))

/-- One of the two paths in the config file. -/
def Named (d : Disk) (s : FileSink) (p : Path) : Prop :=
  Same p (namedPaths d s).1 ∨ Same p (namedPaths d s).2

/-- An old file that is collected before this one cannot be removed. -/
def BehindFailure (w : World) (s : FileSink) (d : Disk) (name : Text) : Prop :=
  ∃ other ∈ (dataFiles d).takeWhile (· ≠ name), ¬ Named d s (filePath other) ∧
    OldFile d s other ∧ w.remove other = false

/-- What the three loops ask of a file that is to be removed. -/
structure Reached (w : World) (s : FileSink) (d : Disk) (f : SinkFile) : Prop where
  unsuffixed : f.suffix = none
  unnamed : ¬ Named d s (filePath f.name)
  ahead : ¬ BehindFailure w s d f.name

theorem mem_dataFiles {d : Disk} {name : Text} :
    name ∈ dataFiles d ↔ (∃ entry ∈ d.dataFolder, entry.isRegular = true ∧ entry.name = name) ∧
      extension name = ['.', 'd', 'a', 't'] := by
  simp only [dataFiles, List.mem_map, List.mem_filter, Bool.and_eq_true, decide_eq_true_eq]
  constructor
  · rintro ⟨entry, ⟨hmem, hregular, hext⟩, rfl⟩
    exact ⟨⟨entry, hmem, hregular, rfl⟩, hext⟩
  · rintro ⟨⟨entry, hmem, hregular, rfl⟩, hext⟩
    exact ⟨entry, ⟨hmem, hregular, hext⟩, rfl⟩

theorem isOld_read_iff {d : Disk} {s : FileSink} {name : Text} :
    IsOld d (readConfigFile d s).2 name ↔ ¬ Named d s (filePath name) ∧
      ∃ age ∈ ageOf d name, age > s.m_logrotate_period := by
  rw [IsOld, IsCurrent, readConfigFile_sink]
  exact Iff.rfl

theorem fails_read_iff {w : World} {d : Disk} {s : FileSink} {name : Text}
    (hname : name ∈ dataFiles d) :
    Fails w.remove d (readConfigFile d s).2 name ↔
      ¬ Named d s (filePath name) ∧ OldFile d s name ∧ w.remove name = false := by
  rw [Fails, isOld_read_iff, OldFile, and_assoc]
  have hentry := (mem_dataFiles.mp hname).1
  tauto

/-- What a rotation removes of the old files of the sink. -/
theorem mem_removed_iff {w : World} {s : FileSink} {d : Disk} {f : SinkFile}
    (hold : OldFile d s f.name) (hremove : w.remove f.name = true) :
    f.name ∈ (rotateFiles w s d).removal.removed ↔ Reached w s d f := by
  have hremoved : (rotateFiles w s d).removal.removed =
      ((dataFiles d).takeWhile fun name => ¬ Fails w.remove d (readConfigFile d s).2 name).filter
        (IsOld d (readConfigFile d s).2) := by
    rw [rotateFiles, removed_eq, readConfigFile_sink]
  have hahead : (∀ other ∈ (dataFiles d).takeWhile (· ≠ f.name),
      ¬ Fails w.remove d (readConfigFile d s).2 other) ↔ ¬ BehindFailure w s d f.name := by
    rw [BehindFailure]
    constructor
    · rintro h ⟨other, hother, hfails⟩
      exact h other hother ((fails_read_iff (List.takeWhile_subset _ hother)).mpr hfails)
    · intro h other hother hfails
      exact h ⟨other, hother, (fails_read_iff (List.takeWhile_subset _ hother)).mp hfails⟩
  have hself : ¬ Fails w.remove d (readConfigFile d s).2 f.name := by
    rintro ⟨-, hfalse⟩
    rw [hremove] at hfalse
    cases hfalse
  rw [hremoved, List.mem_filter, mem_takeWhile_iff, mem_dataFiles, extension_name_iff]
  simp only [decide_eq_true_eq, isOld_read_iff, hself, not_false_eq_true, true_and, hahead]
  constructor
  · rintro ⟨⟨⟨-, hsuffix⟩, hahead⟩, hnamed, -⟩
    exact ⟨hsuffix, hnamed, hahead⟩
  · rintro ⟨hsuffix, hnamed, hahead⟩
    exact ⟨⟨⟨hold.1, hsuffix⟩, hahead⟩, hnamed, hold.2⟩

theorem opened_free (w : World) (s : FileSink) (d : Disk)
    (h : ∃ suffix ∈ suffixes, Free (existsAt (rotateFiles w s d).left)
      (suffixedPair (makeBasePaths w.stamp) suffix)) :
    Free (existsAt (rotateFiles w s d).left) (openedPaths w s d) := by
  obtain ⟨suffix, hsuffix, hfree⟩ := h
  rw [openedPaths_eq]
  exact resolveUniquePaths_free hsuffix hfree

/-- **The files that are kept too long, and those that are not.** A rotation always opens a
free pair if there is one; it removes what is old exactly where the loops agree. -/
theorem rotation_lawful_iff (w : World) (s : FileSink) (d : Disk) :
    Lawful w s d ↔ ∀ f : SinkFile, OldFile d s f.name → w.remove f.name = true →
      (Reached w s d f ↔ ¬ IsCurrent s (filePath f.name)) := by
  constructor
  · intro h f hold hremove
    rw [← mem_removed_iff hold hremove]
    exact h.retained f hold hremove
  · intro h
    refine ⟨opened_free w s d, ?_⟩
    intro f hold hremove
    rw [mem_removed_iff hold hremove]
    exact h f hold hremove

/-- The second data file of a second, eight days old. -/
def secondFile : SinkFile :=
  ⟨.data, "2026-01-01_11-11-11".toList, some 0, by decide +kernel, by decide +kernel⟩

/-- It is not collected, and stays. -/
theorem suffixed_file_kept :
    ¬ Lawful { stamp := "2026-01-09_11-11-11".toList, remove := fun _ => true } {}
      { dataFolder := [{ name := secondFile.name, isRegular := true, age := some 691200 }] } := by
  intro h
  have hold : OldFile
      { dataFolder := [{ name := secondFile.name, isRegular := true, age := some 691200 }] } {}
      secondFile.name :=
    ⟨⟨_, List.mem_cons_self, rfl, rfl⟩, 691200, by decide +kernel, by decide⟩
  have hremoved := (h.retained secondFile hold rfl).mpr (by decide +kernel)
  have hreached := (mem_removed_iff hold rfl).mp hremoved
  exact absurd hreached.unsuffixed (by decide)

end MuonDetector.Sinks.Rotation
