import MuonDetector.Library.Paths

/-!
# The current files

The sink keeps the paths of the two files that it writes in a file of its own. They are
written as paths, which puts them in quotation marks, and read back as plain lines. The
rotation compares what it has read with the files that it finds.
-/

namespace MuonDetector.Sinks.WorkingFiles

open MuonDetector.Library MuonDetector.Library.Paths

abbrev Text := List Char

def dataFolderPath : Path := "/var/muondetector//data/".toList

/-- A file of the data folder, with its age in seconds where it can be read. -/
structure Entry where
  name : Text
  isRegular : Bool
  age : Option Int
  deriving DecidableEq, Repr

/-- The data folder, and the text of the config file if it can be opened. -/
structure Disk where
  dataFolder : List Entry := []
  configFile : Option Text := none
  deriving DecidableEq, Repr

structure FileSink where
  currentWorkingFilePath : Path := []
  currentWorkingLogPath : Path := []
  m_filename_list : List Text := []
  m_logrotate_period : Int := 7 * 24 * 3600
  deriving DecidableEq, Repr

/-- The path as the stream insertion writes it, on a line. -/
def pathLine (p : Path) : Text := Texts.quoted p ++ ['\n']

/-- With its answer. `opened` tells if the file can be opened, which truncates it. -/
def writeConfigFile (opened : Bool) (s : FileSink) (d : Disk) : Bool × Disk :=
  if opened then
    let text := pathLine s.currentWorkingFilePath ++ pathLine s.currentWorkingLogPath
    (true, { d with configFile := some text })
  else (false, d)

def dataFiles (d : Disk) : List Text :=
  (d.dataFolder.filter fun entry =>
    entry.isRegular && decide (extension entry.name = ['.', 'd', 'a', 't'])).map (·.name)

/-- The two lines, each of which is left as it was when there is none. -/
def readPaths (text : Text) (s : FileSink) : FileSink :=
  match Texts.getline text with
  | none => s
  | some (line, rest) =>
    let s := { s with currentWorkingFilePath := line }
    match Texts.getline rest with
    | none => s
    | some (line, _) => { s with currentWorkingLogPath := line }

def readConfigFile (d : Disk) (s : FileSink) : Bool × FileSink :=
  let s := { s with m_filename_list := dataFiles d }
  match d.configFile with
  | none => (false, s)
  | some text => if text = [] then (true, s) else (true, readPaths text s)

/-! ## What the rotation removes -/

def filePath (fileName : Text) : Path := append dataFolderPath fileName

def IsCurrent (s : FileSink) (p : Path) : Prop :=
  Same p s.currentWorkingFilePath ∨ Same p s.currentWorkingLogPath

instance (s : FileSink) (p : Path) : Decidable (IsCurrent s p) :=
  inferInstanceAs (Decidable (_ ∨ _))

/-- The age of a file of the data folder. -/
def ageOf (d : Disk) (fileName : Text) : Option Int :=
  (d.dataFolder.find? fun entry => entry.name = fileName).bind (·.age)

/-- The answer of `removeOldFiles`, and the files that it has removed. -/
structure Removal where
  ok : Bool := true
  removed : List Text := []
  deriving DecidableEq, Repr

/-- One file. `remove` answers for each file if it could be removed. -/
def removeOldFile (remove : Text → Bool) (d : Disk) (s : FileSink) (r : Removal) (fileName : Text) :
    Removal :=
  if IsCurrent s (filePath fileName) then r
  else match ageOf d fileName with
    | none => r
    | some age =>
      if age > s.m_logrotate_period ∧ r.ok then
        if remove fileName then { r with removed := r.removed ++ [fileName] }
        else { r with ok := false }
      else r

def removeOldFiles (remove : Text → Bool) (d : Disk) (s : FileSink) : Removal :=
  s.m_filename_list.foldl (removeOldFile remove d s) {}

/-- Older than the rotation period and none of the two current files. -/
def IsOld (d : Disk) (s : FileSink) (fileName : Text) : Prop :=
  ¬ IsCurrent s (filePath fileName) ∧ ∃ age ∈ ageOf d fileName, age > s.m_logrotate_period

instance (d : Disk) (s : FileSink) (fileName : Text) : Decidable (IsOld d s fileName) :=
  inferInstanceAs (Decidable (_ ∧ _))

theorem removeOldFile_eq (d : Disk) (s : FileSink) (removed : List Text) (fileName : Text) :
    removeOldFile (fun _ => true) d s ⟨true, removed⟩ fileName =
      ⟨true, removed ++ [fileName].filter (IsOld d s)⟩ := by
  rw [removeOldFile, List.filter_singleton]
  by_cases hcurrent : IsCurrent s (filePath fileName)
  · simp [hcurrent, IsOld]
  · rw [if_neg hcurrent]
    cases hage : ageOf d fileName with
    | none => simp [IsOld, hage]
    | some age =>
      by_cases hold : age > s.m_logrotate_period <;> simp [IsOld, hage, hold, hcurrent]

/-- Where no removal fails the old files are removed, and no others. -/
theorem removeOldFiles_eq (d : Disk) (s : FileSink) :
    removeOldFiles (fun _ => true) d s = ⟨true, s.m_filename_list.filter (IsOld d s)⟩ := by
  have hfold : ∀ names removed : List Text,
      names.foldl (removeOldFile (fun _ => true) d s) ⟨true, removed⟩ =
        ⟨true, removed ++ names.filter (IsOld d s)⟩ := by
    intro names
    induction names with
    | nil =>
      intro removed
      rw [List.filter_nil, List.append_nil]
      rfl
    | cons name names ih =>
      intro removed
      rw [List.foldl_cons, removeOldFile_eq, ih, List.append_assoc, ← List.filter_append]
      rfl
  exact hfold s.m_filename_list []

/-! ## The round trip -/

theorem newline_notMem_quoted {p : Path} (h : '\n' ∉ p) : '\n' ∉ Texts.quoted p :=
  Texts.notMem_quoted (by decide) (by decide) h

/-- The lines come back with their quotation marks. -/
theorem read_written {s : FileSink} (t : FileSink) (d : Disk)
    (hdata : '\n' ∉ s.currentWorkingFilePath) (hlog : '\n' ∉ s.currentWorkingLogPath) :
    readConfigFile (writeConfigFile true s d).2 t =
      (true, { t with
        currentWorkingFilePath := Texts.quoted s.currentWorkingFilePath
        currentWorkingLogPath := Texts.quoted s.currentWorkingLogPath
        m_filename_list := dataFiles d }) := by
  have hfirst : Texts.getline
      (pathLine s.currentWorkingFilePath ++ pathLine s.currentWorkingLogPath) =
      some (Texts.quoted s.currentWorkingFilePath, pathLine s.currentWorkingLogPath) := by
    rw [pathLine, List.append_assoc]
    exact Texts.getline_line (newline_notMem_quoted hdata) _
  have hsecond : Texts.getline (pathLine s.currentWorkingLogPath) =
      some (Texts.quoted s.currentWorkingLogPath, []) :=
    Texts.getline_line (newline_notMem_quoted hlog) []
  have hne : pathLine s.currentWorkingFilePath ++ pathLine s.currentWorkingLogPath ≠ [] := by
    simp [pathLine]
  simp only [writeConfigFile, if_true, readConfigFile, if_neg hne, readPaths, hfirst, hsecond]
  rfl

/-- A path in quotation marks is another path. -/
theorem not_same_quoted (p : Path) : ¬ Same (Texts.quoted p) p := by
  intro h
  have hcount := h.count (c := '"') (by decide)
  rw [Texts.count_quoted] at hcount
  omega

theorem isAbsolute_quoted (p : Path) : isAbsolute (Texts.quoted p) = false := rfl

theorem isAbsolute_filePath (fileName : Text) : isAbsolute (filePath fileName) = true :=
  isAbsolute_append (by decide) fileName

theorem nothing_current {s r : FileSink}
    (hdata : r.currentWorkingFilePath = Texts.quoted s.currentWorkingFilePath)
    (hlog : r.currentWorkingLogPath = Texts.quoted s.currentWorkingLogPath) (fileName : Text) :
    ¬ IsCurrent r (filePath fileName) := by
  have hrelative : ∀ p, ¬ Same (filePath fileName) (Texts.quoted p) := by
    intro p hsame
    have habsolute := hsame.1
    rw [isAbsolute_filePath, isAbsolute_quoted] at habsolute
    cases habsolute
  rw [IsCurrent, hdata, hlog, not_or]
  exact ⟨hrelative _, hrelative _⟩

/-- **Neither path is restored, and no file of the data folder is taken for a current one.** -/
theorem paths_never_restored {s : FileSink} (t : FileSink) (d : Disk)
    (hdata : '\n' ∉ s.currentWorkingFilePath) (hlog : '\n' ∉ s.currentWorkingLogPath) :
    let r := (readConfigFile (writeConfigFile true s d).2 t).2
    ¬ Same r.currentWorkingFilePath s.currentWorkingFilePath ∧
      ¬ Same r.currentWorkingLogPath s.currentWorkingLogPath ∧
      ∀ fileName, ¬ IsCurrent r (filePath fileName) := by
  rw [read_written t d hdata hlog]
  exact ⟨not_same_quoted _, not_same_quoted _, nothing_current rfl rfl⟩

/-- A sink that writes the files of one name. -/
def writing (name : String) : FileSink where
  currentWorkingFilePath := filePath ("data_" ++ name).toList
  currentWorkingLogPath := filePath ("log_" ++ name).toList

theorem paths_never_restored_started :
    let r := (readConfigFile (writeConfigFile true (writing "2026.dat") {}).2 {}).2
    ¬ Same r.currentWorkingFilePath (filePath "data_2026.dat".toList) ∧
      ¬ Same r.currentWorkingLogPath (filePath "log_2026.dat".toList) ∧
      ∀ fileName, ¬ IsCurrent r (filePath fileName) :=
  @paths_never_restored (writing "2026.dat") {} {} (by decide +kernel) (by decide +kernel)

theorem quoted_path_restored :
    let r := (readConfigFile (writeConfigFile true (writing "2026.dat") {}).2 {}).2
    r.currentWorkingFilePath = "\"/var/muondetector//data/data_2026.dat\"".toList ∧
      r.currentWorkingFilePath ≠ (writing "2026.dat").currentWorkingFilePath := by
  decide +kernel

/-- After the round trip the age alone decides what is removed. -/
theorem removed_by_age {s : FileSink} (t : FileSink) (d : Disk)
    (hdata : '\n' ∉ s.currentWorkingFilePath) (hlog : '\n' ∉ s.currentWorkingLogPath) :
    let d' := (writeConfigFile true s d).2
    removeOldFiles (fun _ => true) d' (readConfigFile d' t).2 =
      ⟨true, (dataFiles d).filter fun fileName =>
        ∃ age ∈ ageOf d fileName, age > t.m_logrotate_period⟩ := by
  simp only
  rw [read_written t d hdata hlog, removeOldFiles_eq]
  refine congrArg (Removal.mk true) (List.filter_congr fun fileName _ => ?_)
  exact decide_eq_decide.mpr (and_iff_right (@nothing_current s _ rfl rfl fileName))

end MuonDetector.Sinks.WorkingFiles
