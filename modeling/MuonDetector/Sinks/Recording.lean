import MuonDetector.Capnp.GnssCodecs
import MuonDetector.Library.Journal
import MuonDetector.Library.Machine
import MuonDetector.Sinks.DataLines
import MuonDetector.Sinks.Rotation

/-!
# What the sink records

The sink writes time marks to its data file and log messages to its log file, and begins a new
pair of files when one of the two is large, once a day, and with the daemon. What it was handed
while the file was open is in these files, each once and in order, in a form that can be read
back. A write can fail: then anything may be at the end of the file, and the stream, which
nobody looks at, inserts nothing more until the next pair of files.
-/

namespace MuonDetector.Sinks.Recording

open MuonDetector.Capnp.GnssCodecs (LogInfoStruct)
open MuonDetector.Library MuonDetector.Library.Journal MuonDetector.Library.Paths
open MuonDetector.Library.Texts (linesText)
open MuonDetector.Sinks.DataLines MuonDetector.Sinks.Rotation MuonDetector.Sinks.WorkingFiles
open MuonDetector.Ublox.Events (UbxTimeMarkStruct)

/-! ## The sink with its files -/

/-- An open stream, which is good as long as none of its writes has failed. -/
structure Stream where
  path : Path
  good : Bool := true

/-- The sink with its two streams, the data folder with the texts of its files, what was
published last, and what was written to the files without a failure. Times are in
nanoseconds. -/
structure Recorder where
  sink : FileSink := {}
  dataFile : Option Stream := none
  logFile : Option Stream := none
  m_fileSizeMB : UInt32 := 500
  nextRotationTime : Int := 0
  disk : Disk
  contents : Path → Text
  info : Option LogInfoStruct := none
  marks : List UbxTimeMarkStruct := []
  messages : List Text := []

/-- What the clocks and the file system answer while a pair of files is begun. -/
structure Turn where
  world : World
  /-- The ages of the files in the data folder. -/
  age : Text → Option Int := fun _ => none
  now : Int := 0
  logAge : Int64 := 0
  /-- What stays of the header of the data file if its write fails, of that of the log file, and
  of the config file. -/
  dataFailed : Option Text := none
  logFailed : Option Text := none
  configFailed : Option Text := none
  /-- What a stream that has failed still brings to its file when it is closed. -/
  dataLeft : Text := []
  logLeft : Text := []

def day : Int := 86400 * 10 ^ 9

/-- 11 h, 11 min, 11 s. -/
def dailyUploadTime : Int := 40271 * 10 ^ 9

def generateNextDailyTime (offset now : Int) : Int :=
  let candidate := now / day * day + offset
  if candidate ≤ now then candidate + day else candidate

def fileSize (s : Recorder) (p : Path) : Nat := (String.ofList (s.contents p)).utf8ByteSize

def pathBytes (p : Path) : List UInt8 := (String.ofList p).toUTF8.data.toList

/-- `getInfoUnlocked`. The size of a file that does not exist is zero. -/
def getInfo (logAge : Int64) (s : Recorder) : LogInfoStruct where
  logFileName := pathBytes s.sink.currentWorkingLogPath
  dataFileName := pathBytes s.sink.currentWorkingFilePath
  status :=
    if existsAt s.disk s.sink.currentWorkingFilePath && s.dataFile.isSome &&
      existsAt s.disk s.sink.currentWorkingLogPath && s.logFile.isSome then 1 else 0
  logFileSize := .ofNat (fileSize s s.sink.currentWorkingLogPath)
  dataFileSize := .ofNat (fileSize s s.sink.currentWorkingFilePath)
  logAge := if s.dataFile.isSome then logAge else -1
  logRotationDuration := Int64.ofInt s.sink.m_logrotate_period

/-- The streams are flushed, so that the files have what was written; a write that fails does so
here at the latest. -/
def publishInfo (logAge : Int64) (s : Recorder) : Recorder :=
  { s with info := some (getInfo logAge s) }

def appendTo (p : Path) (text : Text) (contents : Path → Text) : Path → Text :=
  Function.update contents p (contents p ++ text)

/-- `failed` is what the file gets of the line if the write fails. -/
def writeToDataFile (tm : UbxTimeMarkStruct) (failed : Option Text) (logAge : Int64)
    (s : Recorder) : Recorder :=
  match s.dataFile with
  | none => s
  | some ⟨_, false⟩ => publishInfo logAge s
  | some ⟨p, true⟩ => publishInfo logAge { s with
      dataFile := some ⟨p, failed.isNone⟩
      contents := appendTo p (failed.getD (linesText [timeMarkText tm])) s.contents
      marks := if failed.isNone then s.marks ++ [tm] else s.marks }

def writeToLogFile (msg : Text) (failed : Option Text) (logAge : Int64) (s : Recorder) : Recorder :=
  match s.logFile with
  | none => s
  | some ⟨_, false⟩ => publishInfo logAge s
  | some ⟨p, true⟩ => publishInfo logAge { s with
      logFile := some ⟨p, failed.isNone⟩
      contents := appendTo p (failed.getD (linesText [msg])) s.contents
      messages := if failed.isNone then s.messages ++ [msg] else s.messages }

/-- What a stream could not write is written once more when it is closed. -/
def leaving (file : Option Stream) (left : Text) (contents : Path → Text) : Path → Text :=
  match file with
  | some ⟨p, false⟩ => appendTo p left contents
  | _ => contents

def leavingData (t : Turn) (s : Recorder) : Recorder :=
  { s with contents := leaving s.dataFile t.dataLeft s.contents }

def leavingLog (t : Turn) (s : Recorder) : Recorder :=
  { s with contents := leaving s.logFile t.logLeft s.contents }

def closeFiles (t : Turn) (s : Recorder) : Recorder :=
  { leavingLog t (leavingData t s) with dataFile := none, logFile := none }

/-- The pair of paths that `makeBasePaths` and `resolveUniquePaths` find. -/
def newPaths (t : Turn) (d : Disk) : Path × Path :=
  resolveUniquePaths (existsAt d) (makeBasePaths t.world.stamp).1 (makeBasePaths t.world.stamp).2

/-- The config file if its write fails. -/
def cutConfigFile (failed : Option Text) (d : Disk) : Disk :=
  { d with configFile := failed <|> d.configFile }

/-- The sink with its new paths, which it writes to the config file. -/
def choosePaths (t : Turn) (s : Recorder) : Recorder :=
  let sink := { s.sink with
    currentWorkingFilePath := (newPaths t s.disk).1
    currentWorkingLogPath := (newPaths t s.disk).2 }
  let disk := (writeConfigFile t.world.configOpens sink s.disk).2
  { s with
    sink := sink
    -- what follows does not depend on whether it was written
    disk := if t.world.configOpens then cutConfigFile t.configFailed disk else disk }

def openFilesAtPaths (writeHeader : Bool) (t : Turn) (s : Recorder) : Recorder :=
  let data := s.sink.currentWorkingFilePath
  let log := s.sink.currentWorkingLogPath
  let s := closeFiles t s
  let s := { s with
    dataFile := if t.world.dataOpens then some { path := data } else none
    logFile := if t.world.logOpens then some { path := log } else none
    disk := openForAppend t.world.logOpens log (openForAppend t.world.dataOpens data s.disk) }
  if !t.world.dataOpens || !t.world.logOpens then s
  else
    let s := if writeHeader then { s with
        dataFile := some ⟨data, t.dataFailed.isNone⟩
        logFile := some ⟨log, t.logFailed.isNone⟩
        contents := appendTo log (t.logFailed.getD (linesText [logHeader]))
          (appendTo data (t.dataFailed.getD (linesText [dataHeader])) s.contents) }
      else s
    publishInfo t.logAge s

def openFiles (writeHeader : Bool) (t : Turn) (s : Recorder) : Recorder :=
  let s := { s with sink := (readConfigFile s.disk s.sink).2 }
  openFilesAtPaths writeHeader t (choosePaths t s)

/-- The files that are gone have no text. -/
def dropContents (d : Disk) (contents : Path → Text) : Path → Text :=
  fun p => if existsAt d p then contents p else []

def aged (age : Text → Option Int) (d : Disk) : Disk :=
  { d with dataFolder := d.dataFolder.map fun entry => { entry with age := age entry.name } }

/-- The data folder after `removeOldFiles`. -/
def cleared (t : Turn) (s : Recorder) : Recorder :=
  let disk := aged t.age s.disk
  let sink := (readConfigFile disk s.sink).2
  let left := removeFiles (removeOldFiles t.world.remove disk sink).removed disk
  { s with sink := sink, disk := left, contents := dropContents left s.contents }

def rotateFiles (t : Turn) (s : Recorder) : Recorder :=
  let s := cleared t (closeFiles t s)
  let s := { s with nextRotationTime := generateNextDailyTime dailyUploadTime t.now }
  openFilesAtPaths true t (choosePaths t s)

/-- 32 bits wide, as the product is. -/
def sizeLimit (s : Recorder) : UInt32 := 1024 * 1024 * s.m_fileSizeMB

/-- A file that does not exist has no size, which is an exception that is caught. -/
def rotateIfLarge (t : Turn) (p : Path) (s : Recorder) : Recorder :=
  if existsAt s.disk p ∧ fileSize s p > (sizeLimit s).toNat then rotateFiles t s else s

/-- What the clocks and the file system answer during `onRotationRemind`, if it rotates for the
size of the one file, for that of the other, and for the time. -/
structure Remind where
  first : Turn
  second : Turn
  third : Turn
  now : Int
  logAge : Int64

def afterData (r : Remind) (s : Recorder) : Recorder :=
  rotateIfLarge r.first s.sink.currentWorkingFilePath s

def afterLog (r : Remind) (s : Recorder) : Recorder :=
  rotateIfLarge r.second (afterData r s).sink.currentWorkingLogPath (afterData r s)

def onRotationRemind (r : Remind) (s : Recorder) : Recorder :=
  if r.now < (afterLog r s).nextRotationTime then publishInfo r.logAge (afterLog r s)
  else rotateFiles r.third (afterLog r s)

/-- The destructor of a sink and the members of the next one. -/
def newSink (t : Turn) (s : Recorder) : Recorder :=
  { closeFiles t s with
    sink := {}
    info := none
    nextRotationTime := generateNextDailyTime dailyUploadTime t.now }

/-- The constructor. -/
def construct (t : Turn) (s : Recorder) : Recorder := openFiles false t (newSink t s)

inductive Label where
  | timeMark (tm : UbxTimeMarkStruct) (failed : Option Text) (logAge : Int64)
  | fileLog (msg : Text) (failed : Option Text) (logAge : Int64)
  | rotationRemind (r : Remind)
  /-- The daemon ends and is started again. -/
  | restart (t : Turn)

def step (s : Recorder) : Label → Option Recorder
  | .timeMark tm failed logAge => some (writeToDataFile tm failed logAge s)
  | .fileLog msg failed logAge => some (writeToLogFile msg failed logAge s)
  | .rotationRemind r => some (onRotationRemind r s)
  | .restart t => some (construct t s)

theorem writeToDataFile_closed {s : Recorder} (h : s.dataFile = none) (tm : UbxTimeMarkStruct)
    (failed : Option Text) (logAge : Int64) : writeToDataFile tm failed logAge s = s := by
  rw [writeToDataFile, h]

/-- A stream that has failed inserts nothing. -/
theorem writeToDataFile_bad {s : Recorder} {p : Path} (h : s.dataFile = some ⟨p, false⟩)
    (tm : UbxTimeMarkStruct) (failed : Option Text) (logAge : Int64) :
    writeToDataFile tm failed logAge s = publishInfo logAge s := by
  rw [writeToDataFile, h]

theorem writeToDataFile_good {s : Recorder} {p : Path} (h : s.dataFile = some ⟨p, true⟩)
    (tm : UbxTimeMarkStruct) (failed : Option Text) (logAge : Int64) :
    writeToDataFile tm failed logAge s = publishInfo logAge { s with
      dataFile := some ⟨p, failed.isNone⟩
      contents := appendTo p (failed.getD (linesText [timeMarkText tm])) s.contents
      marks := if failed.isNone then s.marks ++ [tm] else s.marks } := by
  rw [writeToDataFile, h]

theorem writeToLogFile_closed {s : Recorder} (h : s.logFile = none) (msg : Text)
    (failed : Option Text) (logAge : Int64) : writeToLogFile msg failed logAge s = s := by
  rw [writeToLogFile, h]

theorem writeToLogFile_bad {s : Recorder} {p : Path} (h : s.logFile = some ⟨p, false⟩)
    (msg : Text) (failed : Option Text) (logAge : Int64) :
    writeToLogFile msg failed logAge s = publishInfo logAge s := by
  rw [writeToLogFile, h]

theorem writeToLogFile_good {s : Recorder} {p : Path} (h : s.logFile = some ⟨p, true⟩)
    (msg : Text) (failed : Option Text) (logAge : Int64) :
    writeToLogFile msg failed logAge s = publishInfo logAge { s with
      logFile := some ⟨p, failed.isNone⟩
      contents := appendTo p (failed.getD (linesText [msg])) s.contents
      messages := if failed.isNone then s.messages ++ [msg] else s.messages } := by
  rw [writeToLogFile, h]

/-! ## The names of the files -/

/-- A file of the sink's own. -/
def IsOf (kind : Kind) (p : Path) : Prop := ∃ f : SinkFile, f.kind = kind ∧ p = filePath f.name

theorem head_name (f : SinkFile) :
    f.name.head? = some (match f.kind with | .data => 'd' | .log => 'l') := by
  obtain ⟨kind, stamp, suffix, -, -⟩ := f
  cases kind <;> cases suffix <;> rfl

theorem filePath_name (f : SinkFile) : filePath f.name = dataFolderPath ++ f.name := by
  have hrelative : isAbsolute f.name = false := by
    rw [isAbsolute, head_name]
    cases f.kind <;> rfl
  have hslash : dataFolderPath = [] ∨ dataFolderPath.getLast? = some '/' := by decide +kernel
  rw [filePath, append, hrelative, if_neg (by simp), if_pos hslash]

/-- The two files of a pair are different files. -/
theorem IsOf.ne {p q : Path} (hp : IsOf .data p) (hq : IsOf .log q) : p ≠ q := by
  obtain ⟨f, hf, rfl⟩ := hp
  obtain ⟨g, hg, rfl⟩ := hq
  rw [filePath_name, filePath_name]
  intro h
  have hhead := congrArg List.head? (List.append_cancel_left h)
  rw [head_name, head_name, hf, hg] at hhead
  exact absurd hhead (by decide)

theorem slash_notMem_name (f : SinkFile) : '/' ∉ f.name := by
  obtain ⟨kind, stamp, suffix, hstamped, -⟩ := f
  have hstamp : '/' ∉ stamp := fun hmem =>
    absurd (List.all_eq_true.mp hstamped _ hmem) (by decide)
  have hhead : '/' ∉ kind.head := by cases kind <;> decide
  have hbase : '/' ∉ kind.head ++ createFileName stamp := by
    simp [createFileName, hhead, hstamp]
  cases suffix with
  | none => exact hbase
  | some i =>
    intro hmem
    rcases List.mem_append.mp hmem with hmem | hmem
    · exact hbase hmem
    · rcases List.mem_cons.mp hmem with hdot | hdigit
      · exact absurd hdot (by decide)
      · exact absurd (Decimals.isDigit_of_mem hdigit) (by decide)

/-- The path is found again from the name that it ends with. -/
theorem IsOf.filePath_filename {kind : Kind} {p : Path} (h : IsOf kind p) :
    filePath (filename p) = p := by
  obtain ⟨f, -, rfl⟩ := h
  have hall : ∀ c ∈ f.name.reverse, decide (c ≠ '/') = true := fun c hc =>
    decide_eq_true fun heq => slash_notMem_name f (heq ▸ List.mem_reverse.mp hc)
  have hfolder : dataFolderPath.reverse.takeWhile (· ≠ '/') = [] := by decide +kernel
  have hname : filename (filePath f.name) = f.name := by
    rw [filePath_name, filename, List.rtakeWhile, List.reverse_append,
      List.takeWhile_append_of_pos hall, hfolder, List.append_nil, List.reverse_reverse]
  rw [hname]

theorem isOf_newPaths {t : Turn} (hstamp : t.world.stamp.all isStamp = true) (d : Disk) :
    IsOf .data (newPaths t d).1 ∧ IsOf .log (newPaths t d).2 := by
  obtain ⟨suffix, hsuffix, hpair⟩ := resolveUniquePaths_suffixed (existsAt d)
    (makeBasePaths t.world.stamp)
  have hname : ∀ kind : Kind,
      addSuffix (filePath (kind.head ++ createFileName t.world.stamp)) suffix =
        filePath (addSuffix (kind.head ++ createFileName t.world.stamp) suffix) := by
    intro kind
    cases kind <;> exact addSuffix_filePath rfl (List.cons_ne_nil _ _) suffix
  rw [newPaths, hpair]
  exact ⟨⟨⟨.data, t.world.stamp, suffix, hstamp, hsuffix⟩, rfl, hname .data⟩,
    ⟨.log, t.world.stamp, suffix, hstamp, hsuffix⟩, rfl, hname .log⟩

/-! ## The data folder -/

theorem existsAt_openForAppend {kind : Kind} {p : Path} (hp : IsOf kind p) (opened : Bool)
    (d : Disk) (q : Path) :
    existsAt (openForAppend opened p d) q = (existsAt d q || (opened && decide (p = q))) := by
  rw [openForAppend]
  cases opened with
  | false => simp
  | true =>
    cases hexists : existsAt d p with
    | true =>
      by_cases hq : p = q
      · subst hq
        simp [hexists]
      · simp [hq]
    | false => simp [existsAt, hp.filePath_filename]

theorem existsAt_aged (age : Text → Option Int) (d : Disk) :
    existsAt (aged age d) = existsAt d := by
  funext p
  rw [existsAt, aged, List.any_map]
  rfl

theorem existsAt_of_removeFiles {removed : List Text} {d : Disk} {p : Path}
    (h : existsAt (removeFiles removed d) p = true) : existsAt d p = true := by
  rw [existsAt, List.any_eq_true] at h ⊢
  obtain ⟨entry, hmem, hentry⟩ := h
  exact ⟨entry, (List.mem_filter.mp hmem).1, hentry⟩

/-! ## The journals -/

/-- A file with what was written to it. -/
abbrev File (α : Type) := Piece Path α Text

abbrev Files (α : Type) := Journal Path α Text

/-- The text of a data file. -/
def dataText (p : File UbxTimeMarkStruct) : Text :=
  linesText (fileLines p.header p.entries) ++ p.tail.getD []

/-- The text of a log file. -/
def logText (p : File Text) : Text :=
  linesText ((if p.header then [logHeader] else []) ++ p.entries) ++ p.tail.getD []

/-- More of what a failed write leaves. -/
def cut {α : Type} (rest : Text) (p : File α) : File α := torn (p.tail.getD [] ++ rest) p

theorem linesText_append (lines more : List Text) :
    linesText (lines ++ more) = linesText lines ++ linesText more := List.flatMap_append

theorem dataText_added (tm : UbxTimeMarkStruct) {p : File UbxTimeMarkStruct} (h : p.tail = none) :
    dataText (added tm p) = dataText p ++ linesText [timeMarkText tm] := by
  rw [dataText, dataText, added, h, Option.getD_none, List.append_nil, List.append_nil,
    ← linesText_append, fileLines, fileLines, List.map_append, List.append_assoc]
  rfl

theorem logText_added (msg : Text) {p : File Text} (h : p.tail = none) :
    logText (added msg p) = logText p ++ linesText [msg] := by
  rw [logText, logText, added, h, Option.getD_none, List.append_nil, List.append_nil,
    ← linesText_append, List.append_assoc]

theorem dataText_cut (rest : Text) (p : File UbxTimeMarkStruct) :
    dataText (cut rest p) = dataText p ++ rest := by
  rw [dataText, dataText, List.append_assoc]
  rfl

theorem logText_cut (rest : Text) (p : File Text) : logText (cut rest p) = logText p ++ rest := by
  rw [logText, logText, List.append_assoc]
  rfl

/-- The stream that writes to a file. -/
def streamOf {α : Type} (p : File α) : Stream := ⟨p.place, p.tail.isNone⟩

/-- A file of the folder that is none of the journal's. -/
def Foreign {α : Type} (j : Files α) (p : Path) : Prop :=
  ∀ q ∈ j.pieces, q.there = true → q.place ≠ p

/-- The files of a kind have the journal of what was written to them, and the stream is open on
the current one, good if it is not cut. -/
structure Holds {α : Type} (kind : Kind) (text : File α → Text) (file : Option Stream)
    (handed : List α) (d : Disk) (contents : Path → Text) (j : Files α) : Prop where
  kept : Kept text contents j
  file : file = j.current.map streamOf
  /-- Everything that was written without a failure, in order. -/
  handed : j.entries = handed
  own : ∀ p ∈ j.pieces, IsOf kind p.place
  /-- What is there is in the folder. -/
  places : ∀ p ∈ j.pieces, p.there = true → existsAt d p.place = true

/-- Both kinds of files have their journals. `before` are the texts that the folder had at
first. -/
structure Represents (before : Path → Text) (s : Recorder) (data : Files UbxTimeMarkStruct)
    (log : Files Text) : Prop where
  marks : Holds .data dataText s.dataFile s.marks s.disk s.contents data
  messages : Holds .log logText s.logFile s.messages s.disk s.contents log
  /-- The other files of the folder are as they were. -/
  others : ∀ p, existsAt s.disk p = true → Foreign data p → Foreign log p → s.contents p = before p
  gone : ∀ p, existsAt s.disk p = false → s.contents p = []

/-! ## Lines -/

section Lines

variable {α : Type} {kind : Kind} {text : File α → Text} {file : Option Stream}
  {handed : List α} {d : Disk} {contents : Path → Text} {j : Files α} {p : File α}
  {f : File α → File α} {line : Text}

theorem mem_pieces_change (h : j.current = some p) (hplace : (f p).place = p.place)
    (hthere : (f p).there = p.there) {q : File α} (hq : q ∈ (j.change f).pieces) :
    ∃ r ∈ j.pieces, r.place = q.place ∧ r.there = q.there := by
  rw [pieces_change h, List.mem_append, List.mem_singleton] at hq
  rcases hq with hq | rfl
  · exact ⟨q, mem_pieces.mpr (.inl hq), rfl, rfl⟩
  · exact ⟨p, mem_pieces.mpr (.inr h), hplace.symm, hthere.symm⟩

theorem Foreign.of_change (h : j.current = some p) (hplace : (f p).place = p.place)
    (hthere : (f p).there = p.there) {q : Path} (hq : Foreign (j.change f) q) : Foreign j q := by
  intro r hr hr'
  rcases mem_pieces.mp hr with hr | hr
  · exact hq r (by rw [pieces_change h]; simp [hr]) hr'
  · obtain rfl := Option.some.inj (h.symm.trans hr)
    exact hplace ▸ hq (f p) (by rw [pieces_change h]; simp) (hthere.trans hr')

/-- The text of the current file becomes longer. -/
theorem Holds.change (h : Holds kind text file handed d contents j) (hp : j.current = some p)
    (hplace : (f p).place = p.place) (hthere : (f p).there = p.there)
    (htext : text (f p) = text p ++ line) :
    Holds kind text (some (streamOf (f p))) (j.change f).entries d
      (appendTo p.place line contents) (j.change f) where
  kept := by
    have hold := h.kept.texts p (mem_pieces.mpr (.inr hp)) (h.kept.current p hp)
    rw [appendTo, hold, ← htext]
    exact h.kept.change hp hplace hthere
  file := by
    rw [Journal.change, hp]
    rfl
  handed := rfl
  own q hq := by
    obtain ⟨r, hr, hrplace, -⟩ := mem_pieces_change hp hplace hthere hq
    rw [← hrplace]
    exact h.own r hr
  places q hq hq' := by
    obtain ⟨r, hr, hrplace, hrthere⟩ := mem_pieces_change hp hplace hthere hq
    rw [← hrplace]
    exact h.places r hr (hrthere.trans hq')

/-- A text for a file that is none of the journal's. -/
theorem Holds.elsewhere (h : Holds kind text file handed d contents j) {q : Path}
    (hq : ∀ p ∈ j.pieces, p.place ≠ q) :
    Holds kind text file handed d (appendTo q line contents) j where
  kept := h.kept.congr fun p hp _ => Function.update_of_ne (hq p hp) ..
  file := h.file
  handed := h.handed
  own := h.own
  places := h.places

end Lines

variable {before : Path → Text} {s : Recorder} {data : Files UbxTimeMarkStruct}
  {log : Files Text}

theorem Represents.congr {s' : Recorder} (h : Represents before s data log)
    (hfiles : s'.dataFile = s.dataFile ∧ s'.logFile = s.logFile)
    (hfolder : s'.disk = s.disk ∧ s'.contents = s.contents)
    (hhanded : s'.marks = s.marks ∧ s'.messages = s.messages) :
    Represents before s' data log := by
  obtain ⟨hdata, hlog⟩ := hfiles
  obtain ⟨hdisk, hcontents⟩ := hfolder
  obtain ⟨hmarks, hmessages⟩ := hhanded
  constructor
  · rw [hdata, hmarks, hdisk, hcontents]
    exact h.marks
  · rw [hlog, hmessages, hdisk, hcontents]
    exact h.messages
  · rw [hdisk, hcontents]
    exact h.others
  · rw [hdisk, hcontents]
    exact h.gone

theorem Represents.publishInfo (h : Represents before s data log) (logAge : Int64) :
    Represents before (Recording.publishInfo logAge s) data log :=
  h.congr ⟨rfl, rfl⟩ ⟨rfl, rfl⟩ ⟨rfl, rfl⟩

section Changes

variable {line : Text}

/-- The current data file becomes longer. -/
theorem Represents.changeData (h : Represents before s data log) {p : File UbxTimeMarkStruct}
    {f : File UbxTimeMarkStruct → File UbxTimeMarkStruct} (hp : data.current = some p)
    (hplace : (f p).place = p.place) (hthere : (f p).there = p.there)
    (htext : dataText (f p) = dataText p ++ line) :
    Represents before { s with
      dataFile := some (streamOf (f p))
      contents := appendTo p.place line s.contents
      marks := (data.change f).entries } (data.change f) log := by
  have hmem : p ∈ data.pieces := mem_pieces.mpr (.inr hp)
  have hp' : p.there = true := h.marks.kept.current p hp
  refine ⟨h.marks.change hp hplace hthere htext,
    h.messages.elsewhere fun q hq => ((h.marks.own p hmem).ne (h.messages.own q hq)).symm,
    fun q hq hdata hlog => ?_, fun q hq => ?_⟩
  · have hforeign := hdata.of_change hp hplace hthere
    exact (Function.update_of_ne (hforeign p hmem hp').symm ..).trans
      (h.others q hq hforeign hlog)
  · have hne : q ≠ p.place := by
      rintro rfl
      have hgone : existsAt s.disk p.place = false := hq
      rw [h.marks.places p hmem hp'] at hgone
      cases hgone
    exact (Function.update_of_ne hne ..).trans (h.gone q hq)

theorem Represents.changeLog (h : Represents before s data log) {p : File Text}
    {f : File Text → File Text} (hp : log.current = some p) (hplace : (f p).place = p.place)
    (hthere : (f p).there = p.there) (htext : logText (f p) = logText p ++ line) :
    Represents before { s with
      logFile := some (streamOf (f p))
      contents := appendTo p.place line s.contents
      messages := (log.change f).entries } data (log.change f) := by
  have hmem : p ∈ log.pieces := mem_pieces.mpr (.inr hp)
  have hp' : p.there = true := h.messages.kept.current p hp
  refine ⟨h.marks.elsewhere fun q hq => (h.marks.own q hq).ne (h.messages.own p hmem),
    h.messages.change hp hplace hthere htext, fun q hq hdata hlog => ?_, fun q hq => ?_⟩
  · have hforeign := hlog.of_change hp hplace hthere
    exact (Function.update_of_ne (hforeign p hmem hp').symm ..).trans
      (h.others q hq hdata hforeign)
  · have hne : q ≠ p.place := by
      rintro rfl
      have hgone : existsAt s.disk p.place = false := hq
      rw [h.messages.places p hmem hp'] at hgone
      cases hgone
    exact (Function.update_of_ne hne ..).trans (h.gone q hq)

end Changes

/-- A line of the data file, or what is left of it. -/
theorem Represents.timeMark (h : Represents before s data log) (tm : UbxTimeMarkStruct)
    (failed : Option Text) (logAge : Int64) :
    ∃ data, Represents before (writeToDataFile tm failed logAge s) data log := by
  have hfile := h.marks.file
  cases hcurrent : data.current with
  | none =>
    rw [hcurrent] at hfile
    rw [writeToDataFile_closed hfile]
    exact ⟨data, h⟩
  | some p =>
    rw [hcurrent, Option.map_some, streamOf] at hfile
    cases htail : p.tail with
    | some rest =>
      rw [htail] at hfile
      rw [writeToDataFile_bad hfile]
      exact ⟨data, h.publishInfo logAge⟩
    | none =>
      rw [htail] at hfile
      rw [writeToDataFile_good hfile]
      cases failed with
      | none =>
        have hchanged := h.changeData hcurrent rfl rfl (dataText_added tm htail)
        refine ⟨data.change (added tm), Represents.publishInfo ?_ logAge⟩
        refine hchanged.congr ⟨?_, rfl⟩ ⟨rfl, rfl⟩ ⟨?_, rfl⟩
        · simp [streamOf, added, htail]
        · simp [entries_added hcurrent, h.marks.handed]
      | some rest =>
        have hchanged := h.changeData hcurrent rfl rfl (dataText_cut rest p)
        refine ⟨data.change (cut rest), Represents.publishInfo ?_ logAge⟩
        exact hchanged.congr ⟨rfl, rfl⟩ ⟨rfl, rfl⟩
          ⟨((entries_change hcurrent rfl).trans h.marks.handed).symm, rfl⟩

theorem Represents.fileLog (h : Represents before s data log) (msg : Text)
    (failed : Option Text) (logAge : Int64) :
    ∃ log, Represents before (writeToLogFile msg failed logAge s) data log := by
  have hfile := h.messages.file
  cases hcurrent : log.current with
  | none =>
    rw [hcurrent] at hfile
    rw [writeToLogFile_closed hfile]
    exact ⟨log, h⟩
  | some p =>
    rw [hcurrent, Option.map_some, streamOf] at hfile
    cases htail : p.tail with
    | some rest =>
      rw [htail] at hfile
      rw [writeToLogFile_bad hfile]
      exact ⟨log, h.publishInfo logAge⟩
    | none =>
      rw [htail] at hfile
      rw [writeToLogFile_good hfile]
      cases failed with
      | none =>
        have hchanged := h.changeLog hcurrent rfl rfl (logText_added msg htail)
        refine ⟨log.change (added msg), Represents.publishInfo ?_ logAge⟩
        refine hchanged.congr ⟨rfl, ?_⟩ ⟨rfl, rfl⟩ ⟨rfl, ?_⟩
        · simp [streamOf, added, htail]
        · simp [entries_added hcurrent, h.messages.handed]
      | some rest =>
        have hchanged := h.changeLog hcurrent rfl rfl (logText_cut rest p)
        refine ⟨log.change (cut rest), Represents.publishInfo ?_ logAge⟩
        exact hchanged.congr ⟨rfl, rfl⟩ ⟨rfl, rfl⟩
          ⟨rfl, ((entries_change hcurrent rfl).trans h.messages.handed).symm⟩

theorem leaving_good {file : Option Stream} (h : ∀ p, file ≠ some ⟨p, false⟩) (left : Text)
    (contents : Path → Text) : leaving file left contents = contents := by
  unfold leaving
  split
  · next p => exact absurd rfl (h p)
  · rfl

/-- The data file with what a stream that has failed brings to it. -/
theorem Represents.leavingData (h : Represents before s data log) (t : Turn) :
    ∃ data, Represents before (Recording.leavingData t s) data log := by
  have hfile := h.marks.file
  by_cases hbad : ∃ p rest, data.current = some p ∧ p.tail = some rest
  · obtain ⟨p, rest, hp, htail⟩ := hbad
    rw [hp, Option.map_some, streamOf, htail] at hfile
    have hchanged := h.changeData hp rfl rfl (dataText_cut t.dataLeft p)
    refine ⟨data.change (cut t.dataLeft), hchanged.congr ⟨?_, rfl⟩ ⟨rfl, ?_⟩ ⟨?_, rfl⟩⟩
    · exact hfile
    · rw [Recording.leavingData, hfile]
      rfl
    · exact ((entries_change hp rfl).trans h.marks.handed).symm
  · refine ⟨data, h.congr ⟨rfl, rfl⟩ ⟨rfl, leaving_good (fun p hp => hbad ?_) _ _⟩ ⟨rfl, rfl⟩⟩
    obtain ⟨q, hq, hstream⟩ := Option.map_eq_some_iff.mp (hfile.symm.trans hp)
    obtain ⟨rest, hrest⟩ := Option.isSome_iff_exists.mp
      (Option.isNone_eq_false_iff.mp (congrArg Stream.good hstream))
    exact ⟨q, rest, hq, hrest⟩

theorem Represents.leavingLog (h : Represents before s data log) (t : Turn) :
    ∃ log, Represents before (Recording.leavingLog t s) data log := by
  have hfile := h.messages.file
  by_cases hbad : ∃ p rest, log.current = some p ∧ p.tail = some rest
  · obtain ⟨p, rest, hp, htail⟩ := hbad
    rw [hp, Option.map_some, streamOf, htail] at hfile
    have hchanged := h.changeLog hp rfl rfl (logText_cut t.logLeft p)
    refine ⟨log.change (cut t.logLeft), hchanged.congr ⟨rfl, ?_⟩ ⟨rfl, ?_⟩ ⟨rfl, ?_⟩⟩
    · exact hfile
    · rw [Recording.leavingLog, hfile]
      rfl
    · exact ((entries_change hp rfl).trans h.messages.handed).symm
  · refine ⟨log, h.congr ⟨rfl, rfl⟩ ⟨rfl, leaving_good (fun p hp => hbad ?_) _ _⟩ ⟨rfl, rfl⟩⟩
    obtain ⟨q, hq, hstream⟩ := Option.map_eq_some_iff.mp (hfile.symm.trans hp)
    obtain ⟨rest, hrest⟩ := Option.isSome_iff_exists.mp
      (Option.isNone_eq_false_iff.mp (congrArg Stream.good hstream))
    exact ⟨q, rest, hq, hrest⟩

/-- Both files with what the streams bring to them when they are closed. -/
theorem Represents.leaving (h : Represents before s data log) (t : Turn) :
    ∃ data log,
      Represents before (Recording.leavingLog t (Recording.leavingData t s)) data log := by
  obtain ⟨data, h⟩ := h.leavingData t
  obtain ⟨log, h⟩ := h.leavingLog t
  exact ⟨data, log, h⟩

/-! ## New files -/

/-- If the headers are written. -/
def headed (writeHeader : Bool) (w : World) : Bool := writeHeader && w.dataOpens && w.logOpens

/-- A file that is opened. `failed` is what it gets of its header if that write fails. -/
def nextPiece {α : Type} (opens header : Bool) (failed : Option Text) (p : Path) :
    Option (File α) :=
  if opens then
    some { place := p, header := header && failed.isNone, tail := if header then failed else none }
  else none

theorem nextPiece_opens {α : Type} {opens header : Bool} {failed : Option Text} {p : Path}
    {q : File α} (h : q ∈ nextPiece opens header failed p) : opens = true ∧ q.place = p := by
  cases opens with
  | false => cases h
  | true =>
    obtain rfl := Option.some.inj h
    exact ⟨rfl, rfl⟩

theorem nextPiece_empty {α : Type} {opens header : Bool} {failed : Option Text} {p : Path}
    {q : File α} (h : q ∈ nextPiece opens header failed p) : q.entries = [] ∧ q.there = true := by
  cases opens with
  | false => cases h
  | true =>
    obtain rfl := Option.some.inj h
    exact ⟨rfl, rfl⟩

/-- The text that it begins with. -/
def firstText (header : Bool) (failed : Option Text) (line : Text) : Text :=
  if header then failed.getD (linesText [line]) else []

theorem dataText_next (header : Bool) (failed : Option Text) (p : Path) :
    ∀ q ∈ nextPiece true header failed p, dataText q = firstText header failed dataHeader := by
  intro q hq
  obtain rfl := Option.some.inj hq
  cases header <;> cases failed <;> simp [dataText, firstText, fileLines, linesText]

theorem logText_next (header : Bool) (failed : Option Text) (p : Path) :
    ∀ q ∈ nextPiece true header failed p, logText q = firstText header failed logHeader := by
  intro q hq
  obtain rfl := Option.some.inj hq
  cases header <;> cases failed <;> simp [logText, firstText, linesText]

/-- What a pair of files that is opened changes. -/
structure Opened (writeHeader : Bool) (t : Turn) (s s' : Recorder) : Prop where
  dataFile : s'.dataFile = (nextPiece t.world.dataOpens (headed writeHeader t.world) t.dataFailed
    s.sink.currentWorkingFilePath : Option (File UbxTimeMarkStruct)).map streamOf
  logFile : s'.logFile = (nextPiece t.world.logOpens (headed writeHeader t.world) t.logFailed
    s.sink.currentWorkingLogPath : Option (File Text)).map streamOf
  disk : s'.disk = openForAppend t.world.logOpens s.sink.currentWorkingLogPath
    (openForAppend t.world.dataOpens s.sink.currentWorkingFilePath s.disk)
  contents : s'.contents =
    appendTo s.sink.currentWorkingLogPath
      (firstText (headed writeHeader t.world) t.logFailed logHeader)
      (appendTo s.sink.currentWorkingFilePath
        (firstText (headed writeHeader t.world) t.dataFailed dataHeader) s.contents)
  marks : s'.marks = s.marks
  messages : s'.messages = s.messages

theorem appendTo_nil (p : Path) (contents : Path → Text) : appendTo p [] contents = contents := by
  rw [appendTo, List.append_nil, Function.update_eq_self]

theorem opened_openFilesAtPaths (writeHeader : Bool) (t : Turn) {s : Recorder}
    (hdataFile : s.dataFile = none) (hlogFile : s.logFile = none) :
    Opened writeHeader t s (openFilesAtPaths writeHeader t s) := by
  cases hdata : t.world.dataOpens <;> cases hlog : t.world.logOpens <;> cases writeHeader <;>
    constructor <;>
    simp [openFilesAtPaths, publishInfo, closeFiles, leavingLog, leavingData, leaving, headed,
      nextPiece, streamOf, firstText, appendTo_nil, hdata, hlog, hdataFile, hlogFile]

/-- The next pair of files is about to be opened: the folder has lost files at most, and the
paths are free. -/
structure Prepared (s₀ s : Recorder) : Prop where
  left : ∀ p, existsAt s.disk p = true → existsAt s₀.disk p = true ∧ s.contents p = s₀.contents p
  gone : ∀ p, existsAt s.disk p = false → s.contents p = []
  marks : s.marks = s₀.marks
  messages : s.messages = s₀.messages
  dataFree : existsAt s.disk s.sink.currentWorkingFilePath = false
  logFree : existsAt s.disk s.sink.currentWorkingLogPath = false
  dataOwn : IsOf .data s.sink.currentWorkingFilePath
  logOwn : IsOf .log s.sink.currentWorkingLogPath
  closed : s.dataFile = none ∧ s.logFile = none

theorem Holds.turn {α : Type} {kind : Kind} {text : File α → Text} {file : Option Stream}
    {handed : List α} {d₀ d d' : Disk} {contents₀ contents : Path → Text} {j : Files α}
    (h : Holds kind text file handed d₀ contents₀ j) {next : Option (File α)}
    (hleft : ∀ p, existsAt d p = true → existsAt d' p = true ∧ contents p = contents₀ p)
    (hempty : ∀ p ∈ next, p.entries = [] ∧ p.there = true)
    (hnew : ∀ p ∈ next, IsOf kind p.place ∧ existsAt d p.place = false ∧
      existsAt d' p.place = true ∧ contents p.place = text p)
    (htext : ∀ p, text (remaining (existsAt d) p) = text p) :
    Holds kind text (next.map streamOf) handed d' contents (j.turn (existsAt d) next) := by
  have hpieces : ∀ p ∈ (j.turn (existsAt d) next).pieces,
      (∃ r ∈ j.pieces, p = remaining (existsAt d) r) ∨ p ∈ next := by
    intro p hp
    rw [pieces_turn, List.mem_append, Option.mem_toList] at hp
    rcases hp with hp | hp
    · obtain ⟨r, hr, rfl⟩ := List.mem_map.mp hp
      exact .inl ⟨r, hr, rfl⟩
    · exact .inr hp
  refine ⟨?_, rfl, ?_, fun p hp => ?_, fun p hp hthere => ?_⟩
  · refine h.kept.turn (fun p _ _ hkept => (hleft _ hkept).2) (fun p hp => ?_)
      fun p _ _ => htext p
    obtain ⟨-, hfree, -, hcontents⟩ := hnew p hp
    exact ⟨(hempty p hp).2, hfree, hcontents⟩
  · rw [entries_turn _ fun p hp => (hempty p hp).1, h.handed]
  · rcases hpieces p hp with ⟨r, hr, rfl⟩ | hp
    · exact h.own r hr
    · exact (hnew p hp).1
  · rcases hpieces p hp with ⟨r, hr, rfl⟩ | hp
    · have hkept : existsAt d r.place = true := by
        rw [remaining, Bool.and_eq_true] at hthere
        exact hthere.2
      exact (hleft _ hkept).1
    · exact (hnew p hp).2.2.1

theorem Foreign.of_turn {α : Type} {j : Files α} {kept : Path → Bool}
    {next : Option (File α)} {q : Path} (hq : kept q = true) (h : Foreign (j.turn kept next) q) :
    Foreign j q := by
  intro r hr hthere hplace
  subst hplace
  refine h (remaining kept r) ?_ ?_ rfl
  · rw [pieces_turn]
    exact List.mem_append_left _ (List.mem_map.mpr ⟨r, hr, rfl⟩)
  · rw [remaining, hthere, hq]
    rfl

/-- The next file is its journal's. -/
theorem Foreign.ne_next {α : Type} {j : Files α} {kept : Path → Bool} {header : Bool}
    {failed : Option Text} {q q' : Path}
    (h : Foreign (j.turn kept (nextPiece true header failed q')) q) : q' ≠ q := by
  refine h (Piece.mk q' (header && failed.isNone) [] (if header then failed else none) true) ?_ rfl
  rw [pieces_turn, nextPiece, if_pos rfl]
  exact List.mem_append_right _ (List.mem_singleton_self _)

/-- The files of the folder once the pair is open. -/
theorem Opened.existsAt {writeHeader : Bool} {t : Turn} {s₀ s s' : Recorder}
    (h : Opened writeHeader t s s') (hp : Prepared s₀ s) (q : Path) :
    Rotation.existsAt s'.disk q = (Rotation.existsAt s.disk q ||
      (t.world.dataOpens && decide (s.sink.currentWorkingFilePath = q)) ||
      (t.world.logOpens && decide (s.sink.currentWorkingLogPath = q))) := by
  rw [h.disk, existsAt_openForAppend hp.logOwn, existsAt_openForAppend hp.dataOwn]

/-- What the files have once the pair is open. -/
structure Begun (t : Turn) (s s' : Recorder) (headed : Bool) : Prop where
  same : ∀ q, q ≠ s.sink.currentWorkingFilePath → q ≠ s.sink.currentWorkingLogPath →
    s'.contents q = s.contents q
  data : s'.contents s.sink.currentWorkingFilePath = firstText headed t.dataFailed dataHeader
  log : s'.contents s.sink.currentWorkingLogPath = firstText headed t.logFailed logHeader

theorem Opened.begun {writeHeader : Bool} {t : Turn} {s₀ s s' : Recorder}
    (h : Opened writeHeader t s s') (hp : Prepared s₀ s) :
    Begun t s s' (headed writeHeader t.world) := by
  have hne := hp.dataOwn.ne hp.logOwn
  have hdata := hp.gone _ hp.dataFree
  have hlog := hp.gone _ hp.logFree
  refine ⟨fun q hqdata hqlog => ?_, ?_, ?_⟩
  · rw [h.contents, appendTo, Function.update_of_ne hqlog, appendTo,
      Function.update_of_ne hqdata]
  · rw [h.contents, appendTo, Function.update_of_ne hne, appendTo, Function.update_self, hdata,
      List.nil_append]
  · rw [h.contents, appendTo, Function.update_self, appendTo, Function.update_of_ne hne.symm,
      hlog, List.nil_append]

/-- What is left in the folder when the pair is opened stays as it was. -/
theorem Opened.left {writeHeader : Bool} {t : Turn} {s₀ s s' : Recorder}
    (h : Opened writeHeader t s s') (hp : Prepared s₀ s) (q : Path)
    (hq : Rotation.existsAt s.disk q = true) :
    Rotation.existsAt s'.disk q = true ∧ s'.contents q = s₀.contents q := by
  have hdata : q ≠ s.sink.currentWorkingFilePath := by
    rintro rfl
    rw [hp.dataFree] at hq
    cases hq
  have hlog : q ≠ s.sink.currentWorkingLogPath := by
    rintro rfl
    rw [hp.logFree] at hq
    cases hq
  refine ⟨by rw [h.existsAt hp, hq]; rfl, ?_⟩
  rw [(h.begun hp).same q hdata hlog, (hp.left q hq).2]

/-- Where a file of the pair does not open, there is no header for it. -/
theorem Opened.gone {writeHeader : Bool} {t : Turn} {s₀ s s' : Recorder}
    (h : Opened writeHeader t s s') (hp : Prepared s₀ s) (q : Path)
    (hq : Rotation.existsAt s'.disk q = false) : s'.contents q = [] := by
  have hbegun := h.begun hp
  rw [h.existsAt hp, Bool.or_eq_false_iff, Bool.or_eq_false_iff] at hq
  obtain ⟨⟨hgone, hdata⟩, hlog⟩ := hq
  by_cases hqdata : q = s.sink.currentWorkingFilePath
  · subst hqdata
    have hclosed : t.world.dataOpens = false := by simpa using hdata
    rw [hbegun.data, headed, hclosed, Bool.and_false, Bool.false_and]
    rfl
  · by_cases hqlog : q = s.sink.currentWorkingLogPath
    · subst hqlog
      have hclosed : t.world.logOpens = false := by simpa using hlog
      rw [hbegun.log, headed, hclosed, Bool.and_false]
      rfl
    · rw [hbegun.same q hqdata hqlog]
      exact hp.gone q hgone

theorem Represents.begin (h : Represents before s data log) {s' : Recorder}
    (hprepared : Prepared s s') (writeHeader : Bool) (t : Turn) :
    ∃ data log, Represents before (openFilesAtPaths writeHeader t s') data log := by
  have hopened := opened_openFilesAtPaths writeHeader t hprepared.closed.1 hprepared.closed.2
  generalize openFilesAtPaths writeHeader t s' = s'' at hopened ⊢
  have hbegun := hopened.begun hprepared
  have hexists := hopened.existsAt hprepared
  have hleft := hopened.left hprepared
  refine ⟨data.turn (existsAt s'.disk) (nextPiece t.world.dataOpens (headed writeHeader t.world)
      t.dataFailed s'.sink.currentWorkingFilePath), log.turn (existsAt s'.disk)
      (nextPiece t.world.logOpens (headed writeHeader t.world) t.logFailed
        s'.sink.currentWorkingLogPath), ?_, ?_, ?_, ?_⟩
  · rw [hopened.dataFile, hopened.marks, hprepared.marks]
    refine h.marks.turn hleft (fun p hp => ?_) (fun p hp => ?_) fun p => rfl
    · exact nextPiece_empty hp
    · obtain ⟨hopens, hplace⟩ := nextPiece_opens hp
      rw [hopens] at hp
      rw [hplace, hexists, hopens, hbegun.data, dataText_next _ _ _ p hp]
      exact ⟨hprepared.dataOwn, hprepared.dataFree, by simp, rfl⟩
  · rw [hopened.logFile, hopened.messages, hprepared.messages]
    refine h.messages.turn hleft (fun p hp => ?_) (fun p hp => ?_) fun p => rfl
    · exact nextPiece_empty hp
    · obtain ⟨hopens, hplace⟩ := nextPiece_opens hp
      rw [hopens] at hp
      rw [hplace, hexists, hopens, hbegun.log, logText_next _ _ _ p hp]
      exact ⟨hprepared.logOwn, hprepared.logFree, by simp, rfl⟩
  · intro q hq hdata hlog
    cases hstays : existsAt s'.disk q with
    | true =>
      rw [(hleft q hstays).2]
      exact h.others q (hprepared.left q hstays).1 (hdata.of_turn hstays) (hlog.of_turn hstays)
    | false =>
      -- a new file is one of the journals'
      rw [hexists, hstays, Bool.false_or, Bool.or_eq_true, Bool.and_eq_true, Bool.and_eq_true,
        decide_eq_true_eq, decide_eq_true_eq] at hq
      rcases hq with ⟨hopens, hplace⟩ | ⟨hopens, hplace⟩
      · rw [hopens] at hdata
        exact absurd hplace hdata.ne_next
      · rw [hopens] at hlog
        exact absurd hplace hlog.ne_next
  · exact hopened.gone hprepared

/-! ## One step -/

/-- The names of the turn are made of a time stamp, and one of the thousand pairs is free. -/
structure CanBegin (t : Turn) (s : Recorder) : Prop where
  stamp : t.world.stamp.all isStamp = true
  free : ∃ suffix ∈ suffixes, Free (existsAt s.disk)
    (suffixedPair (makeBasePaths t.world.stamp) suffix)

/-- A folder that has lost files has no fewer free names. -/
theorem CanBegin.newPaths_free {t : Turn} {s₀ : Recorder} (h : CanBegin t s₀) {d : Disk}
    (hleft : ∀ p, existsAt d p = true → existsAt s₀.disk p = true) :
    Free (existsAt d) (newPaths t d) := by
  obtain ⟨suffix, hsuffix, hdata, hlog⟩ := h.free
  have hfree : ∀ p, existsAt s₀.disk p = false → existsAt d p = false := by
    intro p hp
    cases hs : existsAt d p with
    | false => rfl
    | true =>
      rw [hleft p hs] at hp
      cases hp
  exact resolveUniquePaths_free hsuffix ⟨hfree _ hdata, hfree _ hlog⟩

theorem choosePaths_paths (t : Turn) (s : Recorder) :
    (choosePaths t s).sink.currentWorkingFilePath = (newPaths t s.disk).1 ∧
      (choosePaths t s).sink.currentWorkingLogPath = (newPaths t s.disk).2 := by
  simp only [choosePaths, and_self]

theorem existsAt_choosePaths (t : Turn) (s : Recorder) :
    existsAt (choosePaths t s).disk = existsAt s.disk := by
  rw [choosePaths, writeConfigFile]
  cases t.world.configOpens <;> rfl

theorem prepared_choosePaths {s₀ s : Recorder} {t : Turn} (ht : CanBegin t s₀)
    (hleft : ∀ p, existsAt s.disk p = true →
      existsAt s₀.disk p = true ∧ s.contents p = s₀.contents p)
    (hgone : ∀ p, existsAt s.disk p = false → s.contents p = [])
    (hhanded : s.marks = s₀.marks ∧ s.messages = s₀.messages)
    (hclosed : s.dataFile = none ∧ s.logFile = none) : Prepared s₀ (choosePaths t s) := by
  have hfree : Free (existsAt s.disk) (newPaths t s.disk) :=
    ht.newPaths_free fun p hp => (hleft p hp).1
  obtain ⟨hdata, hlog⟩ := isOf_newPaths ht.stamp s.disk
  have hexists := existsAt_choosePaths t s
  obtain ⟨hdataPath, hlogPath⟩ := choosePaths_paths t s
  refine ⟨fun p hp => ?_, fun p hp => ?_, ?_, ?_, ?_, ?_, ?_, ?_, ?_⟩
  · rw [hexists] at hp
    exact hleft p hp
  · rw [hexists] at hp
    exact hgone p hp
  · simpa only [choosePaths] using hhanded.1
  · simpa only [choosePaths] using hhanded.2
  · rw [hexists, hdataPath]
    exact hfree.1
  · rw [hexists, hlogPath]
    exact hfree.2
  · rw [hdataPath]
    exact hdata
  · rw [hlogPath]
    exact hlog
  · simpa only [choosePaths] using hclosed

/-- The next sink opens its files on the folder that it finds. -/
theorem Represents.construct (h : Represents before s data log) {t : Turn}
    (ht : CanBegin t s) : ∃ data log, Represents before (Recording.construct t s) data log := by
  obtain ⟨data, log, h⟩ := h.leaving t
  have hprepared : Prepared (Recording.leavingLog t (Recording.leavingData t s)) (choosePaths t
      { newSink t s with sink := (readConfigFile s.disk (newSink t s).sink).2 }) :=
    prepared_choosePaths ⟨ht.stamp, ht.free⟩ (fun p hp => ⟨hp, rfl⟩) h.gone ⟨rfl, rfl⟩ ⟨rfl, rfl⟩
  exact h.begin hprepared false t

theorem Represents.rotateFiles (h : Represents before s data log) {t : Turn}
    (ht : CanBegin t s) :
    ∃ data log, Represents before (Recording.rotateFiles t s) data log := by
  obtain ⟨data, log, h⟩ := h.leaving t
  have hleft : ∀ p, existsAt (cleared t (closeFiles t s)).disk p = true →
      existsAt s.disk p = true ∧
        (cleared t (closeFiles t s)).contents p = (closeFiles t s).contents p := by
    intro p hp
    have haged := existsAt_of_removeFiles hp
    rw [existsAt_aged] at haged
    exact ⟨haged, if_pos hp⟩
  have hgone : ∀ p, existsAt (cleared t (closeFiles t s)).disk p = false →
      (cleared t (closeFiles t s)).contents p = [] :=
    fun p hp => if_neg (Bool.eq_false_iff.mp hp)
  have hprepared : Prepared (Recording.leavingLog t (Recording.leavingData t s)) (choosePaths t
      { cleared t (closeFiles t s) with
        nextRotationTime := generateNextDailyTime dailyUploadTime t.now }) :=
    prepared_choosePaths ⟨ht.stamp, ht.free⟩ hleft hgone ⟨rfl, rfl⟩ ⟨rfl, rfl⟩
  exact h.begin hprepared true t

/-- The turns that a label can take can begin. -/
def Names : Recorder → Label → Prop
  | s, .rotationRemind r => CanBegin r.first s ∧ CanBegin r.second (afterData r s) ∧
      CanBegin r.third (afterLog r s)
  | s, .restart t => CanBegin t s
  | _, _ => True

theorem Represents.rotateIfLarge (h : Represents before s data log) {t : Turn}
    (ht : CanBegin t s) (p : Path) :
    ∃ data log, Represents before (Recording.rotateIfLarge t p s) data log := by
  unfold Recording.rotateIfLarge
  split_ifs
  · exact h.rotateFiles ht
  · exact ⟨data, log, h⟩

theorem Represents.step (h : Represents before s data log) {l : Label} (hl : Names s l)
    {s' : Recorder} (hs : step s l = some s') :
    ∃ data log, Represents before s' data log := by
  cases l with
  | timeMark tm failed logAge =>
    obtain rfl := Option.some.inj hs
    obtain ⟨data, h⟩ := h.timeMark tm failed logAge
    exact ⟨data, log, h⟩
  | fileLog msg failed logAge =>
    obtain rfl := Option.some.inj hs
    obtain ⟨log, h⟩ := h.fileLog msg failed logAge
    exact ⟨data, log, h⟩
  | rotationRemind r =>
    obtain rfl := Option.some.inj hs
    obtain ⟨hfirst, hsecond, hthird⟩ := hl
    obtain ⟨data, log, h⟩ := h.rotateIfLarge hfirst s.sink.currentWorkingFilePath
    obtain ⟨data, log, h⟩ := h.rotateIfLarge hsecond (afterData r s).sink.currentWorkingLogPath
    unfold onRotationRemind
    split_ifs
    · exact ⟨data, log, h.publishInfo r.logAge⟩
    · exact h.rotateFiles hthird
  | restart t =>
    obtain rfl := Option.some.inj hs
    exact h.construct hl

/-! ## What is published -/

/-- While both files are open, what was published last of them is so. -/
def Informed (s : Recorder) : Prop :=
  s.dataFile.isSome = true → s.logFile.isSome = true → ∃ logAge, s.info = some (getInfo logAge s)

theorem informed_publishInfo (logAge : Int64) (s : Recorder) : Informed (publishInfo logAge s) :=
  fun _ _ => ⟨logAge, rfl⟩

theorem informed_openFilesAtPaths (writeHeader : Bool) (t : Turn) (s : Recorder) :
    Informed (openFilesAtPaths writeHeader t s) := by
  cases hdata : t.world.dataOpens with
  | false =>
    intro hopen
    simp [openFilesAtPaths, hdata] at hopen
  | true =>
    cases hlog : t.world.logOpens with
    | false =>
      intro _ hopen
      simp [openFilesAtPaths, hdata, hlog] at hopen
    | true =>
      simp only [openFilesAtPaths, hdata, hlog, Bool.not_true, Bool.or_self, Bool.false_eq_true,
        if_false]
      exact informed_publishInfo _ _

theorem Informed.rotateIfLarge (h : Informed s) (t : Turn) (p : Path) :
    Informed (Recording.rotateIfLarge t p s) := by
  unfold Recording.rotateIfLarge
  split_ifs
  · exact informed_openFilesAtPaths _ _ _
  · exact h

theorem Informed.step (h : Informed s) {l : Label} {s' : Recorder} (hs : step s l = some s') :
    Informed s' := by
  cases l with
  | timeMark tm failed logAge =>
    obtain rfl := Option.some.inj hs
    unfold writeToDataFile
    split
    · exact h
    · exact informed_publishInfo _ _
    · exact informed_publishInfo _ _
  | fileLog msg failed logAge =>
    obtain rfl := Option.some.inj hs
    unfold writeToLogFile
    split
    · exact h
    · exact informed_publishInfo _ _
    · exact informed_publishInfo _ _
  | rotationRemind r =>
    obtain rfl := Option.some.inj hs
    unfold onRotationRemind
    split_ifs
    · exact informed_publishInfo _ _
    · exact informed_openFilesAtPaths _ _ _
  | restart t =>
    obtain rfl := Option.some.inj hs
    exact informed_openFilesAtPaths _ _ _

/-! ## Every run -/

/-- What the marks of a file were can be read from it, if none of its writes failed. -/
def Readable (s : Recorder) (data : Files UbxTimeMarkStruct) : Prop :=
  ∀ p ∈ data.pieces, p.there = true → p.tail = none → (∀ tm ∈ p.entries, Normal tm) →
    readDataFile (s.contents p.place) = some (p.entries.map reading)

theorem Represents.readable (h : Represents before s data log) : Readable s data := by
  intro p hp hthere htail hnormal
  rw [h.marks.kept.texts p hp hthere, dataText, htail, Option.getD_none, List.append_nil]
  exact readDataFile_text hnormal

end MuonDetector.Sinks.Recording
