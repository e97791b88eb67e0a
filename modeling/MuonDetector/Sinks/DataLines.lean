import MuonDetector.Library.Decimals
import MuonDetector.Sinks.WorkingFiles
import MuonDetector.Ublox.Events

/-!
# The lines of the data files

A time mark becomes one line of numbers. What a file of such lines says can be read from it
again, behind its header or without one.
-/

namespace MuonDetector.Sinks.DataLines

open MuonDetector.Library.Conversions (readInteger)
open MuonDetector.Library.Decimals
open MuonDetector.Library.Texts (linesText linesText_cons)
open MuonDetector.Sinks.WorkingFiles (Text)
open MuonDetector.Ublox.Events (Timespec UbxTimeMarkStruct)

/-! ## What is written -/

/-- The stream insertion of a `timespec`. -/
def timespecText (ts : Timespec) : Text :=
  integerText ts.tvSec ++ '.' :: (padded 9 '0' (integerText ts.tvNsec) ++ [' '])

/-- What stands behind the two edges. -/
def numbersOf (tm : UbxTimeMarkStruct) : List Int :=
  [tm.accuracyNs.toNat, tm.evtCounter.toNat, tm.valid.toNat, tm.timeBase.toNat,
    tm.utcAvailable.toNat]

def numbersText : List Int → Text
  | [] => []
  | [n] => integerText n
  | n :: ns => integerText n ++ ' ' :: numbersText ns

/-- What `handle` makes of a time mark. -/
def timeMarkText (tm : UbxTimeMarkStruct) : Text :=
  timespecText tm.rising ++ (timespecText tm.falling ++ numbersText (numbersOf tm))

def dataHeader : Text :=
  ("#unix_timestamp_rising(s) unix_timestamp_trailing(s) " ++
    "time_accuracy(ns) valid timebase(0=gps,2=utc) utc_available").toList

def logHeader : Text := "#time<YYYY-MM-DD_hh-mm-ss> parname value unit".toList

/-! ## What is read -/

/-- What a line says of a time mark. -/
structure Reading where
  rising : Timespec
  falling : Timespec
  numbers : List Int
  deriving DecidableEq, Repr

def readTimespec (text : Text) : Option (Timespec × Text) :=
  match readInteger text with
  | some (sec, '.' :: rest) =>
    if (rest.take 9).length = 9 ∧ (rest.take 9).all Char.isDigit then
      some (⟨sec, Nat.ofDigitChars 10 (rest.take 9) 0⟩, rest.drop 9)
    else none
  | _ => none

def readNumbers : Nat → Text → Option (List Int × Text)
  | 0, text => some ([], text)
  | n + 1, text =>
    (readInteger text).bind fun (i, rest) =>
      (readNumbers n rest).map fun (is, rest) => (i :: is, rest)

def readLine (text : Text) : Option Reading :=
  (readTimespec text).bind fun (rising, text) =>
    (readTimespec text).bind fun (falling, text) =>
      (readNumbers 5 text).bind fun (numbers, text) =>
        if text = [] then some ⟨rising, falling, numbers⟩ else none

/-- The lines of a file without its comments. -/
def readLines : List Text → Option (List Reading)
  | [] => some []
  | line :: lines =>
    if line.head? = some '#' then readLines lines
    else (readLine line).bind fun r => (readLines lines).map fun rs => r :: rs

def readDataFile (text : Text) : Option (List Reading) := readLines ((text.splitOn '\n').dropLast)

/-! ## A line -/

/-- What is said of a time mark. -/
def reading (tm : UbxTimeMarkStruct) : Reading := ⟨tm.rising, tm.falling, numbersOf tm⟩

/-- The nanoseconds are below a second. -/
def NormalTime (ts : Timespec) : Prop := 0 ≤ ts.tvNsec ∧ ts.tvNsec < 10 ^ 9

def Normal (tm : UbxTimeMarkStruct) : Prop := NormalTime tm.rising ∧ NormalTime tm.falling

theorem readTimespec_text {ts : Timespec} (h : NormalTime ts) (rest : Text) :
    readTimespec (timespecText ts ++ rest) = some (ts, ' ' :: rest) := by
  obtain ⟨sec, nsec⟩ := ts
  obtain ⟨n, rfl⟩ := Int.eq_ofNat_of_zero_le h.1
  have hn : n < 10 ^ 9 := by
    have hlt : (n : Int) < 10 ^ 9 := h.2
    omega
  obtain ⟨hlength, hdigits, hvalue⟩ := padded_zero (by omega) hn
  have htext : timespecText ⟨sec, n⟩ ++ rest =
      integerText sec ++ '.' :: (padded 9 '0' (integerText n) ++ ' ' :: rest) := by
    simp [timespecText]
  have hread : readInteger (timespecText ⟨sec, n⟩ ++ rest) =
      some (sec, '.' :: (padded 9 '0' (integerText n) ++ ' ' :: rest)) := by
    rw [htext]
    exact readInteger_integerText sec fun c hc => by
      cases hc
      rfl
  rw [readTimespec, hread]
  simp only
  rw [List.take_left' hlength, List.drop_left' hlength, if_pos ⟨hlength, hdigits⟩, hvalue]

theorem readTimespec_blank (text : Text) : readTimespec (' ' :: text) = readTimespec text := rfl

theorem readNumbers_blank {n : Nat} (text : Text) :
    readNumbers (n + 1) (' ' :: text) = readNumbers (n + 1) text := rfl

theorem readNumbers_text (ns : List Int) :
    readNumbers ns.length (numbersText ns) = some (ns, []) := by
  match ns with
  | [] => rfl
  | [n] =>
    have hread : readInteger (integerText n ++ []) = some (n, []) :=
      readInteger_integerText n fun c hc => by cases hc
    rw [List.append_nil] at hread
    simp [readNumbers, numbersText, hread]
  | n :: m :: ns =>
    have hblank : NoDigit (' ' :: numbersText (m :: ns)) := fun c hc => by
      cases hc
      rfl
    have hread := readInteger_integerText n hblank
    have hrest : readNumbers (m :: ns).length (' ' :: numbersText (m :: ns)) =
        some (m :: ns, []) := (readNumbers_blank _).trans (readNumbers_text (m :: ns))
    rw [List.length_cons, readNumbers, numbersText, hread, Option.bind_some]
    · simp only [hrest, Option.map_some]
    · simp

theorem readLine_text {tm : UbxTimeMarkStruct} (h : Normal tm) :
    readLine (timeMarkText tm) = some (reading tm) := by
  have hnumbers : readNumbers 5 (numbersText (numbersOf tm)) = some (numbersOf tm, []) :=
    readNumbers_text (numbersOf tm)
  rw [readLine, timeMarkText, readTimespec_text h.1, Option.bind_some]
  simp only [readTimespec_blank, readTimespec_text h.2, Option.bind_some, readNumbers_blank,
    hnumbers, if_true, reading]

/-! ## A file -/

theorem splitOn_linesText {lines : List Text} (h : ∀ line ∈ lines, '\n' ∉ line) :
    (linesText lines).splitOn '\n' = lines ++ [[]] := by
  induction lines with
  | nil => rfl
  | cons line lines ih =>
    have hline : '\n' ∉ line := h line (by simp)
    rw [linesText_cons, List.splitOn_append_cons_self, List.splitOn_eq_singleton hline,
      ih fun l hl => h l (by simp [hl])]
    rfl

/-- The characters of a line of numbers. -/
def isNumeric (c : Char) : Bool := c.isDigit || c = '-' || c = '.' || c = ' '

theorem isNumeric_integerText (n : Int) : (integerText n).all isNumeric = true := by
  have hdigits : (Nat.toDigits 10 n.natAbs).all isNumeric = true := by
    rw [List.all_eq_true]
    intro c hc
    simp [isNumeric, isDigit_of_mem hc]
  rw [integerText]
  split_ifs
  · rw [List.all_cons, hdigits]
    rfl
  · exact hdigits

theorem isNumeric_timespecText (ts : Timespec) : (timespecText ts).all isNumeric = true := by
  have hzeros : ∀ width, (List.replicate width '0').all isNumeric = true := by
    intro width
    rw [List.all_eq_true]
    intro c hc
    rw [List.eq_of_mem_replicate hc]
    rfl
  simp only [timespecText, padded, List.all_append, List.all_cons, isNumeric_integerText, hzeros]
  rfl

theorem isNumeric_numbersText (ns : List Int) : (numbersText ns).all isNumeric = true := by
  match ns with
  | [] => rfl
  | [n] => exact isNumeric_integerText n
  | n :: m :: ns =>
    have hrest := isNumeric_numbersText (m :: ns)
    rw [numbersText, List.all_append, List.all_cons, isNumeric_integerText, hrest]
    · rfl
    · simp

/-- The line of a time mark is one line and no comment. -/
theorem timeMarkText_line (tm : UbxTimeMarkStruct) :
    '\n' ∉ timeMarkText tm ∧ (timeMarkText tm).head? ≠ some '#' := by
  have hall : ∀ c ∈ timeMarkText tm, isNumeric c = true := by
    rw [← List.all_eq_true]
    simp only [timeMarkText, List.all_append, isNumeric_timespecText, isNumeric_numbersText,
      Bool.and_self]
  constructor
  · intro hmem
    exact absurd (hall _ hmem) (by decide)
  · intro hhead
    exact absurd (hall _ (List.mem_of_head? hhead)) (by decide)

theorem readLines_text {tms : List UbxTimeMarkStruct} (h : ∀ tm ∈ tms, Normal tm) :
    readLines (tms.map timeMarkText) = some (tms.map reading) := by
  induction tms with
  | nil => rfl
  | cons tm tms ih =>
    rw [List.map_cons, readLines, if_neg (timeMarkText_line tm).2, readLine_text (h tm (by simp)),
      Option.bind_some, ih fun t ht => h t (by simp [ht])]
    rfl

/-- The lines of a data file, behind the header if it has one. -/
def fileLines (header : Bool) (tms : List UbxTimeMarkStruct) : List Text :=
  (if header then [dataHeader] else []) ++ tms.map timeMarkText

theorem readDataFile_text {header : Bool} {tms : List UbxTimeMarkStruct}
    (h : ∀ tm ∈ tms, Normal tm) :
    readDataFile (linesText (fileLines header tms)) = some (tms.map reading) := by
  have hmarks : ∀ line ∈ tms.map timeMarkText, '\n' ∉ line := by
    intro line hline
    obtain ⟨tm, -, rfl⟩ := List.mem_map.mp hline
    exact (timeMarkText_line tm).1
  have hlines : ∀ line ∈ fileLines header tms, '\n' ∉ line := by
    cases header with
    | false => exact hmarks
    | true =>
      intro line hline
      rcases List.mem_cons.mp hline with rfl | hline
      · decide +kernel
      · exact hmarks line hline
  rw [readDataFile, splitOn_linesText hlines, List.dropLast_concat]
  cases header with
  | false => exact readLines_text h
  | true =>
    have hhead : dataHeader.head? = some '#' := by decide +kernel
    change readLines (dataHeader :: tms.map timeMarkText) = _
    rw [readLines, if_pos hhead]
    exact readLines_text h

end MuonDetector.Sinks.DataLines
