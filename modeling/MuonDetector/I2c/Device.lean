import MuonDetector.Library.Attempts

/-!
# Writing to an I2C device

`writeReg` puts the register byte before the data and takes it off the count again,
so a write that fails gives a negative number. The loops of `writeBytes` and
`writeWords` repeat it until all data bytes are counted; only the second of them
compares the count once more before it returns.
-/

namespace MuonDetector.I2c.Device

open MuonDetector.Library.Attempts

def MODE_UNREACHABLE : UInt8 := 0x04
def MODE_LOCKED : UInt8 := 0x10

def fNrRetries : Nat := 3

/-- The fields that writing uses, and the buffers given to the system's `write`. -/
structure I2cDevice where
  fHandle : Int := 0
  fMode : UInt8 := 0
  fNrBytesWritten : Nat := 0
  fIOErrors : Nat := 0
  calls : List (List UInt8) := []
  deriving DecidableEq, Repr

def unusable (d : I2cDevice) : Bool := d.fHandle ≤ 0 || (d.fMode &&& MODE_LOCKED) != 0

section

variable (sys : Nat → Int)

/-- `sys k` is what the system's `write` returns to its call of index `k`. -/
def write (d : I2cDevice) (buf : List UInt8) : Int × I2cDevice :=
  if unusable d then (0, d)
  else
    let nwritten := sys d.calls.length
    let d := { d with calls := d.calls ++ [buf] }
    if 0 < nwritten then
      (nwritten, { d with
        fNrBytesWritten := d.fNrBytesWritten + nwritten.toNat
        fMode := d.fMode &&& ~~~MODE_UNREACHABLE })
    else
      (nwritten, { d with
        fIOErrors := d.fIOErrors + 1
        fMode := d.fMode ||| MODE_UNREACHABLE })

def writeReg (reg : UInt8) (buf : List UInt8) (d : I2cDevice) : Int × I2cDevice :=
  let r := write sys d (reg :: buf)
  (r.1 - 1, r.2)

/-- The loop that `writeBytes` and `writeWords` share. -/
def writeLoop (d : I2cDevice) (reg : UInt8) (buf : List UInt8) : Tries I2cDevice Int :=
  attempts (writeReg sys reg buf) (fun nwritten => nwritten = buf.length) fNrRetries d

/-- The count is converted to `bool`. -/
def writeBytes (d : I2cDevice) (reg : UInt8) (data : List UInt8) : Bool × I2cDevice :=
  let t := writeLoop sys d reg data
  (t.last ≠ 0, t.state)

def writeByte (d : I2cDevice) (reg : UInt8) (data : UInt8) : Bool × I2cDevice :=
  writeBytes sys d reg [data]

def wordBytes (w : UInt16) : List UInt8 := [(w >>> 8).toUInt8, w.toUInt8]

/-- The local buffer of 512 bytes, which more than 256 words overrun. -/
def wordBuf (data : List UInt16) : Option (List UInt8) :=
  if data.length * 2 ≤ 512 then some (data.flatMap wordBytes) else none

def writeWords (d : I2cDevice) (reg : UInt8) (data : List UInt16) :
    Option (Bool × I2cDevice) := do
  let buf ← wordBuf data
  let t := writeLoop sys d reg buf
  let result :=
    if t.last < 0 then false
    else if t.last ≠ (data.length * 2 : Nat) then false
    else true
  return (result, t.state)

def writeWord (d : I2cDevice) (reg : UInt8) (data : UInt16) : Option (Bool × I2cDevice) :=
  writeWords sys d reg [data]

/-! ## The attempts of a loop -/

/-- What the attempt of index `k` transfers, the register byte included. -/
def transferred (d : I2cDevice) (k : Nat) : Int :=
  if unusable d then 0 else sys (d.calls.length + k)

/-- One of the four attempts transfers the register byte and all of the data. -/
def Completes (d : I2cDevice) (length : Nat) : Prop :=
  ∃ k ≤ fNrRetries, transferred sys d k = length + 1

end

variable {sys : Nat → Int}

theorem locked_clear (mode : UInt8) :
    (mode &&& ~~~MODE_UNREACHABLE) &&& MODE_LOCKED = mode &&& MODE_LOCKED := by
  have hmask : ~~~MODE_UNREACHABLE &&& MODE_LOCKED = MODE_LOCKED := by decide
  rw [UInt8.and_assoc, hmask]

theorem locked_set (mode : UInt8) :
    (mode ||| MODE_UNREACHABLE) &&& MODE_LOCKED = mode &&& MODE_LOCKED := by
  have hmask : MODE_UNREACHABLE.toBitVec &&& MODE_LOCKED.toBitVec = 0 := by decide
  apply UInt8.toBitVec_inj.mp
  rw [UInt8.toBitVec_and, UInt8.toBitVec_or, BitVec.and_or_distrib_right, hmask,
    UInt8.toBitVec_and]
  simp

/-- A call goes on to the next result of the system and does not lock the device. -/
theorem write_spec (d : I2cDevice) (buf : List UInt8) :
    (write sys d buf).1 = transferred sys d 0 ∧
    ∀ k, transferred sys (write sys d buf).2 k = transferred sys d (k + 1) := by
  cases hu : unusable d with
  | true => simp [write, transferred, hu]
  | false =>
    by_cases hpos : 0 < sys d.calls.length
    · refine ⟨by simp [write, transferred, hu, hpos], fun k => ?_⟩
      have hsame : unusable (write sys d buf).2 = unusable d := by
        simp [write, hu, hpos]
        simpa [unusable, locked_clear] using hu
      rw [transferred, transferred, hsame, hu]
      simp [write, hu, hpos, Nat.add_comm, Nat.add_left_comm]
    · refine ⟨by simp [write, transferred, hu, hpos], fun k => ?_⟩
      have hsame : unusable (write sys d buf).2 = unusable d := by
        simp [write, hu, hpos]
        simpa [unusable, locked_set] using hu
      rw [transferred, transferred, hsame, hu]
      simp [write, hu, hpos, Nat.add_comm, Nat.add_left_comm]

theorem resultAt_writeReg (d : I2cDevice) (reg : UInt8) (buf : List UInt8) (k : Nat) :
    resultAt (writeReg sys reg buf) d k = transferred sys d k - 1 := by
  induction k generalizing d with
  | zero => rw [resultAt, writeReg, (write_spec d (reg :: buf)).1]
  | succ k ih =>
    rw [resultAt, ih, writeReg, (write_spec d (reg :: buf)).2]

/-! ## What is to be said of a write -/

/-- At most four attempts, none after one that is complete, and true if the last one is. -/
structure WriteStatus (t : Tries I2cDevice Int) (length : Nat) (result : Bool) : Prop where
  attempts : t.count ≤ fNrRetries + 1
  stops : ∀ n ∈ t.earlier, n ≠ length
  status : result = true ↔ t.last = length

/-- The loop makes at most four attempts and stops at a complete one. -/
theorem writeLoop_spec (d : I2cDevice) (reg : UInt8) (buf : List UInt8) :
    (writeLoop sys d reg buf).count ≤ fNrRetries + 1 ∧
    (∀ n ∈ (writeLoop sys d reg buf).earlier, n ≠ buf.length) ∧
    ((writeLoop sys d reg buf).last = buf.length ↔ Completes sys d buf.length) ∧
    (¬ Completes sys d buf.length →
      (writeLoop sys d reg buf).last = transferred sys d fNrRetries - 1) := by
  obtain ⟨m, hstop, hlast, hearlier⟩ :=
    @attempts_eq _ _ (writeReg sys reg buf)
      (fun nwritten => decide (nwritten = (buf.length : Int))) fNrRetries d
  have hdone := hstop.done_iff
  simp only [decide_eq_true_eq, resultAt_writeReg] at hdone hlast
  have hcompletes : transferred sys d m - 1 = buf.length ↔ Completes sys d buf.length := by
    rw [hdone, Completes]
    constructor
    · rintro ⟨k, hk, h⟩
      exact ⟨k, hk, by omega⟩
    · rintro ⟨k, hk, h⟩
      exact ⟨k, hk, by omega⟩
  refine ⟨?_, ?_, ?_, ?_⟩
  · have hbound := hstop.bound
    rw [Tries.count, writeLoop, hearlier, List.length_map, List.length_range]
    omega
  · intro n hn
    rw [writeLoop, hearlier] at hn
    obtain ⟨k, hk, rfl⟩ := List.mem_map.mp hn
    exact of_decide_eq_false (hstop.before k (List.mem_range.mp hk))
  · rw [writeLoop, hlast]
    exact hcompletes
  · intro hno
    have hm : m = fNrRetries := by
      refine hstop.eq_of_not_done fun h => hno (hcompletes.mp ?_)
      simpa [resultAt_writeReg] using h
    rw [writeLoop, hlast, hm]

theorem writeStatus_iff (d : I2cDevice) (reg : UInt8) (buf : List UInt8) (result : Bool) :
    WriteStatus (writeLoop sys d reg buf) buf.length result ↔
      (result = true ↔ Completes sys d buf.length) := by
  obtain ⟨hcount, hearlier, hlast, -⟩ := @writeLoop_spec sys d reg buf
  rw [← hlast]
  exact ⟨fun h => h.status, fun h => ⟨hcount, hearlier, h⟩⟩

/-- The status of `writeBytes` is right if the data is complete, and also when the last attempt
stops after the register byte. -/
theorem writeBytes_status_iff (d : I2cDevice) (reg : UInt8) (data : List UInt8) :
    WriteStatus (writeLoop sys d reg data) data.length (writeBytes sys d reg data).1 ↔
      data ≠ [] ∧ (Completes sys d data.length ∨ transferred sys d fNrRetries = 1) := by
  obtain ⟨-, -, hlast, hgave⟩ := @writeLoop_spec sys d reg data
  rw [writeStatus_iff, ← List.length_pos_iff]
  simp only [writeBytes, ne_eq, decide_not, Bool.not_eq_eq_eq_not, Bool.not_true,
    decide_eq_false_iff_not]
  by_cases hc : Completes sys d data.length
  · rw [hlast.mpr hc]
    simp only [hc, true_or, and_true, iff_true]
    omega
  · have hne : transferred sys d fNrRetries - 1 ≠ data.length := by
      intro h
      exact hc ⟨fNrRetries, Nat.le_refl _, by omega⟩
    rw [hgave hc]
    simp only [hc, iff_false, false_or]
    omega

theorem writeWords_status_iff (d : I2cDevice) (reg : UInt8) (data : List UInt16) :
    (∃ buf result d', wordBuf data = some buf ∧ buf.length = 2 * data.length ∧
      writeWords sys d reg data = some (result, d') ∧
      WriteStatus (writeLoop sys d reg buf) buf.length result) ↔ data.length ≤ 256 := by
  constructor
  · rintro ⟨buf, -, -, hbuf, -⟩
    simp only [wordBuf, Option.ite_none_right_eq_some] at hbuf
    omega
  · intro hlen
    let buf := data.flatMap wordBytes
    have hsize : buf.length = 2 * data.length := by
      simp [buf, wordBytes, List.length_flatMap, Nat.mul_comm]
    have hbuf : wordBuf data = some buf := if_pos (by omega)
    refine ⟨buf, _, _, hbuf, hsize, by rw [writeWords, hbuf]; rfl, ?_⟩
    obtain ⟨-, -, hlast, -⟩ := @writeLoop_spec sys d reg buf
    rw [writeStatus_iff, ← hlast, hsize]
    by_cases hneg : (writeLoop sys d reg buf).last < 0
    · simp [hneg]
      omega
    · simp [hneg, Nat.mul_comm]

/-- **Four attempts at most, none after a complete one; and when the status is right.** -/
theorem write_status_iff (sys : Nat → Int) (d : I2cDevice) (reg : UInt8) :
    (∀ data, WriteStatus (writeLoop sys d reg data) data.length (writeBytes sys d reg data).1 ↔
      data ≠ [] ∧ (Completes sys d data.length ∨ transferred sys d fNrRetries = 1)) ∧
    (∀ data, WriteStatus (writeLoop sys d reg [data]) 1 (writeByte sys d reg data).1 ↔
      Completes sys d 1 ∨ transferred sys d fNrRetries = 1) ∧
    (∀ data, (∃ buf result d', wordBuf data = some buf ∧ buf.length = 2 * data.length ∧
      writeWords sys d reg data = some (result, d') ∧
      WriteStatus (writeLoop sys d reg buf) buf.length result) ↔ data.length ≤ 256) := by
  refine ⟨writeBytes_status_iff d reg, ?_, writeWords_status_iff d reg⟩
  intro data
  exact (writeBytes_status_iff d reg [data]).trans (and_iff_right (List.cons_ne_nil data []))

/-- A device that does not answer: four attempts fail and `writeBytes` returns true. -/
theorem write_status_unreachable :
    ¬ ∀ (sys : Nat → Int) (d : I2cDevice) (reg : UInt8) (data : List UInt8),
      WriteStatus (writeLoop sys d reg data) data.length (writeBytes sys d reg data).1 := by
  intro h
  have hstatus := (h (fun _ => -1) { fHandle := 3, fMode := 1 } 0x10 [0xAA]).status
  exact absurd (hstatus.mp (by decide)) (by decide)

end MuonDetector.I2c.Device
