import Mathlib.Data.List.Basic
import Mathlib.Algebra.Group.Nat.Defs
import Mathlib.Logic.Function.Basic
import MuonDetector.I2c.Device

/-!
# Bit fields of a register

The mask arithmetic of `readBits` and `writeBits` is right for every field. The
functions that write take the mutex of the device and read the register through
`readReg`, which takes it again. The mutex is not recursive, so they do not return.
The device is one that answers every transfer.
-/

namespace MuonDetector.I2c.BitFields

open MuonDetector.I2c.Device (I2cDevice fNrRetries unusable)

/-! ## The mask arithmetic -/

/-- The position of the lowest bit of the field. -/
def shift (bitStart length : UInt8) : Nat := bitStart.toNat + 1 - length.toNat

def fieldMask (bitStart length : UInt8) : UInt8 :=
  UInt8.ofNat (((1 <<< length.toNat) - 1) <<< shift bitStart length)

def getField (b bitStart length : UInt8) : UInt8 :=
  UInt8.ofNat ((b &&& fieldMask bitStart length).toNat >>> shift bitStart length)

def setField (b bitStart length data : UInt8) : UInt8 :=
  let mask := fieldMask bitStart length
  let data := UInt8.ofNat (data.toNat <<< shift bitStart length) &&& mask
  (b &&& ~~~mask) ||| data

def setBit (b bitNum data : UInt8) : UInt8 :=
  let bit := UInt8.ofNat (1 <<< bitNum.toNat)
  if data ≠ 0 then b ||| bit else b &&& ~~~bit

/-! ## The device -/

inductive Fault where
  /-- The thread waits for a mutex that it holds itself. -/
  | selfDeadlock
  deriving DecidableEq, Repr

/-- The device with the registers of its chip. -/
structure AnsweringDevice extends I2cDevice where
  registers : UInt8 → UInt8
  /-- The thread holds `fMutex`. -/
  held : Bool := false

abbrev Call (α : Type) := AnsweringDevice → Except Fault (α × AnsweringDevice)

/-- `std::lock_guard<std::mutex> lock(fMutex)` around a body. -/
def withLock {α : Type} (body : Call α) : Call α := fun d =>
  if d.held then .error .selfDeadlock
  else do
    let (a, d) ← body { d with held := true }
    return (a, { d with held := false })

/-- The count and the bytes read. -/
def readReg (reg : UInt8) (nBytes : Nat) : Call (Int × List UInt8) :=
  withLock fun d =>
    .ok ((nBytes, (List.range nBytes).map fun k => d.registers (reg + UInt8.ofNat k)), d)

def readLoop (reg : UInt8) (length : Nat) : Nat → Call (Int × List UInt8)
  | 0, d => readReg reg length d
  | n + 1, d => do
    let (r, d) ← readReg reg length d
    if r.1 = length then return (r, d) else readLoop reg length n d

def readBytes (reg : UInt8) (length : Nat) : Call (Int × List UInt8) :=
  readLoop reg length fNrRetries

def readByte (reg : UInt8) : Call (Bool × UInt8) := fun d => do
  let (r, d) ← readBytes reg 1 d
  return ((decide (r.1 = 1), r.2.headD 0), d)

/-- The count and, unless that is 0, the field. -/
def readBits (reg bitStart length : UInt8) : Call (UInt8 × Option UInt8) := fun d => do
  let (r, d) ← readReg reg 1 d
  let count := UInt8.ofInt r.1
  return ((count, if count ≠ 0 then some (getField (r.2.headD 0) bitStart length) else none), d)

/-- The system's `write` transfers the register byte and the data byte. -/
def writeByte (reg data : UInt8) : Call Bool := fun d =>
  let (result, device) := Device.writeByte (fun _ => 2) d.toI2cDevice reg data
  let registers :=
    if unusable d.toI2cDevice then d.registers else Function.update d.registers reg data
  .ok (result, { d with toI2cDevice := device, registers := registers })

def writeBit (reg bitNum data : UInt8) : Call Bool :=
  withLock fun d => do
    let (r, d) ← readByte reg d
    if r.1 = false then return (false, d)
    else writeByte reg (setBit r.2 bitNum data) d

def writeBits (reg bitStart length data : UInt8) : Call Bool :=
  withLock fun d => do
    let (r, d) ← readByte reg d
    if r.1 ≠ false then writeByte reg (setField r.2 bitStart length data) d
    else return (false, d)

/-! ## What the masks do

The bits of a byte are those of its `BitVec`. -/

def bit (b : UInt8) (i : Nat) : Bool := b.toBitVec.getLsbD i

/-- A field inside the byte. -/
structure IsField (bitStart length : UInt8) : Prop where
  start : bitStart.toNat ≤ 7
  pos : 1 ≤ length.toNat
  fits : length.toNat ≤ bitStart.toNat + 1

theorem eq_of_bits {a b : UInt8} (h : ∀ i < 8, bit a i = bit b i) : a = b :=
  UInt8.toBitVec_inj.mp (BitVec.eq_of_getLsbD_eq h)

theorem bit_ofNat {n i : Nat} (hi : i < 8) : bit (UInt8.ofNat n) i = n.testBit i := by
  change (UInt8.ofNat n).toNat.testBit i = n.testBit i
  rw [UInt8.toNat_ofNat', Nat.testBit_mod_two_pow]
  simp [hi]

theorem bit_fieldMask {bitStart length : UInt8} (hf : IsField bitStart length) {i : Nat}
    (hi : i < 8) :
    bit (fieldMask bitStart length) i =
      decide (shift bitStart length ≤ i ∧ i ≤ bitStart.toNat) := by
  have hfits := hf.fits
  have hpos := hf.pos
  rw [fieldMask, bit_ofNat hi, Nat.testBit_shiftLeft, Nat.shiftLeft_eq, Nat.one_mul,
    Nat.testBit_two_pow_sub_one, ← Bool.decide_and, decide_eq_decide]
  simp only [shift]
  omega

theorem bit_setField {b bitStart length data : UInt8} (hf : IsField bitStart length) {i : Nat}
    (hi : i < 8) :
    bit (setField b bitStart length data) i =
      if shift bitStart length ≤ i ∧ i ≤ bitStart.toNat then bit data (i - shift bitStart length)
      else bit b i := by
  have hmask := bit_fieldMask hf hi
  have hshifted : bit (UInt8.ofNat (data.toNat <<< shift bitStart length)) i =
      (decide (shift bitStart length ≤ i) && bit data (i - shift bitStart length)) := by
    rw [bit_ofNat hi, Nat.testBit_shiftLeft]
    rfl
  have hor : bit (setField b bitStart length data) i =
      ((bit b i && !bit (fieldMask bitStart length) i) ||
        (bit (UInt8.ofNat (data.toNat <<< shift bitStart length)) i &&
          bit (fieldMask bitStart length) i)) := by
    simp [setField, bit, hi]
  rw [hor, hmask, hshifted]
  by_cases hin : shift bitStart length ≤ i ∧ i ≤ bitStart.toNat
  · simp [hin]
  · simp [hin]

theorem bit_getField {b bitStart length : UInt8} (hf : IsField bitStart length) {i : Nat}
    (hi : i < 8) :
    bit (getField b bitStart length) i =
      (decide (i < length.toNat) && bit b (shift bitStart length + i)) := by
  have hfits := hf.fits
  have hstart := hf.start
  have hand : (b &&& fieldMask bitStart length).toNat.testBit (shift bitStart length + i) =
      (bit b (shift bitStart length + i) &&
        bit (fieldMask bitStart length) (shift bitStart length + i)) := by
    rw [UInt8.toNat_and, Nat.testBit_and]
    rfl
  rw [getField, bit_ofNat hi, Nat.testBit_shiftRight, hand]
  by_cases hin : i < length.toNat
  · rw [bit_fieldMask hf (by simp only [shift]; omega)]
    have htop : shift bitStart length + i ≤ bitStart.toNat := by simp only [shift]; omega
    simp [hin, htop]
  · by_cases hbyte : shift bitStart length + i < 8
    · rw [bit_fieldMask hf hbyte]
      have htop : ¬ shift bitStart length + i ≤ bitStart.toNat := by simp only [shift]; omega
      simp [hin, htop]
    · have hout : bit b (shift bitStart length + i) = false :=
        BitVec.getLsbD_of_ge _ _ (by omega)
      simp [hin, hout]

/-- **A field that is set is read back, and no other bit changes.** -/
theorem setField_exact (b data : UInt8) {bitStart length : UInt8} (hf : IsField bitStart length) :
    getField (setField b bitStart length data) bitStart length =
      UInt8.ofNat (data.toNat % 2 ^ length.toNat) ∧
    ∀ i < 8, ¬ (shift bitStart length ≤ i ∧ i ≤ bitStart.toNat) →
      bit (setField b bitStart length data) i = bit b i := by
  have hfits := hf.fits
  have hstart := hf.start
  refine ⟨eq_of_bits fun i hi => ?_, fun i hi hout => by rw [bit_setField hf hi, if_neg hout]⟩
  rw [bit_getField hf hi, bit_ofNat hi, Nat.testBit_mod_two_pow]
  by_cases hin : i < length.toNat
  · have htop : shift bitStart length ≤ shift bitStart length + i ∧
        shift bitStart length + i ≤ bitStart.toNat := by simp only [shift]; omega
    rw [bit_setField hf (by omega), if_pos htop, Nat.add_sub_cancel_left]
    simp [hin, bit, BitVec.getLsbD]
  · simp [hin]

theorem bit_setBit (b bitNum data : UInt8) {i : Nat} (hi : i < 8) :
    bit (setBit b bitNum data) i = if i = bitNum.toNat then decide (data ≠ 0) else bit b i := by
  have hbit : bit (UInt8.ofNat (1 <<< bitNum.toNat)) i = decide (bitNum.toNat = i) := by
    rw [bit_ofNat hi, Nat.one_shiftLeft, Nat.testBit_two_pow]
  have hor : bit (b ||| UInt8.ofNat (1 <<< bitNum.toNat)) i =
      (bit b i || bit (UInt8.ofNat (1 <<< bitNum.toNat)) i) := by simp [bit]
  have hand : bit (b &&& ~~~UInt8.ofNat (1 <<< bitNum.toNat)) i =
      (bit b i && !bit (UInt8.ofNat (1 <<< bitNum.toNat)) i) := by simp [bit, hi]
  by_cases hdata : data = 0
  · simp only [setBit, hdata, ne_eq, not_true_eq_false, if_false, hand, hbit]
    by_cases hin : i = bitNum.toNat
    · simp [hin]
    · simp [hin, Ne.symm hin]
  · simp only [setBit, hdata, ne_eq, not_false_eq_true, if_true, hor, hbit]
    by_cases hin : i = bitNum.toNat
    · simp [hin]
    · simp [hin, Ne.symm hin]

/-! ## The mutex -/

theorem readReg_held {d : AnsweringDevice} (h : d.held = true) (reg : UInt8) (nBytes : Nat) :
    readReg reg nBytes d = .error .selfDeadlock := by
  rw [readReg, withLock, if_pos h]

theorem readReg_free {d : AnsweringDevice} (h : d.held = false) (reg : UInt8) :
    readReg reg 1 d = .ok ((1, [d.registers reg]), d) := by
  cases d
  simp_all [readReg, withLock]

/-- Reading one register works as long as the thread does not hold the mutex. -/
theorem readBits_free {d : AnsweringDevice} (h : d.held = false) (reg bitStart length : UInt8) :
    readBits reg bitStart length d =
      .ok ((1, some (getField (d.registers reg) bitStart length)), d) := by
  rw [readBits, readReg_free h]
  rfl

theorem readByte_held {d : AnsweringDevice} (h : d.held = true) (reg : UInt8) :
    readByte reg d = .error .selfDeadlock := by
  rw [readByte, readBytes, fNrRetries, readLoop, readReg_held h]
  rfl

/-- A body that reads a byte of the device under the lock does not return. -/
theorem withLock_readByte (reg : UInt8) (f : Bool × UInt8 → Call Bool) (d : AnsweringDevice) :
    withLock (fun d => do
      let (r, d) ← readByte reg d
      f r d) d = .error .selfDeadlock := by
  rw [withLock]
  split
  · rfl
  · rw [readByte_held rfl]
    rfl

theorem writeBit_deadlock (reg bitNum data : UInt8) (d : AnsweringDevice) :
    writeBit reg bitNum data d = .error .selfDeadlock :=
  withLock_readByte reg
    (fun r d => if r.1 = false then return (false, d)
      else writeByte reg (setBit r.2 bitNum data) d) d

theorem writeBits_deadlock (reg bitStart length data : UInt8) (d : AnsweringDevice) :
    writeBits reg bitStart length data d = .error .selfDeadlock :=
  withLock_readByte reg
    (fun r d => if r.1 ≠ false then writeByte reg (setField r.2 bitStart length data) d
      else return (false, d)) d

/-! ## What a write of a field is to do -/

/-- The write returns, keeps all other bits and registers, and the field is read back. -/
def WritesField (write : Call Bool) (reg bitStart length data : UInt8) (d : AnsweringDevice) : Prop :=
  ∃ ok d', write d = .ok (ok, d') ∧
    (∀ r ≠ reg, d'.registers r = d.registers r) ∧
    (∀ i < 8, ¬ (shift bitStart length ≤ i ∧ i ≤ bitStart.toNat) →
      bit (d'.registers reg) i = bit (d.registers reg) i) ∧
    ∃ d'', readBits reg bitStart length d' =
      .ok ((1, some (UInt8.ofNat (data.toNat % 2 ^ length.toNat))), d'')

/-- **No call of `writeBits` or `writeBit` returns: the mutex is taken by the thread that
holds it.** -/
theorem bit_writes_never_return (reg : UInt8) (d : AnsweringDevice) :
    (∀ bitStart length data, writeBits reg bitStart length data d = .error .selfDeadlock ∧
      ¬ WritesField (writeBits reg bitStart length data) reg bitStart length data d) ∧
    (∀ bitNum data, writeBit reg bitNum data d = .error .selfDeadlock ∧
      ¬ WritesField (writeBit reg bitNum data) reg bitNum 1 (if data ≠ 0 then 1 else 0) d) := by
  refine ⟨fun bitStart length data => ⟨writeBits_deadlock .., ?_⟩,
    fun bitNum data => ⟨writeBit_deadlock .., ?_⟩⟩
  · rintro ⟨ok, d', hret, -⟩
    rw [writeBits_deadlock] at hret
    cases hret
  · rintro ⟨ok, d', hret, -⟩
    rw [writeBit_deadlock] at hret
    cases hret

/-- The example in the comment of `writeBits`: the value 2 for bits 4 to 2 of 0xAF. -/
theorem bit_write_deadlock_comment :
    ¬ ∀ (reg bitStart length data : UInt8) (d : AnsweringDevice), IsField bitStart length →
      d.held = false →
      WritesField (writeBits reg bitStart length data) reg bitStart length data d := by
  intro h
  obtain ⟨ok, d', hret, -⟩ := h 0x10 4 3 2 { registers := fun _ => 0xAF } ⟨by decide, by decide,
    by decide⟩ rfl
  rw [writeBits_deadlock] at hret
  cases hret

end MuonDetector.I2c.BitFields
