import MuonDetector.Library.Bytes
import MuonDetector.Library.Floats
import Mathlib.Tactic.FinCases

/-!
# The digital to analog converter

`MCP4728` keeps the registers of its four channels and writes them one by one. The chip
here stores what is written to it and is never busy. The object reads its registers
again when they are older than the timeout, and right after a write.
-/

namespace MuonDetector.Hardware.Dac

open MuonDetector.Library.Bytes MuonDetector.Library.Floats

inductive Gain where
  | gain1
  | gain2
  deriving DecidableEq, Repr

inductive Vref where
  | vdd
  | internal
  deriving DecidableEq, Repr

def Gain.bit : Gain → UInt8
  | .gain1 => 0
  | .gain2 => 1

def Vref.bit : Vref → UInt8
  | .vdd => 0
  | .internal => 1

structure DacChannel where
  pd : UInt8 := 0
  gain : Gain := .gain1
  vref : Vref := .internal
  eeprom : Bool := false
  value : UInt16 := 0
  deriving DecidableEq, Repr

/-! ## The chip -/

/-- The two bytes of a register. -/
structure Register where
  high : UInt8
  low : UInt8
  deriving DecidableEq, Repr

structure Chip where
  dac : Fin 4 → Register
  eeprom : Fin 4 → Register

/-- The 24 bytes of a read: for each channel a status byte and the register, of the output
first and then of the EEPROM. The status says that the chip is ready. -/
def Chip.read (chip : Chip) : List UInt8 :=
  (List.finRange 4).flatMap fun channel : Fin 4 =>
    let status : UInt8 := (0xc0 : UInt8) ||| UInt8.ofNat channel.val <<< 4
    [status, (chip.dac channel).high, (chip.dac channel).low,
      status ||| 0x08, (chip.eeprom channel).high, (chip.eeprom channel).low]

def dacMultiWrite : UInt8 := 0x08

def dacEepSingleWrite : UInt8 := 0x0b

/-- A write of one channel. The single write sets the EEPROM as well as the output. -/
def Chip.write (chip : Chip) (command : UInt8) (register : Register) : Chip :=
  let channel : Fin 4 := ⟨(command >>> 1 &&& 0x03).toNat % 4, Nat.mod_lt _ (by decide)⟩
  if command >>> 3 = dacMultiWrite then
    { chip with dac := Function.update chip.dac channel register }
  else if command >>> 3 = dacEepSingleWrite then
    { dac := Function.update chip.dac channel register
      eeprom := Function.update chip.eeprom channel register }
  else chip

/-- The sequential write of all channels to the outputs and the EEPROM. -/
def Chip.writeAll (registers : Fin 4 → Register) : Chip where
  dac := registers
  eeprom := registers

/-! ## The object -/

/-- `fLastRegisterUpdate` is `none` where the code sets it to the epoch of the clock, which is
longer ago than the timeout. `readings` counts the readings of the clock. -/
structure Mcp4728 where
  channelSetting : Fin 4 → DacChannel := fun _ => {}
  channelSettingEep : Fin 4 → DacChannel := fun _ => {}
  lastRegisterUpdate : Option Nat := none
  busy : Bool := false
  chip : Chip
  readings : Nat := 0

def dataValidityTimeout : Nat := 100000000

/-- The part of `parseChannelData` for one register. -/
def parseRegister (high low : UInt8) (eeprom : Bool) : DacChannel where
  pd := (high &&& 0x60) >>> 5
  gain := if high &&& 0x10 ≠ 0 then .gain2 else .gain1
  vref := if high &&& 0x80 ≠ 0 then .internal else .vdd
  eeprom := eeprom
  value := (high &&& 0x0f).toUInt16 <<< 8 ||| (low &&& 0xff).toUInt16

/-- The flag of an output register is not parsed and keeps what it was. -/
def parseChannelData (d : Mcp4728) (buf : List UInt8) : Mcp4728 :=
  let byte (k : Nat) : UInt8 := buf.getD k 0
  { d with
    channelSetting := fun channel =>
      parseRegister (byte (channel * 6 + 1)) (byte (channel * 6 + 2))
        (d.channelSetting channel).eeprom
    channelSettingEep := fun channel =>
      parseRegister (byte (channel * 6 + 4)) (byte (channel * 6 + 5)) true
    busy := byte 21 &&& 0x80 = 0 }

section

variable (clock : Nat → Nat)

def fresh (d : Mcp4728) : Bool :=
  match d.lastRegisterUpdate with
  | none => false
  | some time => (clock d.readings : Int) - time < dataValidityTimeout

def readRegisters (d : Mcp4728) : Mcp4728 :=
  if fresh clock d then { d with readings := d.readings + 1 }
  else
    { parseChannelData d d.chip.read with
      lastRegisterUpdate := some (clock (d.readings + 1))
      readings := d.readings + 2 }

/-- The loop of `waitEepReady`, with the tries that are left. -/
def waitLoop : Nat → Mcp4728 → Mcp4728 × Bool
  | 0, d => (d, false)
  | tries + 1, d =>
    if d.busy then waitLoop tries (readRegisters clock { d with lastRegisterUpdate := none })
    else (d, true)

def waitEepReady (d : Mcp4728) : Mcp4728 × Bool := waitLoop clock 100 (readRegisters clock d)

/-- The command byte and the register that `writeChannel` sends. -/
def writeBytes (channel : Fin 4) (data : DacChannel) : UInt8 × Register :=
  let command := if data.eeprom then dacEepSingleWrite else dacMultiWrite
  (command <<< 3 ||| UInt8.ofNat channel.val <<< 1,
    { high := data.vref.bit <<< 7 ||| (data.pd &&& 0x03) <<< 5 |||
        ((data.value &&& 0xf00) >>> 8).toUInt8 ||| (data.gain.bit &&& 0x01) <<< 4
      low := (data.value &&& 0xff).toUInt8 })

def writeChannel (d : Mcp4728) (channel : Fin 4) (data : DacChannel) : Mcp4728 × Bool :=
  if data.value > 0xfff then (d, false)
  else
    let (d, ready) := waitEepReady clock d
    if !ready then (d, false)
    else
      let (command, register) := writeBytes channel data
      let d := { d with chip := d.chip.write command register }
      let d :=
        if data.eeprom then
          { d with channelSettingEep := Function.update d.channelSettingEep channel data }
        else { d with channelSetting := Function.update d.channelSetting channel data }
      ({ d with lastRegisterUpdate := none }, true)

def storeSettings (d : Mcp4728) : Mcp4728 × Bool :=
  let (d, ready) := waitEepReady clock d
  if !ready then (d, false)
  else
    let registers channel := (writeBytes channel (d.channelSetting channel)).2
    ({ d with chip := Chip.writeAll registers, lastRegisterUpdate := none }, true)

def readChannel (d : Mcp4728) (channel : Fin 4) (eeprom : Bool) : Mcp4728 × DacChannel :=
  let d := readRegisters clock d
  (d, if eeprom then d.channelSettingEep channel else d.channelSetting channel)

def setValue (d : Mcp4728) (channel : Fin 4) (value : UInt16) (gain : Gain) (toEeprom : Bool) :
    Mcp4728 × Bool :=
  if value > 0xfff then (d, false)
  else
    let data :=
      if toEeprom then { d.channelSettingEep channel with eeprom := true }
      else d.channelSetting channel
    writeChannel clock d channel { data with value := value, gain := gain }

end

/-! ## Voltages -/

section

variable {F : Type} [Floating F]

def vddRefVoltage : F := 3.3

/-- The code of a voltage and its gain, before the range of the code is checked. -/
def voltageCode (vref : Vref) (voltage : F) : UInt16 × Gain :=
  match vref with
  | .internal =>
    let value := UInt16.ofInt (Floating.lround (voltage * Floating.ofInt 2000))
    if value > 0xfff then (value >>> 1, .gain2) else (value, .gain1)
  | .vdd =>
    (UInt16.ofInt (Floating.lround (voltage * Floating.ofInt 4096 / vddRefVoltage)), .gain1)

def code2voltage (data : DacChannel) : F :=
  let vref : F := match data.vref with
    | .internal => 2.048
    | .vdd => vddRefVoltage
  let voltage := vref * Floating.ofInt data.value.toNat / 4096.0
  if data.gain = .gain2 ∧ data.vref ≠ .vdd then voltage * 2.0 else voltage

variable (clock : Nat → Nat)

/-- The private overload, for a channel that was checked. -/
def setVoltageTo (d : Mcp4728) (channel : Fin 4) (voltage : F) (toEeprom : Bool) :
    Mcp4728 × Bool :=
  let (value, gain) := voltageCode (d.channelSetting channel).vref voltage
  if value > 0xfff then (d, false) else setValue clock d channel value gain toEeprom

def setVoltage (d : Mcp4728) (channel : Nat) (voltage : F) : Mcp4728 × Bool :=
  if h : channel < 4 then
    if voltage < 0.0 then (d, false) else setVoltageTo clock d ⟨channel, h⟩ voltage false
  else (d, false)

end

/-! ## Registers -/

/-- The settings of the output registers. -/
def output (chip : Chip) (channel : Fin 4) : DacChannel :=
  parseRegister (chip.dac channel).high (chip.dac channel).low false

/-- The settings of the EEPROM registers. -/
def stored (chip : Chip) (channel : Fin 4) : DacChannel :=
  parseRegister (chip.eeprom channel).high (chip.eeprom channel).low true

theorem parse_high (vref : Vref) (gain : Gain) (pd : Fin 4) (nibble : Fin 16) :
    let high := vref.bit <<< 7 ||| (UInt8.ofNat pd &&& 0x03) <<< 5 ||| UInt8.ofNat nibble |||
      (gain.bit &&& 0x01) <<< 4
    (high &&& 0x60) >>> 5 = UInt8.ofNat pd ∧ (high &&& 0x10 ≠ 0 ↔ gain = .gain2) ∧
      (high &&& 0x80 ≠ 0 ↔ vref = .internal) ∧ high &&& 0x0f = UInt8.ofNat nibble := by
  cases vref <;> cases gain <;> revert pd nibble <;> decide +kernel

theorem high_nibble {v : Nat} (h : v ≤ 4095) : (v &&& 0xf00) >>> 8 = v / 2 ^ 8 := by
  have hmask : (v >>> 8) &&& 0xf = v >>> 8 % 2 ^ 4 := Nat.and_two_pow_sub_one_eq_mod (v >>> 8) 4
  rw [Nat.shiftRight_and_distrib, show (0xf00 : Nat) >>> 8 = 0xf from rfl, hmask,
    Nat.shiftRight_eq_div_pow]
  omega

theorem parse_value {value : UInt16} (h : value ≤ 0xfff) :
    ((value &&& 0xf00) >>> 8).toUInt8.toUInt16 <<< 8 |||
      ((value &&& 0xff).toUInt8 &&& 0xff).toUInt16 = value := by
  have hle : value.toNat ≤ 4095 := h
  have hhigh : ((value.toNat &&& 0xf00) >>> 8 % 256) <<< 8 % 65536 =
      value.toNat / 2 ^ 8 * 2 ^ 8 := by
    rw [high_nibble hle, Nat.shiftLeft_eq]
    omega
  have hlow : (value.toNat &&& 255) % 256 &&& 255 = value.toNat % 2 ^ 8 := by
    rw [and_byte, and_byte]
    omega
  have hbyte : value.toNat % 2 ^ 8 < 2 ^ 8 := Nat.mod_lt _ (by decide)
  apply UInt16.toNat_inj.mp
  simp only [UInt16.toNat_or, UInt16.toNat_shiftLeft, UInt8.toNat_toUInt16, UInt16.toNat_toUInt8,
    UInt16.toNat_shiftRight, UInt16.toNat_and, UInt8.toNat_and]
  show ((value.toNat &&& 0xf00) >>> 8 % 256) <<< 8 % 65536 |||
    ((value.toNat &&& 255) % 256 &&& 255) = value.toNat
  rw [hhigh, hlow, or_bytes_two hbyte]
  omega

/-- What is written to a register is read from it. -/
theorem parseRegister_writeBytes {data : DacChannel} (hpd : data.pd ≤ 3)
    (hvalue : data.value ≤ 0xfff) (channel : Fin 4) (eeprom : Bool) :
    parseRegister (writeBytes channel data).2.high (writeBytes channel data).2.low eeprom =
      { data with eeprom := eeprom } := by
  have hpd' : data.pd.toNat ≤ 3 := hpd
  have hnibble : ((data.value &&& 0xf00) >>> 8).toUInt8.toNat < 16 := by
    have hmask : data.value.toNat &&& 3840 ≤ 3840 := Nat.and_le_right
    simp [Nat.shiftRight_eq_div_pow]
    omega
  obtain ⟨hpd, hgain, hvref, hlow⟩ := parse_high data.vref data.gain ⟨data.pd.toNat, by omega⟩
    ⟨((data.value &&& 0xf00) >>> 8).toUInt8.toNat, hnibble⟩
  simp only [UInt8.ofNat_toNat] at hpd hgain hvref hlow
  simp only [parseRegister, writeBytes, hpd, hgain, hvref, hlow, parse_value hvalue]
  cases data with
  | mk pd gain vref eeprom value => cases gain <;> cases vref <;> rfl

theorem output_pd (chip : Chip) (channel : Fin 4) : (output chip channel).pd ≤ 3 := by
  have hall : ∀ b : Fin 256, (UInt8.ofFin b &&& 0x60) >>> 5 ≤ 3 := by decide +kernel
  exact hall (chip.dac channel).high.toFin

@[simp] theorem output_eeprom (chip : Chip) (channel : Fin 4) :
    (output chip channel).eeprom = false := rfl

/-- The bytes of a read are those of the registers. -/
theorem read_bytes (chip : Chip) (channel : Fin 4) :
    chip.read.getD (channel * 6 + 1) 0 = (chip.dac channel).high ∧
      chip.read.getD (channel * 6 + 2) 0 = (chip.dac channel).low ∧
      chip.read.getD (channel * 6 + 4) 0 = (chip.eeprom channel).high ∧
      chip.read.getD (channel * 6 + 5) 0 = (chip.eeprom channel).low := by
  fin_cases channel <;> exact ⟨rfl, rfl, rfl, rfl⟩

theorem read_ready (chip : Chip) : chip.read.getD 21 0 &&& 0x80 ≠ 0 := by
  show (((0xc0 : UInt8) ||| UInt8.ofNat 3 <<< 4) ||| 0x08) &&& 0x80 ≠ 0
  decide

/-! ## The object follows the chip -/

/-- The settings are those of the registers. -/
structure Synced (d : Mcp4728) : Prop where
  output : d.channelSetting = output d.chip
  stored : d.channelSettingEep = stored d.chip
  ready : d.busy = false

/-- The settings are those of the registers, or they are read before they are used. -/
def Known (d : Mcp4728) : Prop :=
  Synced d ∨ d.lastRegisterUpdate = none ∧ ∀ channel, (d.channelSetting channel).eeprom = false

section

variable (clock : Nat → Nat)

@[simp] theorem readRegisters_chip (d : Mcp4728) : (readRegisters clock d).chip = d.chip := by
  unfold readRegisters
  split <;> rfl

theorem synced_readRegisters {d : Mcp4728} (h : Known d) : Synced (readRegisters clock d) := by
  by_cases hfresh : fresh clock d
  · rcases h with h | ⟨hnone, -⟩
    · rw [readRegisters, if_pos hfresh]
      exact ⟨h.output, h.stored, h.ready⟩
    · simp [fresh, hnone] at hfresh
  · have heeprom : ∀ channel, (d.channelSetting channel).eeprom = false := by
      rcases h with h | ⟨-, h⟩
      · intro channel
        rw [h.output]
        rfl
      · exact h
    rw [readRegisters, if_neg hfresh]
    refine ⟨?_, ?_, ?_⟩
    · funext channel
      obtain ⟨hhigh, hlow, -, -⟩ := read_bytes d.chip channel
      simp only [parseChannelData, hhigh, hlow, heeprom, output]
    · funext channel
      obtain ⟨-, -, hhigh, hlow⟩ := read_bytes d.chip channel
      simp only [parseChannelData, hhigh, hlow, stored]
    · simpa [parseChannelData] using read_ready d.chip

theorem waitEepReady_synced {d : Mcp4728} (h : Known d) :
    waitEepReady clock d = (readRegisters clock d, true) := by
  have hready := (synced_readRegisters clock h).ready
  unfold waitEepReady waitLoop
  rw [hready]
  rfl

theorem write_output (chip : Chip) (channel : Fin 4) {data : DacChannel}
    (heeprom : data.eeprom = false) :
    chip.write (writeBytes channel data).1 (writeBytes channel data).2 =
      { chip with dac := Function.update chip.dac channel (writeBytes channel data).2 } := by
  have hcommand : (dacMultiWrite <<< 3 ||| UInt8.ofNat channel.val <<< 1) >>> 3 = dacMultiWrite ∧
      (⟨((dacMultiWrite <<< 3 ||| UInt8.ofNat channel.val <<< 1) >>> 1 &&& 0x03).toNat % 4,
        Nat.mod_lt _ (by decide)⟩ : Fin 4) = channel := by
    revert channel
    decide
  obtain ⟨hmulti, hchannel⟩ := hcommand
  have hfirst : (writeBytes channel data).1 =
      dacMultiWrite <<< 3 ||| UInt8.ofNat channel.val <<< 1 := by
    simp [writeBytes, heeprom]
  rw [Chip.write, hfirst, hchannel, if_pos hmulti]

theorem update_output (chip : Chip) (channel : Fin 4) {data : DacChannel} (hpd : data.pd ≤ 3)
    (hvalue : data.value ≤ 0xfff) (heeprom : data.eeprom = false) :
    output { chip with dac := Function.update chip.dac channel (writeBytes channel data).2 } =
      Function.update (output chip) channel data := by
  funext k
  by_cases hk : k = channel
  · subst hk
    have hdata : { data with eeprom := false } = data := by rw [← heeprom]
    simp only [output, Function.update_self, parseRegister_writeBytes hpd hvalue, hdata]
  · simp only [output, Function.update_of_ne hk]

/-- The object after a write of an output register. -/
def afterWrite (clock : Nat → Nat) (d : Mcp4728) (channel : Fin 4) (data : DacChannel) : Mcp4728 :=
  let d := readRegisters clock d
  { d with
    chip := { d.chip with
      dac := Function.update d.chip.dac channel (writeBytes channel data).2 }
    channelSetting := Function.update d.channelSetting channel data
    lastRegisterUpdate := none }

theorem writeChannel_eq {d : Mcp4728} (h : Synced d) (channel : Fin 4) {data : DacChannel}
    (hvalue : data.value ≤ 0xfff) (heeprom : data.eeprom = false) :
    writeChannel clock d channel data = (afterWrite clock d channel data, true) := by
  rw [writeChannel, if_neg (by simpa using hvalue), waitEepReady_synced clock (Or.inl h)]
  simp only [Bool.not_true, Bool.false_eq_true, if_false, heeprom, write_output]
  rfl

/-- A write sets the register of its channel and no other. -/
theorem writeChannel_synced {d : Mcp4728} (h : Synced d) (channel : Fin 4) (data : DacChannel)
    (hpd : data.pd ≤ 3) (hvalue : data.value ≤ 0xfff) (heeprom : data.eeprom = false) :
    ∃ d', writeChannel clock d channel data = (d', true) ∧ Synced d' ∧
      output d'.chip = Function.update (output d.chip) channel data ∧
      stored d'.chip = stored d.chip := by
  have hread := synced_readRegisters clock (Or.inl h)
  have houtput := update_output (readRegisters clock d).chip channel hpd hvalue heeprom
  have hwrite := writeChannel_eq clock h channel hvalue heeprom
  refine ⟨afterWrite clock d channel data, hwrite, ?_, ?_, ?_⟩
  · refine ⟨?_, hread.stored, hread.ready⟩
    show Function.update (readRegisters clock d).channelSetting channel data = _
    rw [hread.output]
    exact houtput.symm
  · rw [← readRegisters_chip clock d]
    exact houtput
  · rw [← readRegisters_chip clock d]
    rfl

/-- The settings that a voltage asks for, if it can be set. -/
def encoded {F : Type} [Floating F] (setting : DacChannel) (voltage : F) : Option DacChannel :=
  if voltage < 0.0 then none
  else
    let (value, gain) := voltageCode setting.vref voltage
    if value > 0xfff then none else some { setting with value := value, gain := gain }

/-- The output registers after a voltage was asked for. -/
def written {F : Type} [Floating F] (registers : Fin 4 → DacChannel) (channel : Fin 4)
    (voltage : F) : Fin 4 → DacChannel :=
  Function.update registers channel
    ((encoded (registers channel) voltage).getD (registers channel))

/-- **Setting a voltage** sets the code and the gain of its channel, or nothing when the
voltage cannot be set. -/
theorem setVoltage_synced {F : Type} [Floating F] {d : Mcp4728} (h : Synced d) (channel : Fin 4)
    (voltage : F) : ∃ d',
      setVoltage clock d channel voltage =
        (d', (encoded (output d.chip channel) voltage).isSome) ∧ Synced d' ∧
      output d'.chip = written (output d.chip) channel voltage ∧
      stored d'.chip = stored d.chip := by
  by_cases hneg : voltage < 0.0
  · refine ⟨d, ?_, h, ?_, rfl⟩
    · simp [setVoltage, encoded, hneg]
    · simp [written, encoded, hneg]
  · rcases hcode : voltageCode (output d.chip channel).vref voltage with ⟨value, gain⟩
    by_cases hvalue : value > 0xfff
    · refine ⟨d, ?_, h, ?_, rfl⟩
      · simp [setVoltage, setVoltageTo, encoded, hneg, h.output, hcode, hvalue]
      · simp [written, encoded, hneg, hcode, hvalue]
    · obtain ⟨d', hwrite, hsynced, houtput, hstored⟩ := writeChannel_synced clock h channel
        { output d.chip channel with value := value, gain := gain }
        (output_pd d.chip channel) (by simpa using hvalue) rfl
      refine ⟨d', ?_, hsynced, ?_, hstored⟩
      · simp only [output_eeprom] at hwrite
        simp [setVoltage, setVoltageTo, setValue, encoded, hneg, h.output, hcode, hvalue, hwrite]
      · simp [written, encoded, hneg, hcode, hvalue, houtput]

end

end MuonDetector.Hardware.Dac
