import MuonDetector.Library.Floats

/-!
# The analog to digital converter

`ADS1115` keeps a setting for each of its four channels and takes the channel that is asked
for as it comes: its eight bits select the settings, and the last two of them the input.
-/

namespace MuonDetector.Hardware.Adc

open MuonDetector.Library.Messages MuonDetector.Library.Floats

/-- The ranges of the amplifier. -/
inductive Pga where
  | pga6V
  | pga4V
  | pga2V
  | pga1V
  | pga512mV
  | pga256mV
  deriving DecidableEq, Repr

namespace Pga

def number : Pga → UInt8
  | pga6V => 0
  | pga4V => 1
  | pga2V => 2
  | pga1V => 3
  | pga512mV => 4
  | pga256mV => 5

/-- The setting one below, for all but the first one. -/
def pred : Pga → Pga
  | pga6V => pga6V
  | pga4V => pga6V
  | pga2V => pga4V
  | pga1V => pga2V
  | pga512mV => pga1V
  | pga256mV => pga512mV

/-- The setting one above, for all but the last one. -/
def succ : Pga → Pga
  | pga6V => pga4V
  | pga4V => pga2V
  | pga2V => pga1V
  | pga1V => pga512mV
  | pga512mV => pga256mV
  | pga256mV => pga256mV

def gain : Pga → Binary32
  | pga6V => 6.144
  | pga4V => 4.096
  | pga2V => 2.048
  | pga1V => 1.024
  | pga512mV => 0.512
  | pga256mV => 0.256

end Pga

inductive ConvMode where
  | unknown
  | single
  | continuous
  deriving DecidableEq, Repr

structure Sample where
  timestamp : Nat
  value : Int16
  voltage : Binary32
  lsbVoltage : Binary32
  channel : UInt8
  deriving DecidableEq, Repr

/-- What the chip and the clock answer while a sample is taken: the config register if it can
be read, whether it can be written, whether the conversion comes to an end, its result if it
can be read, and the time. -/
structure Answers where
  config : Option UInt16 := none
  configWritten : Bool
  finished : Bool
  result : Option Int16
  now : Nat
  convTime : Binary64 := {}

/-- The object, with the words that it has written to the config register. `none` in
`lastSample` is the invalid sample. -/
structure Ads1115 where
  pga : Fin 4 → Pga := fun _ => .pga4V
  rate : UInt8 := 0
  currentChannel : UInt8 := 0
  selectedChannel : UInt8 := 0
  agc : Fin 4 → Bool := fun _ => false
  diffMode : Bool := false
  convMode : ConvMode := .unknown
  lastSample : Fin 4 → Option Sample := fun _ => none
  lastConvTime : Binary64 := {}
  configs : List UInt16 := []

/-- The index of a channel in the arrays, if it is inside them. -/
def index? (channel : UInt8) : Option (Fin 4) :=
  if h : channel.toNat < 4 then some ⟨channel.toNat, h⟩ else none

def maxAdcValue : Int := 32767

def hiRangeLimit : Nat := 26213

def loRangeLimit : Nat := 6553

def lsbVoltage (pga : Pga) : Binary32 := pga.gain / Floating.ofInt maxAdcValue

def adcToVoltage (adc : Int16) (pga : Pga) : Binary32 :=
  Floating.ofInt adc.toInt * lsbVoltage pga

/-- The word for the config register. -/
def configWord (d : Ads1115) (pga : Pga) (startNewConversion : Bool) : UInt16 :=
  let word : UInt16 := if d.convMode = .single ∧ startNewConversion then 0x8000 else 0
  let word := if !d.diffMode then word ||| 0x4000 else word
  let word := word ||| (d.selectedChannel &&& 0x03).toUInt16 <<< 12
  let word := if d.convMode = .single then word ||| 0x0100 else word
  let word := word ||| (pga.number &&& 0x07).toUInt16 <<< 9
  word ||| (d.rate &&& 0x07).toUInt16 <<< 5

/-- The mode is read from the chip when it is not known. -/
def knownMode (d : Ads1115) (answers : Answers) : Option Ads1115 :=
  match d.convMode with
  | .unknown => answers.config.map fun word : UInt16 =>
      { d with convMode := if word &&& 0x0100 = 0 then .continuous else .single }
  | .single => some d
  | .continuous => some d

/-- `none` stands for an access outside the arrays. -/
def writeConfig (d : Ads1115) (startNewConversion : Bool) (answers : Answers) :
    Option (Ads1115 × Bool) :=
  match knownMode d answers with
  | none => some (d, false)
  | some d => (index? d.selectedChannel).map fun selected =>
      if answers.configWritten then
        ({ d with
          configs := d.configs ++ [configWord d (d.pga selected) startNewConversion]
          currentChannel := d.selectedChannel }, true)
      else (d, false)

/-- The setting of the amplifier after a sample, where it is set automatically. -/
def adjusted (pga : Pga) (result : Int16) : Pga :=
  let eadc := result.toInt.natAbs
  if eadc > hiRangeLimit ∧ pga ≠ .pga6V then pga.pred
  else if eadc < loRangeLimit ∧ pga ≠ .pga256mV then pga.succ
  else pga

/-- The sample of a result, and the object after it. -/
def takeSample (d : Ads1115) (result : Int16) (answers : Answers) : Option (Ads1115 × Sample) :=
  (index? d.currentChannel).map fun current =>
    let sample := Sample.mk answers.now result (adcToVoltage result (d.pga current))
      (lsbVoltage (d.pga current)) d.currentChannel
    let d := { d with lastConvTime := answers.convTime }
    let d :=
      if d.agc current then
        { d with pga := Function.update d.pga current (adjusted (d.pga current) result) }
      else d
    ({ d with lastSample := Function.update d.lastSample current (some sample) }, sample)

/-- The sample is `none` where the code returns the invalid one. The code calls back with a
valid sample before it adjusts the amplifier, which the callback does not look at. -/
def getSample (d : Ads1115) (channel : UInt8) (answers : Answers) :
    Option (Ads1115 × Option Sample) :=
  (writeConfig { d with convMode := .single, selectedChannel := channel } true answers).bind
    fun (d, written) =>
      if !written || !answers.finished then some (d, none)
      else
        match answers.result with
        | none => some (d, none)
        | some result => (takeSample d result answers).map fun (d, sample) => (d, some sample)

/-! ## The arrays -/

theorem index?_isSome (channel : UInt8) : (index? channel).isSome ↔ channel ≤ 3 := by
  by_cases h : channel.toNat < 4
  · have hle : channel ≤ 3 := UInt8.le_iff_toNat_le.mpr (Nat.le_of_lt_succ h)
    simp [index?, h, hle]
  · have hle : ¬channel ≤ 3 := fun hle => h (Nat.lt_succ_of_le (UInt8.le_iff_toNat_le.mp hle))
    simp [index?, h, hle]

/-- A sample is taken inside the arrays exactly when its channel is. -/
theorem getSample_isSome (d : Ads1115) (channel : UInt8) (answers : Answers) :
    (getSample d channel answers).isSome ↔ channel ≤ 3 := by
  rw [← index?_isSome]
  cases hindex : index? channel with
  | none => simp [getSample, writeConfig, knownMode, hindex]
  | some selected =>
    by_cases hwritten : answers.configWritten
    · by_cases hfinished : answers.finished
      · cases hresult : answers.result with
        | none => simp [getSample, writeConfig, knownMode, hindex, hwritten, hfinished, hresult]
        | some result =>
          simp [getSample, writeConfig, knownMode, takeSample, hindex, hwritten, hfinished,
            hresult]
      · simp [getSample, writeConfig, knownMode, hindex, hwritten, hfinished]
    · simp [getSample, writeConfig, knownMode, hindex, hwritten]

end MuonDetector.Hardware.Adc
