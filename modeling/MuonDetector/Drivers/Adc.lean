import MuonDetector.Hardware.Adc
import MuonDetector.Capnp.EventCodecs
import MuonDetector.Capnp.CommandCodecs
import MuonDetector.Data.Events

/-!
# Samples of the converter

`ADS1115Driver` takes samples on commands and events. The samples of the amplitude go into
a buffer, of which a trace is cut out around the event that triggered it.
-/

namespace MuonDetector.Drivers.Adc

open MuonDetector.Library.Messages MuonDetector.Library.Floats MuonDetector.Hardware.Adc
open MuonDetector.Data.Events (ADS1115Event)
open MuonDetector.Capnp.EventCodecs (AdcTraceEvent)
open MuonDetector.Capnp.CommandCodecs (GpioSignal EventTriggerCmd AdcSampleTriggerCmd)

inductive AdcSamplingMode where
  | disabled
  | peak
  | trace
  deriving DecidableEq, Repr

def AdcSamplingMode.ofNumber : UInt8 → Option AdcSamplingMode
  | 0 => some .disabled
  | 1 => some .peak
  | 2 => some .trace
  | _ => none

inductive Publication where
  | sample (event : ADS1115Event)
  | trace (event : AdcTraceEvent)
  deriving DecidableEq, Repr

def amplitude : UInt8 := 0

def bufferSize : Nat := 50

def pretrigger : Nat := 10

/-- The driver; `device` is `none` when the registry has no device. -/
structure ADS1115Driver where
  deviceId : UInt32
  device : Option Ads1115
  adcSamplingMode : AdcSamplingMode := .peak
  eventTrigger : GpioSignal := .evtXor
  currentAdcSampleIndex : Int := -1
  adcSamplesBuffer : List Binary32 := []
  traceScheduled : Bool := false
  published : List Publication := []

/-- Numbers that are no mode are ignored. -/
def setAdcSamplingMode (s : ADS1115Driver) (mode : UInt8) : ADS1115Driver :=
  match AdcSamplingMode.ofNumber mode with
  | none => s
  | some mode => { s with
      adcSamplingMode := mode
      currentAdcSampleIndex := -1
      adcSamplesBuffer := []
      traceScheduled := decide (mode = .trace) }

def publish (s : ADS1115Driver) (event : Publication) : ADS1115Driver :=
  { s with published := s.published ++ [event] }

/-- The buffer after a sample, without the oldest ones where there are too many. -/
def pushSample (buffer : List Binary32) (voltage : Binary32) : List Binary32 :=
  (buffer ++ [voltage]).drop (buffer.length + 1 - bufferSize)

/-- The locked section for a sample of the amplitude: the driver, whether the sample is
published, and the trace. -/
def amplitudeSample (s : ADS1115Driver) (voltage : Binary32) :
    ADS1115Driver × Bool × List Binary32 :=
  match s.adcSamplingMode with
  | .trace =>
    let buffer := pushSample s.adcSamplesBuffer voltage
    let publishSample := decide (s.currentAdcSampleIndex = 0)
    let s := { s with adcSamplesBuffer := buffer }
    if s.currentAdcSampleIndex ≥ 0 then
      let index := s.currentAdcSampleIndex + 1
      if index ≥ ((bufferSize - pretrigger : Nat) : Int) then
        ({ s with currentAdcSampleIndex := -1 }, publishSample, buffer)
      else ({ s with currentAdcSampleIndex := index }, publishSample, [])
    else (s, publishSample, [])
  | .peak => ({ s with currentAdcSampleIndex := 0 }, true, [])
  | .disabled => (s, false, [])

def onSampleReady (s : ADS1115Driver) (sample : Sample) : ADS1115Driver :=
  let convTime := (s.device.map fun device => device.lastConvTime).getD 0.0
  let event := ADS1115Event.mk s.deviceId sample.channel sample.value.toUInt16 sample.voltage
    (UInt64.ofNat sample.timestamp) convTime
  if sample.channel ≠ amplitude then publish s (.sample event)
  else
    let (s, publishSample, trace) := amplitudeSample s sample.voltage
    let s := if publishSample then publish s (.sample event) else s
    if trace ≠ [] then publish s (.trace ⟨trace⟩) else s

/-- `none` stands for an access outside the arrays of the device. -/
def sampleAdcEvent (s : ADS1115Driver) (channel : UInt8) (answers : Answers) :
    Option ADS1115Driver :=
  if s.adcSamplingMode = .disabled then some s
  else
    match s.device with
    | none => some s
    | some device => (getSample device channel answers).map fun (device, sample) =>
        let s := { s with device := some device }
        match sample with
        | none => s
        | some sample => onSampleReady s sample

/-- The trigger of a GPIO event. -/
def handleGpioEvent (s : ADS1115Driver) (signal : GpioSignal) (answers : Answers) :
    Option ADS1115Driver :=
  if signal = s.eventTrigger then
    sampleAdcEvent { s with currentAdcSampleIndex := 0 } amplitude answers
  else some s

def handleEventTrigger (s : ADS1115Driver) (cmd : EventTriggerCmd) : ADS1115Driver :=
  { s with eventTrigger := cmd.signal }

def handleSampleTrigger (s : ADS1115Driver) (cmd : AdcSampleTriggerCmd) (answers : Answers) :
    Option ADS1115Driver :=
  sampleAdcEvent s cmd.channel answers

/-! ## The arrays -/

/-- Nothing is sampled: the mode is off, or there is no device. -/
def Idle (s : ADS1115Driver) : Prop := s.adcSamplingMode = .disabled ∨ s.device.isNone

instance Idle.decidable (s : ADS1115Driver) : Decidable (Idle s) :=
  inferInstanceAs (Decidable (_ ∨ _))

theorem sampleAdcEvent_idle {s : ADS1115Driver} (h : Idle s) (channel : UInt8)
    (answers : Answers) : sampleAdcEvent s channel answers = some s := by
  unfold sampleAdcEvent
  by_cases hmode : s.adcSamplingMode = .disabled
  · rw [if_pos hmode]
  · have hdevice := Option.isNone_iff_eq_none.mp (h.resolve_left hmode)
    rw [if_neg hmode, hdevice]

/-- A driver that samples stays inside the arrays exactly for the channels that there are. -/
theorem sampleAdcEvent_isSome {s : ADS1115Driver} (h : ¬Idle s) (channel : UInt8)
    (answers : Answers) : (sampleAdcEvent s channel answers).isSome ↔ channel ≤ 3 := by
  have hmode : s.adcSamplingMode ≠ .disabled := fun hmode => h (Or.inl hmode)
  cases hdevice : s.device with
  | none => exact absurd (Or.inr (Option.isNone_iff_eq_none.mpr hdevice)) h
  | some device => simp [sampleAdcEvent, hmode, hdevice, getSample_isSome]

end MuonDetector.Drivers.Adc
