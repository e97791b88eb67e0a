import MuonDetector.Library.Machine
import MuonDetector.Ublox.Events
import Mathlib.Algebra.Order.Floor.Semiring
import Mathlib.Data.Rat.Floor
import Mathlib.Tactic.FieldSimp
import Mathlib.Tactic.Linarith
import Mathlib.Tactic.Positivity
import Mathlib.Tactic.Ring

/-!
# The parameter scan

The scan form drives a voltage from point to point while it counts events. The time marks
make it go on: a measurement is complete when it has lasted long enough or has enough
events. The numbers are exact ones here. What the form only displays is left out.
-/

namespace MuonDetector.Gui.ScanForm

open MuonDetector.Library MuonDetector.Library.Machine
open MuonDetector.Ublox.Events (Timespec UbxTimeMarkStruct)

def epsilon : ℚ := 1 / 10 ^ 9

/-- `SP_NAMES` -/
inductive ScanPar
  | void
  | thr1
  | thr2
  | bias
  | dac4
  | time
  deriving DecidableEq, Repr

/-- The place in `SP_NAMES`. -/
def ScanPar.index : ScanPar → Nat
  | .void => 0
  | .thr1 => 1
  | .thr2 => 2
  | .bias => 3
  | .dac4 => 4
  | .time => 5

/-- `OP_NAMES` -/
inductive ObsPar
  | void
  | ubxRate
  deriving DecidableEq, Repr

/-- What stands in the input fields. A text that is no number is `none`. -/
structure Inputs where
  timeInterval : Nat
  minRange : Option ℚ
  maxRange : Option ℚ
  activateNrMeasurements : Bool
  nrMeasurements : Nat
  stepSize : Option ℚ
  scanPar : ScanPar
  observable : ObsPar
  limitStatistics : Bool
  maxStatistics : Nat
  deriving DecidableEq, Repr

structure Form where
  active : Bool := false
  lastTM : UbxTimeMarkStruct
  minRange : ℚ := 0
  maxRange : ℚ := 0
  stepSize : ℚ := 1 / 1000
  scanPar : ScanPar := .void
  obsPar : ObsPar := .void
  currentScanPar : ℚ := 0
  currentCounts : UInt64 := 0
  currentTimeInterval : ℚ := 0
  maxMeasurementTimeInterval : ℚ := 1
  maxMeasurementStatistics : UInt64 := 0
  waitForFirst : Bool := false
  /-- The value of the parameter and the rate of each completed measurement. -/
  scanData : List (ℚ × ℚ) := []
  fLastDacs : Fin 4 → ℚ := fun _ => 0

inductive Output
  | setThresholdVoltage (channel : Nat) (value : ℚ)
  | setBiasControlVoltage (value : ℚ)
  | gpioInhibitChanged (inhibitState : Bool)
  | mqttInhibitChanged (inhibitState : Bool)
  /-- A read of `fLastDacs` behind its end. -/
  | outOfRange (index : Nat)
  deriving DecidableEq, Repr

inductive Event
  | scanStartPushButtonClicked (ui : Inputs)
  | uiEnabledStateChange (connected : Bool)
  | dacReadback (channel : Nat) (value : ℚ)
  | timeMark (tm : UbxTimeMarkStruct)

/-! ## The handlers -/

def adjustScanPar (scanPar : ScanPar) (value : ℚ) : List Output :=
  match scanPar with
  | .thr1 => [.setThresholdVoltage 0 value]
  | .thr2 => [.setThresholdVoltage 1 value]
  | .bias => [.setBiasControlVoltage value]
  | .void | .dac4 | .time => []

/-- `adjustScanPar(SP_NAMES[scanPar], fLastDacs[scanPar - 1])`, unless `scanPar` is 0. -/
def restoreScanPar (scanPar : ScanPar) (fLastDacs : Fin 4 → ℚ) : List Output :=
  if 0 < scanPar.index then
    if h : scanPar.index - 1 < 4 then adjustScanPar scanPar (fLastDacs ⟨scanPar.index - 1, h⟩)
    else [.outOfRange (scanPar.index - 1)]
  else []

def finishScan (s : Form) : Form × List Output :=
  ({ s with active := false },
    restoreScanPar s.scanPar s.fLastDacs ++ [.gpioInhibitChanged false, .mqttInhibitChanged false])

/-- With the observable UBXRATE. -/
def scanParIteration (s : Form) : Form × List Output :=
  if s.active then
    let rate := s.currentCounts.toNat / s.currentTimeInterval
    let s := { s with
      scanData := s.scanData ++ [(s.currentScanPar, rate)]
      currentScanPar := s.currentScanPar + s.stepSize }
    if s.currentScanPar > s.maxRange + epsilon then finishScan s
    else ({ s with waitForFirst := true }, adjustScanPar s.scanPar s.currentScanPar)
  else (s, [])

/-- The seconds from one time to another. -/
def elapsed (before after : Timespec) : ℚ :=
  (after.tvNsec - before.tvNsec : Int) * (1 / 10 ^ 9) + (after.tvSec - before.tvSec : Int)

/-- The part of `onTimeMarkReceived` for a running scan. -/
def countTimeMark (tm : UbxTimeMarkStruct) (s : Form) : Form × List Output :=
  if s.waitForFirst then
    ({ s with currentCounts := 0, currentTimeInterval := 0, waitForFirst := false }, [])
  else
    let s := { s with
      currentCounts := s.currentCounts + (tm.evtCounter - s.lastTM.evtCounter).toUInt64
      currentTimeInterval := s.currentTimeInterval + elapsed s.lastTM.rising tm.rising }
    if s.currentTimeInterval > s.maxMeasurementTimeInterval ∨
        (s.currentCounts > s.maxMeasurementStatistics ∧ s.currentTimeInterval > 1) then
      scanParIteration s
    else (s, [])

def onTimeMarkReceived (tm : UbxTimeMarkStruct) (s : Form) : Form × List Output :=
  if tm.risingValid then
    let next := if s.active ∧ s.obsPar = .ubxRate then countTimeMark tm s else (s, [])
    ({ next.1 with lastTM := tm }, next.2)
  else (s, [])

def onDacReadbackReceived (channel : Nat) (value : ℚ) (s : Form) : Form :=
  if h : channel < 4 then
    if s.active then s else { s with fLastDacs := Function.update s.fLastDacs ⟨channel, h⟩ value }
  else s

def onUiEnabledStateChange (connected : Bool) (s : Form) : Form × List Output :=
  if connected then (s, []) else if s.active then finishScan s else (s, [])

/-- The step that is asked for, by the number of measurements or by itself. -/
def stepOf (ui : Inputs) (minRange maxRange : ℚ) : ℚ :=
  if ui.activateNrMeasurements then
    if ui.nrMeasurements < 2 then maxRange + 2 * epsilon
    else (maxRange - minRange) / (ui.nrMeasurements - 1 : Int)
  else ui.stepSize.getD 0

/-- The largest `unsigned long` where the statistics are not limited. -/
def statisticsLimit (ui : Inputs) : UInt64 :=
  if ui.limitStatistics then UInt64.ofNat (10 ^ (ui.maxStatistics + 1)) else 0xFFFFFFFFFFFFFFFF

/-- The part behind the checks. -/
def startScan (ui : Inputs) (s : Form) : Form × List Output :=
  let s := { s with maxMeasurementStatistics := statisticsLimit ui }
  let s := if s.scanPar = .time then
      { s with
        minRange := 0
        maxRange := s.maxMeasurementTimeInterval * (ui.nrMeasurements - 1 : Int)
        stepSize := s.maxMeasurementTimeInterval }
    else s
  ({ s with
      currentScanPar := s.minRange
      active := true
      waitForFirst := true
      scanData := [] },
    [.gpioInhibitChanged true, .mqttInhibitChanged true] ++ adjustScanPar s.scanPar s.minRange)

/-- A number that cannot be read is stored as 0 before the handler returns. -/
def onScanStartPushButtonClicked (ui : Inputs) (s : Form) : Form × List Output :=
  if s.active then finishScan s
  else
    let s := { s with
      maxMeasurementTimeInterval := ui.timeInterval
      minRange := ui.minRange.getD 0 }
    if ui.minRange = none then (s, [])
    else
      let s := { s with maxRange := ui.maxRange.getD 0 }
      if ui.maxRange = none then (s, [])
      else
        let s := { s with stepSize := stepOf ui s.minRange s.maxRange }
        if ui.activateNrMeasurements = false ∧ ui.stepSize = none then (s, [])
        else
          let s := { s with scanPar := ui.scanPar }
          if ui.scanPar = .void then (s, [])
          else
            let s := { s with obsPar := ui.observable }
            if ui.observable = .void then (s, []) else startScan ui s

def handle (s : Form) : Event → Form × List Output
  | .scanStartPushButtonClicked ui => onScanStartPushButtonClicked ui s
  | .uiEnabledStateChange connected => onUiEnabledStateChange connected s
  | .dacReadback channel value => (onDacReadbackReceived channel value s, [])
  | .timeMark tm => onTimeMarkReceived tm s

/-- An event of a running scan, with everything the scan has put out. -/
def scanStep (state : Form × List Output) (event : Event) : Option (Form × List Output) :=
  if state.1.active then
    let next := handle state.1 event
    some (next.1, state.2 ++ next.2)
  else none

end MuonDetector.Gui.ScanForm
