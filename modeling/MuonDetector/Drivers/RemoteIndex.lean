import MuonDetector.Drivers.Adc
import MuonDetector.Drivers.Dac
import MuonDetector.Sources.TcpCommandDecoder

/-!
# Numbers from outside that select an entry

A channel comes with a command of a client, a fix type and the system of a satellite come
with a message of the receiver. Each is used as an index: the channel of a sample into the
arrays of the converter, the channel of a threshold into the table of the channels, the
other two into tables of names. Only the threshold is checked on the way.
-/

namespace MuonDetector.Drivers.RemoteIndex

open MuonDetector.Library.Messages MuonDetector.Library.Floats
open MuonDetector.Hardware.Adc (Answers)
open MuonDetector.Drivers.Adc (ADS1115Driver Idle setAdcSamplingMode handleSampleTrigger
  handleEventTrigger)
open MuonDetector.Drivers.Dac (MCP4728Driver setDacValue setBiasVoltage publishDac
  saveDacValuesToEeprom)
open MuonDetector.Sources.TcpCommandDecoder (BusEvent Command)
open MuonDetector.Ublox.Events (GnssSatellite NavSat NavStatus UbxEvent)

/-! ## Tables of names -/

namespace FixType

/-- `Gnss::FixType::name`. -/
def name : List String := ["NoFix", "DeadReck", "2D", "3D", "GPS+DeadReck", "TimeFix", "N/A"]

end FixType

namespace GnssId

/-- `Gnss::Id::name`. -/
def name : List String := ["GPS", "SBAS", "GAL", "BEID", "IMES", "QZSS", "GLNS", "N/A"]

end GnssId

inductive LogType where
  | never
  | once
  | every
  | latest
  | average
  | onChange
  deriving DecidableEq, Repr

structure LogParameter where
  name : String
  value : String
  logType : LogType := .every
  deriving DecidableEq, Repr

/-- What the log gets of a status. -/
def navStatusLog (event : NavStatus) : Option (List LogParameter) :=
  FixType.name[event.gpsFix.toNat]?.map fun fix =>
    [⟨"fixStatus", toString event.gpsFix.toNat, .latest⟩, ⟨"fixStatusString", fix, .latest⟩,
      ⟨"ubloxUptime", toString (event.msss / 1000).toNat ++ " s", .latest⟩]

/-- The systems of the satellites in what is printed at debug level. -/
def printedSystems (satellites : List GnssSatellite) : Option (List String) :=
  satellites.mapM fun sat => GnssId.name[sat.gnssId.toNat]?

/-! ## The daemon -/

/-- The parts of the daemon that the numbers get to. There is no DAC driver to take commands
when there is no DAC. -/
structure Daemon where
  adc : ADS1115Driver
  dac : Option MCP4728Driver
  debug : Bool
  log : List LogParameter

inductive Remote where
  | command (cmd : BusEvent)
  | ubx (event : UbxEvent)

section

variable (clock : Nat → Nat) (answers : Answers)

/-- A command as the subscribers in the two drivers take it. -/
def handleCommand (s : Daemon) : Command → Option Daemon
  | .adcSampleTrigger cmd =>
    (handleSampleTrigger s.adc cmd answers).map fun adc => { s with adc := adc }
  | .thresholdSetting cmd =>
    match s.dac with
    | none => some s
    | some dac => (setDacValue clock dac cmd).map fun dac => { s with dac := some dac }
  | .biasVoltage cmd =>
    some { s with dac := s.dac.map fun dac => setBiasVoltage clock dac cmd }
  | .empty .dacSettingRequest => some { s with dac := s.dac.map (publishDac clock) }
  | .empty .dacEepromSet => some { s with dac := s.dac.map (saveDacValuesToEeprom clock) }
  | .eventTrigger cmd => some { s with adc := handleEventTrigger s.adc cmd }
  | _ => some s

/-- `none` stands for an access outside an array. The other messages select no entry of one. -/
def handle (s : Daemon) : Remote → Option Daemon
  | .command (.command cmd) => handleCommand clock answers s cmd
  | .command (.adcMode event) => some { s with adc := setAdcSamplingMode s.adc event.mode }
  | .ubx (.navStatus event) =>
    (navStatusLog event).map fun params => { s with log := s.log ++ params }
  | .ubx (.navSat data) =>
    if s.debug then (printedSystems data.satellites).map fun _ => s else some s
  | _ => some s

end

/-- The number in the message has no entry in its array. -/
def Outside : Remote → Prop
  | .command (.command (.adcSampleTrigger cmd)) => ¬cmd.channel ≤ 3
  | .command (.command (.thresholdSetting cmd)) => ¬cmd.channel ≤ 3
  | .ubx (.navStatus event) => ¬event.gpsFix ≤ 6
  | .ubx (.navSat data) => ∃ sat ∈ data.satellites, ¬sat.gnssId ≤ 7
  | _ => False

/-- All accesses are inside the arrays, and a number without an entry leaves the devices as
they are. -/
def Checked (clock : Nat → Nat) (answers : Answers) (s : Daemon) (r : Remote) : Prop :=
  ∃ s', handle clock answers s r = some s' ∧ (Outside r → s'.adc = s.adc ∧ s'.dac = s.dac)

/-- The numbers that nobody checks have an entry, or are not used. -/
def Selects (s : Daemon) : Remote → Prop
  | .command (.command (.adcSampleTrigger cmd)) => cmd.channel ≤ 3 ∨ Idle s.adc
  | .ubx (.navStatus event) => event.gpsFix ≤ 6
  | .ubx (.navSat data) => s.debug → ∀ sat ∈ data.satellites, sat.gnssId ≤ 7
  | _ => True

/-! ## What each message does -/

theorem navStatusLog_isSome (event : NavStatus) :
    (navStatusLog event).isSome ↔ event.gpsFix ≤ 6 := by
  rw [UInt8.le_iff_toNat_le]
  simp [navStatusLog, FixType.name, Nat.lt_succ_iff]

theorem printedSystems_isSome (satellites : List GnssSatellite) :
    (printedSystems satellites).isSome ↔ ∀ sat ∈ satellites, sat.gnssId ≤ 7 := by
  induction satellites with
  | nil => simp [printedSystems]
  | cons sat satellites ih =>
    have hname : (GnssId.name[sat.gnssId.toNat]?).isSome ↔ sat.gnssId ≤ 7 := by
      rw [UInt8.le_iff_toNat_le]
      simp [GnssId.name, Nat.lt_succ_iff]
    rw [List.forall_mem_cons, ← hname, ← ih]
    simp only [printedSystems, List.mapM_cons]
    cases GnssId.name[sat.gnssId.toNat]? with
    | none => simp
    | some system =>
      cases satellites.mapM fun sat => GnssId.name[sat.gnssId.toNat]? <;> simp

section

variable (clock : Nat → Nat) (answers : Answers)

theorem sampleTrigger_checked (s : Daemon) (cmd : Capnp.CommandCodecs.AdcSampleTriggerCmd) :
    Checked clock answers s (.command (.command (.adcSampleTrigger cmd))) ↔
      cmd.channel ≤ 3 ∨ Idle s.adc := by
  by_cases hidle : Idle s.adc
  · have hsame := Adc.sampleAdcEvent_idle hidle cmd.channel answers
    refine iff_of_true ⟨s, ?_, fun _ => ⟨rfl, rfl⟩⟩ (Or.inr hidle)
    simp [handle, handleCommand, handleSampleTrigger, hsame]
  · have hinside := Adc.sampleAdcEvent_isSome hidle cmd.channel answers
    rw [or_iff_left hidle]
    constructor
    · rintro ⟨s', hs', -⟩
      rw [← hinside]
      obtain ⟨adc, hadc, -⟩ := Option.map_eq_some_iff.mp hs'
      exact Option.isSome_iff_exists.mpr ⟨adc, hadc⟩
    · intro hle
      obtain ⟨adc, hadc⟩ := Option.isSome_iff_exists.mp (hinside.mpr hle)
      refine ⟨{ s with adc := adc }, ?_, fun houtside => absurd hle houtside⟩
      simp [handle, handleCommand, handleSampleTrigger, hadc]

theorem thresholdSetting_checked (s : Daemon) (cmd : Capnp.CommandCodecs.ThresholdSettingCmd) :
    Checked clock answers s (.command (.command (.thresholdSetting cmd))) := by
  cases hdac : s.dac with
  | none =>
    refine ⟨s, ?_, fun _ => ⟨rfl, rfl⟩⟩
    simp [handle, handleCommand, hdac]
  | some dac =>
    by_cases hrange : cmd.channel > 3
    · refine ⟨{ s with dac := some dac }, ?_, fun _ => ⟨rfl, hdac.symm⟩⟩
      simp [handle, handleCommand, hdac, Dac.setDacValue_range clock hrange]
    · obtain ⟨dac', hset⟩ := Option.isSome_iff_exists.mp (Dac.setDacValue_isSome clock dac cmd)
      refine ⟨{ s with dac := some dac' }, ?_, fun houtside => ?_⟩
      · simp [handle, handleCommand, hdac, hset]
      · exact absurd (UInt8.not_lt.mp hrange) houtside

theorem navStatus_checked (s : Daemon) (event : NavStatus) :
    Checked clock answers s (.ubx (.navStatus event)) ↔ event.gpsFix ≤ 6 := by
  rw [← navStatusLog_isSome]
  constructor
  · rintro ⟨s', hs', -⟩
    obtain ⟨params, hparams, -⟩ := Option.map_eq_some_iff.mp hs'
    exact Option.isSome_iff_exists.mpr ⟨params, hparams⟩
  · intro hsome
    obtain ⟨params, hparams⟩ := Option.isSome_iff_exists.mp hsome
    refine ⟨{ s with log := s.log ++ params }, ?_, fun _ => ⟨rfl, rfl⟩⟩
    simp [handle, hparams]

theorem navSat_checked (s : Daemon) (data : NavSat) :
    Checked clock answers s (.ubx (.navSat data)) ↔
      (s.debug → ∀ sat ∈ data.satellites, sat.gnssId ≤ 7) := by
  rw [← printedSystems_isSome]
  by_cases hdebug : s.debug
  · rw [forall_prop_of_true hdebug]
    constructor
    · rintro ⟨s', hs', -⟩
      rw [handle, if_pos hdebug] at hs'
      obtain ⟨systems, hsystems, -⟩ := Option.map_eq_some_iff.mp hs'
      exact Option.isSome_iff_exists.mpr ⟨systems, hsystems⟩
    · intro hsome
      obtain ⟨systems, hsystems⟩ := Option.isSome_iff_exists.mp hsome
      refine ⟨s, ?_, fun _ => ⟨rfl, rfl⟩⟩
      simp [handle, hdebug, hsystems]
  · refine iff_of_true ⟨s, ?_, fun _ => ⟨rfl, rfl⟩⟩ fun h => absurd h hdebug
    simp [handle, hdebug]

/-- **Indices from outside.** A message is answered with all accesses inside the arrays, and
without a change of a device when its number has no entry, exactly when the numbers that
nobody checks have an entry or are not used. -/
theorem remote_index_iff (s : Daemon) (r : Remote) :
    Checked clock answers s r ↔ Selects s r := by
  cases r with
  | command event =>
    cases event with
    | command cmd =>
      cases cmd with
      | adcSampleTrigger cmd => exact sampleTrigger_checked clock answers s cmd
      | thresholdSetting cmd =>
        exact iff_of_true (thresholdSetting_checked clock answers s cmd) trivial
      | empty cmd => cases cmd <;> exact iff_of_true ⟨_, rfl, False.elim⟩ trivial
      | _ => exact iff_of_true ⟨_, rfl, False.elim⟩ trivial
    | _ => exact iff_of_true ⟨_, rfl, False.elim⟩ trivial
  | ubx event =>
    cases event with
    | navStatus event => exact navStatus_checked clock answers s event
    | navSat data => exact navSat_checked clock answers s data
    | _ => exact iff_of_true ⟨_, rfl, False.elim⟩ trivial

end

/-- A converter that samples peaks, and no other device. -/
def samplingDaemon : Daemon where
  adc := { deviceId := 0x49, device := some {} }
  dac := none
  debug := true
  log := []

def answering : Answers where
  configWritten := true
  finished := true
  result := some 100
  now := 0

/-- The fifth channel of four, the eighth fix type of seven, and the ninth system of eight. -/
theorem channel_unchecked :
    ¬Checked id answering samplingDaemon (.command (.command (.adcSampleTrigger ⟨4⟩))) ∧
      ¬Checked id answering samplingDaemon (.ubx (.navStatus ⟨0, 7, 0, 0, 0, 0⟩)) ∧
      ¬Checked id answering samplingDaemon
        (.ubx (.navSat ⟨0, none, none, 1, 1, [.ofFlags 8 1 30 0 0 ⟨0, 10⟩ 0]⟩)) := by
  rw [sampleTrigger_checked, navStatus_checked, navSat_checked]
  decide

end MuonDetector.Drivers.RemoteIndex
