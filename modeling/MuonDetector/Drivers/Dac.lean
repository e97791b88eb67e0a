import MuonDetector.Hardware.Dac
import MuonDetector.Capnp.EventCodecs
import MuonDetector.Capnp.CommandCodecs
import MuonDetector.Library.Machine

/-!
# The events of the converter

`MCP4728Driver` publishes the settings of the converter when it is made, after commands
that set a voltage and when it is asked. What is published last is what clients are shown.
-/

namespace MuonDetector.Drivers.Dac

open MuonDetector.Library MuonDetector.Library.Messages MuonDetector.Library.Floats
open MuonDetector.Hardware.Dac
open MuonDetector.Capnp.EventCodecs (MCP4728Event)
open MuonDetector.Capnp.CommandCodecs (ThresholdSettingCmd BiasVoltageCmd)

/-- The part of the configuration that the driver reads and fills in. -/
structure SystemConfig where
  thresholdVoltage : Fin 2 → Binary32
  biasVoltage : Binary32

namespace Channel

def bias : UInt8 := 2

def threshold : List UInt8 := [0, 1]

def dac4 : UInt8 := 3

end Channel

namespace Voltage

def bias : Binary32 := 0.5

def threshold : Fin 2 → Binary32
  | 0 => 0.1
  | 1 => 1.0

end Voltage

/-- The driver with its device, the configuration and the events that it has published to be
stored. -/
structure MCP4728Driver where
  device : Mcp4728
  config : SystemConfig
  published : List MCP4728Event

def emplace {V : Type} (m : UInt8 → Option V) (key : UInt8) (value : V) : UInt8 → Option V :=
  Function.update m key (some ((m key).getD value))

def key (channel : Fin 4) : UInt8 := UInt8.ofNat channel.val

section

variable (clock : Nat → Nat)

/-- The body of the loop of `readEeprom`. -/
def readEepromChannel (acc : Mcp4728 × (UInt8 → Option DacChannel)) (channel : Fin 4) :
    Mcp4728 × (UInt8 → Option DacChannel) :=
  let (device, data) := readChannel clock acc.1 channel true
  (device, emplace acc.2 (key channel) data)

def readEeprom (device : Mcp4728) : Mcp4728 × (UInt8 → Option DacChannel) :=
  (List.finRange 4).foldl (readEepromChannel clock) (device, fun _ => none)

/-- The body of the loop of `readDac`. -/
def readDacChannel (acc : Mcp4728 × MCP4728Event) (channel : Fin 4) : Mcp4728 × MCP4728Event :=
  let (device, data) := readChannel clock acc.1 channel false
  (device, { acc.2 with
    dacValues := emplace acc.2.dacValues (key channel) data.value
    voltages := emplace acc.2.voltages (key channel) (code2voltage data) })

def readDac (device : Mcp4728) : Mcp4728 × MCP4728Event :=
  (List.finRange 4).foldl (readDacChannel clock) (device, ⟨fun _ => none, none, fun _ => none⟩)

def readAll (device : Mcp4728) : Mcp4728 × MCP4728Event :=
  let (device, event) := readDac clock device
  let (device, eepromData) := readEeprom clock device
  (device, { event with eepromValues := some fun k => (eepromData k).map DacChannel.value })

/-- The voltage of an event that was read of all channels. -/
def voltageAt (event : MCP4728Event) (channel : UInt8) : Binary32 :=
  (event.voltages channel).getD {}

/-- `setVoltage` where its answer is not asked for. -/
def tryVoltage (device : Mcp4728) (channel : UInt8) (voltage : Binary32) : Mcp4728 :=
  (setVoltage clock device channel.toNat voltage).1

/-- `setVoltage` for a voltage that is configured. -/
def setConfigured (device : Mcp4728) (channel : UInt8) (voltage : Binary32) : Mcp4728 :=
  if voltage > 0.0 then tryVoltage clock device channel voltage else device

/-- The default voltages, when the EEPROM has none. -/
def setDefaults (device : Mcp4728) : Mcp4728 :=
  let device := tryVoltage clock device Channel.bias Voltage.bias
  let device := tryVoltage clock device Channel.threshold[0] (Voltage.threshold 0)
  tryVoltage clock device Channel.threshold[1] (Voltage.threshold 1)

/-- The thresholds that are not configured are those of the event. -/
def fillThresholds (config : SystemConfig) (event : MCP4728Event) : SystemConfig :=
  { config with thresholdVoltage := fun i =>
      if config.thresholdVoltage i < 0.0 then voltageAt event Channel.threshold[i]
      else config.thresholdVoltage i }

def fillBias (config : SystemConfig) (event : MCP4728Event) : SystemConfig :=
  if config.biasVoltage < 0.0 then { config with biasVoltage := voltageAt event Channel.bias }
  else config

/-- The constructor, for a device that the registry has. -/
def construct (device : Mcp4728) (config : SystemConfig) : MCP4728Driver :=
  let (device, event) := readAll clock device
  let config := fillThresholds config event
  let eepromBias := (event.eepromValues.bind fun values => values Channel.bias).getD 0
  let (device, event) :=
    if eepromBias = 0 then readAll clock (setDefaults clock device) else (device, event)
  let config := fillBias config event
  let device := setConfigured clock device Channel.threshold[0] (config.thresholdVoltage 0)
  let device := setConfigured clock device Channel.threshold[1] (config.thresholdVoltage 1)
  let device := setConfigured clock device Channel.bias config.biasVoltage
  { device := device, config := config, published := [event] }

def publish (s : MCP4728Driver) (event : MCP4728Event) : MCP4728Driver :=
  { s with published := s.published ++ [event] }

/-- Reads the registers and publishes them. -/
def publishDac (s : MCP4728Driver) : MCP4728Driver :=
  let (device, event) := readDac clock s.device
  publish { s with device := device } event

/-- `none` stands for an access outside the table of the thresholds. -/
def setDacValue (s : MCP4728Driver) (cmd : ThresholdSettingCmd) : Option MCP4728Driver :=
  if cmd.channel > 3 then some s
  else if cmd.value < 0.0 then some s
  else if cmd.channel = Channel.bias ∨ cmd.channel = Channel.dac4 then
    some { s with device := tryVoltage clock s.device cmd.channel cmd.value }
  else
    let value := if cmd.value > 4.095 then 4.095 else cmd.value
    Channel.threshold[cmd.channel.toNat]?.map fun channel =>
      let (device, success) := setVoltage clock s.device channel.toNat value
      let s := { s with device := device }
      if success then publishDac clock s else s

def saveDacValuesToEeprom (s : MCP4728Driver) : MCP4728Driver :=
  { s with device := (storeSettings clock s.device).1 }

def setBiasVoltage (s : MCP4728Driver) (cmd : BiasVoltageCmd) : MCP4728Driver :=
  publishDac clock { s with device := tryVoltage clock s.device Channel.bias cmd.voltage }

inductive Command where
  | thresholdSetting (cmd : ThresholdSettingCmd)
  | biasVoltage (cmd : BiasVoltageCmd)
  | dacSettingRequest

def step (s : MCP4728Driver) : Command → Option MCP4728Driver
  | .thresholdSetting cmd => setDacValue clock s cmd
  | .biasVoltage cmd => some (setBiasVoltage clock s cmd)
  | .dacSettingRequest => some (publishDac clock s)

end

/-! ## What is read -/

variable (clock : Nat → Nat)

/-- The event has the codes and the voltages of the registers. -/
def Shows (event : MCP4728Event) (registers : Fin 4 → DacChannel) : Prop :=
  ∀ channel, event.dacValues (key channel) = some (registers channel).value ∧
    event.voltages (key channel) = some (code2voltage (registers channel))

/-- The event has the values of the EEPROM. -/
def Carries (event : MCP4728Event) (registers : Fin 4 → DacChannel) : Prop :=
  ∃ values, event.eepromValues = some values ∧
    ∀ channel, values (key channel) = some (registers channel).value

theorem readChannel_known {d : Mcp4728} (h : Known d) (channel : Fin 4) (eeprom : Bool) :
    ∃ d', Synced d' ∧ d'.chip = d.chip ∧ readChannel clock d channel eeprom =
      (d', if eeprom then stored d.chip channel else output d.chip channel) := by
  have hsynced := synced_readRegisters clock h
  have hchip := readRegisters_chip clock d
  refine ⟨readRegisters clock d, hsynced, hchip, ?_⟩
  rw [readChannel, hsynced.stored, hsynced.output, hchip]

/-- Reading the channels one by one goes through the registers of the chip. -/
theorem foldl_readChannel {β : Type} (add : β → Fin 4 → DacChannel → β) (eeprom : Bool)
    {d : Mcp4728} (h : Known d) (channels : List (Fin 4)) (hne : channels ≠ []) (b : β) :
    ∃ d', channels.foldl (fun acc channel =>
        let (device, data) := readChannel clock acc.1 channel eeprom
        (device, add acc.2 channel data)) (d, b) =
      (d', channels.foldl (fun b channel =>
        add b channel (if eeprom then stored d.chip channel else output d.chip channel)) b) ∧
      Synced d' ∧ d'.chip = d.chip := by
  induction channels generalizing d b with
  | nil => exact absurd rfl hne
  | cons channel channels ih =>
    obtain ⟨d', hsynced, hchip, hread⟩ := readChannel_known clock h channel eeprom
    simp only [List.foldl_cons, hread]
    by_cases hlast : channels = []
    · subst hlast
      exact ⟨d', rfl, hsynced, hchip⟩
    · obtain ⟨d'', hfold, hsynced', hchip'⟩ := ih (Or.inl hsynced) hlast
        (add b channel (if eeprom then stored d.chip channel else output d.chip channel))
      rw [hchip] at hfold hchip'
      exact ⟨d'', hfold, hsynced', hchip'⟩

theorem readDac_known {d : Mcp4728} (h : Known d) : ∃ d' event, readDac clock d = (d', event) ∧
    Synced d' ∧ d'.chip = d.chip ∧ Shows event (output d.chip) ∧ event.eepromValues = none := by
  obtain ⟨d', hfold, hsynced, hchip⟩ := foldl_readChannel clock
    (fun (event : MCP4728Event) channel data => { event with
      dacValues := emplace event.dacValues (key channel) data.value
      voltages := emplace event.voltages (key channel) (code2voltage data) })
    false h (List.finRange 4) (List.cons_ne_nil _ _) ⟨fun _ => none, none, fun _ => none⟩
  refine ⟨d', _, hfold, hsynced, hchip, ?_, rfl⟩
  intro channel
  fin_cases channel <;> exact ⟨rfl, rfl⟩

theorem readEeprom_known {d : Mcp4728} (h : Known d) : ∃ d' values,
    readEeprom clock d = (d', values) ∧ Synced d' ∧ d'.chip = d.chip ∧
      ∀ channel, values (key channel) = some (stored d.chip channel) := by
  obtain ⟨d', hfold, hsynced, hchip⟩ := foldl_readChannel clock
    (fun values channel data => emplace values (key channel) data)
    true h (List.finRange 4) (List.cons_ne_nil _ _) fun _ => none
  refine ⟨d', _, hfold, hsynced, hchip, ?_⟩
  intro channel
  fin_cases channel <;> rfl

theorem readAll_known {d : Mcp4728} (h : Known d) : ∃ d' event, readAll clock d = (d', event) ∧
    Synced d' ∧ d'.chip = d.chip ∧ Shows event (output d.chip) ∧
      Carries event (stored d.chip) := by
  obtain ⟨d', event, hdac, hsynced, hchip, hshows, -⟩ := readDac_known clock h
  obtain ⟨d'', values, heeprom, hsynced', hchip', hvalues⟩ :=
    readEeprom_known clock (Or.inl hsynced)
  rw [hchip] at hchip' hvalues
  refine ⟨d'', { event with eepromValues := some fun k => (values k).map DacChannel.value }, ?_,
    hsynced', hchip', hshows, _, rfl, ?_⟩
  · simp only [readAll, hdac, heeprom]
  · intro channel
    rw [hvalues, Option.map_some]

/-! ## Registers that are written -/

/-- The codes and the voltages are the same. -/
def SameCode (a b : DacChannel) : Prop :=
  a.value = b.value ∧ (code2voltage a : Binary32) = code2voltage b

/-- Asking for the voltage leaves the code and the voltage of the register as they are. -/
def KeepsRegister (setting : DacChannel) (voltage : Binary32) : Prop :=
  ∀ data ∈ encoded setting voltage, SameCode data setting

instance SameCode.decidable (a b : DacChannel) : Decidable (SameCode a b) :=
  inferInstanceAs (Decidable (_ ∧ _))

instance KeepsRegister.decidable (setting : DacChannel) (voltage : Binary32) :
    Decidable (KeepsRegister setting voltage) :=
  inferInstanceAs (Decidable (∀ data ∈ encoded setting voltage, SameCode data setting))

/-- The registers after `setConfigured`. -/
def configured (registers : Fin 4 → DacChannel) (channel : Fin 4) (voltage : Binary32) :
    Fin 4 → DacChannel :=
  if voltage > 0.0 then written registers channel voltage else registers

theorem Shows.iff_sameCode {event : MCP4728Event} {registers : Fin 4 → DacChannel}
    (h : Shows event registers) (registers' : Fin 4 → DacChannel) :
    Shows event registers' ↔ ∀ channel, SameCode (registers' channel) (registers channel) := by
  refine forall_congr' fun channel => ?_
  obtain ⟨hvalue, hvoltage⟩ := h channel
  rw [hvalue, hvoltage, Option.some.injEq, Option.some.injEq]
  exact ⟨fun h => ⟨h.1.symm, h.2.symm⟩, fun h => ⟨h.1.symm, h.2.symm⟩⟩

theorem sameCode_written (registers : Fin 4 → DacChannel) (channel : Fin 4) (voltage : Binary32) :
    SameCode (written registers channel voltage channel) (registers channel) ↔
      KeepsRegister (registers channel) voltage := by
  rw [written, Function.update_self]
  cases hencoded : encoded (registers channel) voltage with
  | none => simp [KeepsRegister, hencoded, SameCode]
  | some data => simp [KeepsRegister, hencoded]

theorem written_of_ne {registers : Fin 4 → DacChannel} {channel k : Fin 4} (h : k ≠ channel)
    (voltage : Binary32) : written registers channel voltage k = registers k :=
  Function.update_of_ne h _ _

theorem configured_of_ne {registers : Fin 4 → DacChannel} {channel k : Fin 4} (h : k ≠ channel)
    (voltage : Binary32) : configured registers channel voltage k = registers k := by
  unfold configured
  split
  · exact written_of_ne h voltage
  · rfl

theorem sameCode_configured {registers : Fin 4 → DacChannel} {channel : Fin 4}
    {setting : DacChannel} (h : registers channel = setting) (voltage : Binary32) :
    SameCode (configured registers channel voltage channel) setting ↔
      (voltage > 0.0 → KeepsRegister setting voltage) := by
  unfold configured
  by_cases hpos : voltage > 0.0
  · rw [if_pos hpos, ← h, sameCode_written]
    exact ⟨fun hkeeps _ => hkeeps, fun hkeeps => hkeeps hpos⟩
  · rw [if_neg hpos, h]
    exact iff_of_true ⟨rfl, rfl⟩ fun hpos' => absurd hpos' hpos

theorem tryVoltage_synced {d : Mcp4728} (h : Synced d) (channel : Fin 4) (voltage : Binary32) :
    Synced (tryVoltage clock d (key channel) voltage) ∧
      output (tryVoltage clock d (key channel) voltage).chip =
        written (output d.chip) channel voltage ∧
      stored (tryVoltage clock d (key channel) voltage).chip = stored d.chip := by
  have hkey : (key channel).toNat = channel := by
    revert channel
    decide
  obtain ⟨d', hset, hsynced, houtput, hstored⟩ :=
    setVoltage_synced clock h channel voltage
  rw [tryVoltage, hkey, hset]
  exact ⟨hsynced, houtput, hstored⟩

theorem setConfigured_synced {d : Mcp4728} (h : Synced d) (channel : Fin 4) (voltage : Binary32) :
    Synced (setConfigured clock d (key channel) voltage) ∧
      output (setConfigured clock d (key channel) voltage).chip =
        configured (output d.chip) channel voltage ∧
      stored (setConfigured clock d (key channel) voltage).chip = stored d.chip := by
  unfold setConfigured configured
  by_cases hpos : voltage > 0.0
  · rw [if_pos hpos, if_pos hpos]
    exact tryVoltage_synced clock h channel voltage
  · rw [if_neg hpos, if_neg hpos]
    exact ⟨h, rfl, rfl⟩

/-! ## The constructor -/

/-- The registers before the configured voltages are written. -/
def startRegisters (chip : Chip) : Fin 4 → DacChannel :=
  if (stored chip 2).value = 0 then
    written (written (written (output chip) 2 Voltage.bias) 0 (Voltage.threshold 0)) 1
      (Voltage.threshold 1)
  else output chip

/-- The threshold that is written at the end. -/
def startThreshold (chip : Chip) (config : SystemConfig) (i : Fin 2) : Binary32 :=
  if config.thresholdVoltage i < 0.0 then code2voltage (output chip (i.castLE (by decide)))
  else config.thresholdVoltage i

def startBias (chip : Chip) (config : SystemConfig) : Binary32 :=
  if config.biasVoltage < 0.0 then code2voltage (startRegisters chip 2) else config.biasVoltage

/-- The voltages that are written at the end are those that the registers have. -/
def KeepsAtStart (chip : Chip) (config : SystemConfig) : Prop :=
  (startThreshold chip config 0 > 0.0 →
    KeepsRegister (startRegisters chip 0) (startThreshold chip config 0)) ∧
  (startThreshold chip config 1 > 0.0 →
    KeepsRegister (startRegisters chip 1) (startThreshold chip config 1)) ∧
  (startBias chip config > 0.0 → KeepsRegister (startRegisters chip 2) (startBias chip config))

instance KeepsAtStart.decidable (chip : Chip) (config : SystemConfig) :
    Decidable (KeepsAtStart chip config) :=
  inferInstanceAs (Decidable ((_ → _) ∧ (_ → _) ∧ (_ → _)))

/-- The output registers after construction. -/
def constructedRegisters (chip : Chip) (config : SystemConfig) : Fin 4 → DacChannel :=
  configured (configured (configured (startRegisters chip) 0 (startThreshold chip config 0)) 1
    (startThreshold chip config 1)) 2 (startBias chip config)

theorem setDefaults_synced {d : Mcp4728} (h : Synced d) (hbias : (stored d.chip 2).value = 0) :
    Synced (setDefaults clock d) ∧ output (setDefaults clock d).chip = startRegisters d.chip ∧
      stored (setDefaults clock d).chip = stored d.chip := by
  obtain ⟨h2, ho2, hs2⟩ := tryVoltage_synced clock h 2 Voltage.bias
  obtain ⟨h0, ho0, hs0⟩ := tryVoltage_synced clock h2 0 (Voltage.threshold 0)
  obtain ⟨h1, ho1, hs1⟩ := tryVoltage_synced clock h0 1 (Voltage.threshold 1)
  refine ⟨h1, ?_, ?_⟩
  · rw [startRegisters, if_pos hbias, ← ho2, ← ho0, ← ho1]
    rfl
  · rw [← hs2, ← hs0, ← hs1]
    rfl

theorem fillThresholds_shown {chip : Chip} {event : MCP4728Event} (h : Shows event (output chip))
    (config : SystemConfig) : fillThresholds config event =
      { config with thresholdVoltage := startThreshold chip config } := by
  have hvoltage : ∀ i : Fin 2, voltageAt event Channel.threshold[i] =
      code2voltage (output chip (i.castLE (by decide))) := by
    intro i
    have hshown := (h (i.castLE (by decide))).2
    fin_cases i <;> exact congrArg (fun voltage : Option Binary32 => voltage.getD {}) hshown
  simp only [fillThresholds, hvoltage]
  rfl

theorem fillBias_shown {chip : Chip} {event : MCP4728Event}
    (h : Shows event (startRegisters chip)) (config : SystemConfig) :
    (fillBias config event).biasVoltage = startBias chip config ∧
      (fillBias config event).thresholdVoltage = config.thresholdVoltage := by
  have hvoltage : voltageAt event Channel.bias = code2voltage (startRegisters chip 2) :=
    congrArg (fun voltage : Option Binary32 => voltage.getD {}) (h 2).2
  unfold fillBias startBias
  rw [hvoltage]
  split <;> exact ⟨rfl, rfl⟩

theorem construct_known {d : Mcp4728} (h : Known d) (config : SystemConfig) :
    ∃ event, (construct clock d config).published = [event] ∧
      Shows event (startRegisters d.chip) ∧ Carries event (stored d.chip) ∧
      Synced (construct clock d config).device ∧
      output (construct clock d config).device.chip = constructedRegisters d.chip config := by
  obtain ⟨d1, event, hread, hsynced, hchip, hshows, hcarries⟩ := readAll_known clock h
  have hbias : (event.eepromValues.bind fun values => values Channel.bias).getD 0 =
      (stored d.chip 2).value := by
    obtain ⟨values, hvalues, hentry⟩ := hcarries
    rw [hvalues]
    exact congrArg (fun value : Option UInt16 => value.getD 0) (hentry 2)
  have hsettled : ∃ d2 event2, (if (stored d.chip 2).value = 0 then
        readAll clock (setDefaults clock d1) else (d1, event)) = (d2, event2) ∧
      Synced d2 ∧ output d2.chip = startRegisters d.chip ∧
      Shows event2 (startRegisters d.chip) ∧ Carries event2 (stored d.chip) := by
    by_cases hzero : (stored d.chip 2).value = 0
    · obtain ⟨hdefaults, houtput, hstored⟩ :=
        setDefaults_synced clock hsynced (by rw [hchip]; exact hzero)
      obtain ⟨d2, event2, hread2, hsynced2, hchip2, hshows2, hcarries2⟩ :=
        readAll_known clock (Or.inl hdefaults)
      rw [houtput, hchip] at hshows2
      rw [hstored, hchip] at hcarries2
      refine ⟨d2, event2, by rw [if_pos hzero, hread2], hsynced2, ?_, hshows2, hcarries2⟩
      rw [hchip2, houtput, hchip]
    · have hstart : startRegisters d.chip = output d.chip := if_neg hzero
      rw [hstart]
      exact ⟨d1, event, if_neg hzero, hsynced, by rw [hchip], hshows, hcarries⟩
  obtain ⟨d2, event2, hsettle, hsynced2, houtput2, hshows2, hcarries2⟩ := hsettled
  obtain ⟨hfillBias, hfillThreshold⟩ := fillBias_shown hshows2
    { config with thresholdVoltage := startThreshold d.chip config }
  obtain ⟨h0, ho0, -⟩ := setConfigured_synced clock hsynced2 0
    (startThreshold d.chip config 0)
  obtain ⟨h1, ho1, -⟩ := setConfigured_synced clock h0 1
    (startThreshold d.chip config 1)
  obtain ⟨h2, ho2, -⟩ := setConfigured_synced clock h1 2 (startBias d.chip config)
  have hconstruct : construct clock d config =
      { device := setConfigured clock (setConfigured clock (setConfigured clock d2 (key 0)
          (startThreshold d.chip config 0)) (key 1) (startThreshold d.chip config 1)) (key 2)
          (startBias d.chip config)
        config := fillBias { config with thresholdVoltage := startThreshold d.chip config } event2
        published := [event2] } := by
    simp only [construct, hread, hbias, hsettle, fillThresholds_shown hshows, hfillBias,
      hfillThreshold]
    rfl
  rw [hconstruct]
  refine ⟨event2, rfl, hshows2, hcarries2, h2, ?_⟩
  rw [ho2, ho1, ho0, houtput2]
  rfl

/-- The registers are as the constructor has published them exactly when the voltages that
it writes at the end were there already. -/
theorem sameCode_constructed (chip : Chip) (config : SystemConfig) :
    (∀ channel, SameCode (constructedRegisters chip config channel) (startRegisters chip channel)) ↔
      KeepsAtStart chip config := by
  have h0 : SameCode (constructedRegisters chip config 0) (startRegisters chip 0) ↔
      (startThreshold chip config 0 > 0.0 →
        KeepsRegister (startRegisters chip 0) (startThreshold chip config 0)) := by
    rw [constructedRegisters, configured_of_ne (by decide), configured_of_ne (by decide)]
    exact sameCode_configured rfl _
  have h1 : SameCode (constructedRegisters chip config 1) (startRegisters chip 1) ↔
      (startThreshold chip config 1 > 0.0 →
        KeepsRegister (startRegisters chip 1) (startThreshold chip config 1)) := by
    rw [constructedRegisters, configured_of_ne (by decide)]
    exact sameCode_configured (configured_of_ne (by decide) _) _
  have h2 : SameCode (constructedRegisters chip config 2) (startRegisters chip 2) ↔
      (startBias chip config > 0.0 →
        KeepsRegister (startRegisters chip 2) (startBias chip config)) := by
    rw [constructedRegisters]
    refine sameCode_configured ?_ _
    rw [configured_of_ne (by decide), configured_of_ne (by decide)]
  have h3 : constructedRegisters chip config 3 = startRegisters chip 3 := by
    rw [constructedRegisters, configured_of_ne (by decide), configured_of_ne (by decide),
      configured_of_ne (by decide)]
  constructor
  · intro h
    exact ⟨h0.mp (h 0), h1.mp (h 1), h2.mp (h 2)⟩
  · rintro ⟨k0, k1, k2⟩ channel
    fin_cases channel
    · exact h0.mpr k0
    · exact h1.mpr k1
    · exact h2.mpr k2
    · exact h3 ▸ ⟨rfl, rfl⟩

/-! ## Commands -/

/-- The last event has the codes and the voltages of the registers. -/
def Mirrored (s : MCP4728Driver) : Prop :=
  ∃ event, s.published.getLast? = some event ∧ Shows event (output s.device.chip)

/-- The last event has the values of the EEPROM at the start. -/
def Carried (eeprom : Fin 4 → DacChannel) (s : MCP4728Driver) : Prop :=
  ∃ event, s.published.getLast? = some event ∧ Carries event eeprom

/-- A voltage for a channel without a threshold leaves its register as it is. -/
def KeepsCodes (s : MCP4728Driver) : Command → Prop
  | .thresholdSetting cmd => cmd.channel = Channel.bias ∨ cmd.channel = Channel.dac4 →
      KeepsRegister (output s.device.chip (Fin.ofNat 4 cmd.channel.toNat)) cmd.value
  | .biasVoltage _ => True
  | .dacSettingRequest => True

instance KeepsCodes.decidable (s : MCP4728Driver) (c : Command) : Decidable (KeepsCodes s c) :=
  match c with
  | .thresholdSetting _ => inferInstanceAs (Decidable (_ ∨ _ → _))
  | .biasVoltage _ => .isTrue trivial
  | .dacSettingRequest => .isTrue trivial

/-- The voltage that `setDacValue` asks for. -/
def clamped (value : Binary32) : Binary32 := if value > 4.095 then 4.095 else value

/-- The command publishes nothing. -/
def KeepsEeprom (s : MCP4728Driver) : Command → Prop
  | .thresholdSetting cmd => cmd.channel ∈ Channel.threshold → cmd.value < 0.0 ∨
      encoded (output s.device.chip (Fin.ofNat 4 cmd.channel.toNat)) (clamped cmd.value) = none
  | .biasVoltage _ => False
  | .dacSettingRequest => False

instance KeepsEeprom.decidable (s : MCP4728Driver) (c : Command) : Decidable (KeepsEeprom s c) :=
  match c with
  | .thresholdSetting _ => inferInstanceAs (Decidable (_ ∈ _ → _ ∨ _))
  | .biasVoltage _ => .isFalse id
  | .dacSettingRequest => .isFalse id

theorem publishDac_synced {s : MCP4728Driver} (h : Synced s.device) :
    Synced (publishDac clock s).device ∧ Mirrored (publishDac clock s) ∧
      ∀ eeprom, ¬Carried eeprom (publishDac clock s) := by
  obtain ⟨d', event, hread, hsynced, hchip, hshows, heeprom⟩ :=
    readDac_known clock (Or.inl h)
  have hpublish : publishDac clock s =
      { s with device := d', published := s.published ++ [event] } := by
    simp only [publishDac, hread, publish]
  rw [hpublish]
  refine ⟨hsynced, ⟨event, List.getLast?_concat, ?_⟩, ?_⟩
  · show Shows event (output d'.chip)
    rw [hchip]
    exact hshows
  · rintro eeprom ⟨event', hlast, values, hvalues, -⟩
    obtain rfl : event = event' := Option.some.inj (List.getLast?_concat.symm.trans hlast)
    rw [heeprom] at hvalues
    cases hvalues

theorem ofNat_val {channel : UInt8} (h : ¬channel > 3) :
    (Fin.ofNat 4 channel.toNat).val = channel.toNat := by
  have hle : channel.toNat ≤ 3 := UInt8.not_lt.mp h
  exact Nat.mod_eq_of_lt (by omega)

theorem key_ofNat {channel : UInt8} (h : ¬channel > 3) :
    key (Fin.ofNat 4 channel.toNat) = channel := by
  rw [key, ofNat_val h, UInt8.ofNat_toNat]

/-- The channels that have no case of their own are those of the table. -/
theorem threshold_entry {channel : UInt8} (h : ¬channel > 3)
    (hother : ¬(channel = Channel.bias ∨ channel = Channel.dac4)) :
    channel ∈ Channel.threshold ∧ Channel.threshold[channel.toNat]? = some channel := by
  have hall : ∀ k : Fin 4, ¬(key k = Channel.bias ∨ key k = Channel.dac4) →
      key k ∈ Channel.threshold ∧ Channel.threshold[(key k).toNat]? = some (key k) := by decide
  rw [← key_ofNat h] at hother ⊢
  exact hall _ hother

theorem setDacValue_range {cmd : ThresholdSettingCmd} (h : cmd.channel > 3) (s : MCP4728Driver) :
    setDacValue clock s cmd = some s := if_pos h

/-- The table is never left. -/
theorem setDacValue_isSome (s : MCP4728Driver) (cmd : ThresholdSettingCmd) :
    (setDacValue clock s cmd).isSome := by
  unfold setDacValue
  by_cases hrange : cmd.channel > 3
  · simp [hrange]
  · by_cases hother : cmd.channel = Channel.bias ∨ cmd.channel = Channel.dac4
    · by_cases hneg : cmd.value < 0.0 <;> simp [hrange, hother, hneg]
    · obtain ⟨-, hentry⟩ := threshold_entry hrange hother
      by_cases hneg : cmd.value < 0.0 <;> simp [hrange, hother, hneg, hentry]

/-- What became of a command for a voltage. -/
inductive SetOutcome (s : MCP4728Driver) (cmd : ThresholdSettingCmd) (s' : MCP4728Driver) : Prop
  | rejected (range : cmd.channel > 3 ∨ cmd.value < 0.0) (same : s' = s)
  | unpublished (channel : cmd.channel = Channel.bias ∨ cmd.channel = Channel.dac4)
      (positive : ¬cmd.value < 0.0) (published : s'.published = s.published)
      (registers : output s'.device.chip =
        written (output s.device.chip) (Fin.ofNat 4 cmd.channel.toNat) cmd.value)
  | failed (channel : cmd.channel ∈ Channel.threshold)
      (code : encoded (output s.device.chip (Fin.ofNat 4 cmd.channel.toNat))
        (clamped cmd.value) = none)
      (published : s'.published = s.published)
      (registers : output s'.device.chip = output s.device.chip)
  | published (channel : cmd.channel ∈ Channel.threshold) (positive : ¬cmd.value < 0.0)
      (code : encoded (output s.device.chip (Fin.ofNat 4 cmd.channel.toNat))
        (clamped cmd.value) ≠ none)
      (mirrored : Mirrored s') (lost : ∀ eeprom, ¬Carried eeprom s')

theorem setDacValue_synced {s s' : MCP4728Driver} (h : Synced s.device) {cmd : ThresholdSettingCmd}
    (hstep : setDacValue clock s cmd = some s') : Synced s'.device ∧ SetOutcome s cmd s' := by
  unfold setDacValue at hstep
  by_cases hrange : cmd.channel > 3
  · rw [if_pos hrange] at hstep
    obtain rfl := Option.some.inj hstep
    exact ⟨h, .rejected (Or.inl hrange) rfl⟩
  rw [if_neg hrange] at hstep
  by_cases hneg : cmd.value < 0.0
  · rw [if_pos hneg] at hstep
    obtain rfl := Option.some.inj hstep
    exact ⟨h, .rejected (Or.inr hneg) rfl⟩
  rw [if_neg hneg] at hstep
  have hkey := key_ofNat hrange
  by_cases hother : cmd.channel = Channel.bias ∨ cmd.channel = Channel.dac4
  · rw [if_pos hother] at hstep
    obtain rfl := Option.some.inj hstep
    obtain ⟨hsynced, houtput, -⟩ :=
      tryVoltage_synced clock h (Fin.ofNat 4 cmd.channel.toNat) cmd.value
    rw [hkey] at hsynced houtput
    exact ⟨hsynced, .unpublished hother hneg rfl houtput⟩
  · rw [if_neg hother] at hstep
    obtain ⟨hmem, hentry⟩ := threshold_entry hrange hother
    obtain ⟨d', hset, hsynced, houtput, -⟩ :=
      setVoltage_synced clock h (Fin.ofNat 4 cmd.channel.toNat) (clamped cmd.value)
    rw [ofNat_val hrange, clamped] at hset
    simp only [hentry, Option.map_some, hset, Option.some.injEq] at hstep
    subst hstep
    by_cases hcode : encoded (output s.device.chip (Fin.ofNat 4 cmd.channel.toNat))
        (clamped cmd.value) = none
    · rw [clamped] at hcode
      simp only [hcode, Option.isSome_none, Bool.false_eq_true, if_false]
      refine ⟨hsynced, .failed hmem hcode rfl ?_⟩
      rw [houtput, written, clamped, hcode, Option.getD_none, Function.update_eq_self]
    · have hsome : (encoded (output s.device.chip (Fin.ofNat 4 cmd.channel.toNat))
          (clamped cmd.value)).isSome = true := Option.isSome_iff_ne_none.mpr hcode
      rw [clamped] at hsome
      simp only [hsome, if_true]
      obtain ⟨hpublished, hmirrored, hlost⟩ := publishDac_synced clock
        (s := { s with device := d' }) hsynced
      exact ⟨hpublished, .published hmem hneg hcode hmirrored hlost⟩

theorem threshold_disjoint {channel : UInt8} (h : channel ∈ Channel.threshold) :
    ¬(channel = Channel.bias ∨ channel = Channel.dac4) ∧ ¬channel > 3 := by
  simp only [Channel.threshold, List.mem_cons, List.not_mem_nil, or_false] at h
  rcases h with rfl | rfl <;> decide

theorem shows_written {event : MCP4728Event} {registers : Fin 4 → DacChannel}
    (h : Shows event registers) (channel : Fin 4) (voltage : Binary32) :
    Shows event (written registers channel voltage) ↔
      KeepsRegister (registers channel) voltage := by
  rw [h.iff_sameCode, ← sameCode_written]
  constructor
  · intro hsame
    exact hsame channel
  · intro hsame k
    by_cases hk : k = channel
    · subst hk
      exact hsame
    · rw [written_of_ne hk]
      exact ⟨rfl, rfl⟩

theorem mirrored_iff_shows {s : MCP4728Driver} {event : MCP4728Event}
    (h : s.published.getLast? = some event) :
    Mirrored s ↔ Shows event (output s.device.chip) := by
  simp [Mirrored, h]

theorem step_synced {s s' : MCP4728Driver} {c : Command} (h : Synced s.device)
    (hstep : step clock s c = some s') : Synced s'.device := by
  cases c with
  | thresholdSetting cmd => exact (setDacValue_synced clock h hstep).1
  | biasVoltage cmd =>
    obtain rfl := Option.some.inj hstep
    have hset := (tryVoltage_synced clock h 2 cmd.voltage).1
    exact (publishDac_synced clock (s := { s with
      device := tryVoltage clock s.device Channel.bias cmd.voltage }) hset).1
  | dacSettingRequest =>
    obtain rfl := Option.some.inj hstep
    exact (publishDac_synced clock h).1

theorem step_mirrored {s s' : MCP4728Driver} {c : Command} (h : Synced s.device)
    (hm : Mirrored s) (hstep : step clock s c = some s') : Mirrored s' ↔ KeepsCodes s c := by
  cases c with
  | thresholdSetting cmd =>
    obtain ⟨event, hlast, hshows⟩ := hm
    cases (setDacValue_synced clock h hstep).2 with
    | rejected hrange hsame =>
      subst hsame
      refine iff_of_true ⟨event, hlast, hshows⟩ fun hother => ?_
      rcases hrange with hrange | hneg
      · rcases hother with hother | hother <;> exact absurd (hother ▸ hrange) (by decide)
      · simp [KeepsRegister, encoded, hneg]
    | unpublished hother _ hpublished houtput =>
      rw [mirrored_iff_shows (by rw [hpublished]; exact hlast), houtput, shows_written hshows]
      exact ⟨fun hkeeps _ => hkeeps, fun hkeeps => hkeeps hother⟩
    | failed hthreshold _ hpublished houtput =>
      refine iff_of_true ?_ fun hother => absurd hother (threshold_disjoint hthreshold).1
      rw [mirrored_iff_shows (by rw [hpublished]; exact hlast), houtput]
      exact hshows
    | published hthreshold _ _ hmirrored _ =>
      exact iff_of_true hmirrored fun hother => absurd hother (threshold_disjoint hthreshold).1
  | biasVoltage cmd =>
    obtain rfl := Option.some.inj hstep
    have hset := (tryVoltage_synced clock h 2 cmd.voltage).1
    exact iff_of_true (publishDac_synced clock (s := { s with
      device := tryVoltage clock s.device Channel.bias cmd.voltage }) hset).2.1 trivial
  | dacSettingRequest =>
    obtain rfl := Option.some.inj hstep
    exact iff_of_true (publishDac_synced clock h).2.1 trivial

theorem step_carried {s s' : MCP4728Driver} {c : Command} {eeprom : Fin 4 → DacChannel}
    (h : Synced s.device) (hc : Carried eeprom s) (hstep : step clock s c = some s') :
    Carried eeprom s' ↔ KeepsEeprom s c := by
  cases c with
  | thresholdSetting cmd =>
    cases (setDacValue_synced clock h hstep).2 with
    | rejected hrange hsame =>
      subst hsame
      refine iff_of_true hc fun hthreshold => Or.inl ?_
      exact hrange.resolve_left (threshold_disjoint hthreshold).2
    | unpublished hother _ hpublished _ =>
      refine iff_of_true ?_ fun hthreshold => absurd hother (threshold_disjoint hthreshold).1
      rw [Carried, hpublished]
      exact hc
    | failed _ hcode hpublished _ =>
      refine iff_of_true ?_ fun _ => Or.inr hcode
      rw [Carried, hpublished]
      exact hc
    | published hthreshold hneg hcode _ hlost =>
      refine iff_of_false (hlost eeprom) fun hkeeps => ?_
      rcases hkeeps hthreshold with hneg' | hcode'
      · exact hneg hneg'
      · exact hcode hcode'
  | biasVoltage cmd =>
    obtain rfl := Option.some.inj hstep
    have hset := (tryVoltage_synced clock h 2 cmd.voltage).1
    exact iff_of_false ((publishDac_synced clock (s := { s with
      device := tryVoltage clock s.device Channel.bias cmd.voltage }) hset).2.2 eeprom) id
  | dacSettingRequest =>
    obtain rfl := Option.some.inj hstep
    exact iff_of_false ((publishDac_synced clock h).2.2 eeprom) id

/-! ## Runs -/

/-- The object when the registry has probed for the chip that many times. -/
def probed (clock : Nat → Nat) (chip : Chip) : Nat → Mcp4728
  | 0 => { chip := chip }
  | probes + 1 => readRegisters clock (probed clock chip probes)

theorem probed_known (chip : Chip) (probes : Nat) :
    Known (probed clock chip probes) ∧ (probed clock chip probes).chip = chip := by
  induction probes with
  | zero => exact ⟨Or.inr ⟨rfl, fun _ => rfl⟩, rfl⟩
  | succ probes ih =>
    obtain ⟨hknown, hchip⟩ := ih
    exact ⟨Or.inl (synced_readRegisters clock hknown), (readRegisters_chip clock _).trans hchip⟩

/-- The driver as it is made. -/
def started (clock : Nat → Nat) (chip : Chip) (probes : Nat) (config : SystemConfig) :
    MCP4728Driver :=
  construct clock (probed clock chip probes) config

theorem started_spec (chip : Chip) (probes : Nat) (config : SystemConfig) :
    Synced (started clock chip probes config).device ∧
      Carried (stored chip) (started clock chip probes config) ∧
      (Mirrored (started clock chip probes config) ↔ KeepsAtStart chip config) := by
  obtain ⟨hknown, hchip⟩ := probed_known clock chip probes
  obtain ⟨event, hpublished, hshows, hcarries, hsynced, houtput⟩ :=
    construct_known clock hknown config
  rw [hchip] at hshows hcarries houtput
  have hlast : (started clock chip probes config).published.getLast? = some event := by
    rw [started, hpublished]
    rfl
  refine ⟨hsynced, ⟨event, hlast, hcarries⟩, ?_⟩
  rw [mirrored_iff_shows hlast, started, houtput, hshows.iff_sameCode, sameCode_constructed]

/-- The command leaves the last event right. -/
def Keeps (s : MCP4728Driver) (c : Command) : Prop := KeepsCodes s c ∧ KeepsEeprom s c

instance Keeps.decidable (s : MCP4728Driver) (c : Command) : Decidable (Keeps s c) :=
  inferInstanceAs (Decidable (_ ∧ _))

/-- **The last event** has the codes and the voltages of the registers and the EEPROM values
of the start, after construction and after every command, exactly in the runs where the
voltages at the start were there already, no register of a channel without a threshold
changes, and nothing else is published. -/
theorem dac_mirrored_iff (clock : Nat → Nat) (chip : Chip) (probes : Nat) (config : SystemConfig)
    (cs : List Command) (t : MCP4728Driver)
    (h : Machine.run (step clock) (started clock chip probes config) cs = some t) :
    (∀ pre s, pre <+: cs → Machine.run (step clock) (started clock chip probes config) pre =
        some s → Mirrored s ∧ Carried (stored chip) s) ↔
      KeepsAtStart chip config ∧
        Machine.Meets (step clock) Keeps (started clock chip probes config) cs := by
  obtain ⟨hsynced, hcarried, hmirrored⟩ := started_spec clock chip probes config
  by_cases hstart : KeepsAtStart chip config
  · have hruns := Machine.always_iff_meets
      (I := fun s => Synced s.device ∧ Mirrored s ∧ Carried (stored chip) s) (P := Keeps)
      (fun s c s' hs hstep => by
        obtain ⟨hsync, hmirror, hcarry⟩ := hs
        rw [step_mirrored clock hsync hmirror hstep, step_carried clock hsync hcarry hstep]
        exact and_iff_right (step_synced clock hsync hstep))
      ⟨hsynced, hmirrored.mpr hstart, hcarried⟩ h
    rw [and_iff_right hstart, ← hruns]
    refine forall₄_congr fun pre s _ hs => ?_
    have hsync : Synced s.device := Machine.run_history (I := fun _ s => Synced s.device)
      (fun _ _ _ _ hsynced hstep => step_synced clock hsynced hstep) hsynced hs
    exact (and_iff_right hsync).symm
  · refine iff_of_false (fun hall => hstart ?_) fun hboth => hstart hboth.1
    exact hmirrored.mp (hall [] _ (List.nil_prefix) rfl).1

/-- A chip with 0 in its outputs and 1000 in its EEPROM, as codes of the internal reference. -/
def idleChip : Chip where
  dac _ := ⟨0x80, 0x00⟩
  eeprom _ := ⟨0x83, 0xe8⟩

def unconfigured : SystemConfig where
  thresholdVoltage _ := Floating.ofInt (-1)
  biasVoltage := Floating.ofInt (-1)

/-- A threshold of a channel that there is not, and the bias voltage that is there. -/
theorem dac_mirrored_idle :
    ∃ s, Machine.run (step id) (started id idleChip 1 unconfigured)
        [.thresholdSetting ⟨9, 1.0⟩, .thresholdSetting ⟨2, 0.0⟩] = some s ∧
      Mirrored s ∧ Carried (stored idleChip) s :=
  ⟨_, rfl, (dac_mirrored_iff id idleChip 1 unconfigured
    [.thresholdSetting ⟨9, 1.0⟩, .thresholdSetting ⟨2, 0.0⟩] _ rfl).mpr
    ⟨by decide +kernel, by decide +kernel⟩ _ _ (List.prefix_refl _) rfl⟩

/-- A configured threshold is written after what is published was read. A bias voltage that is
set as a threshold is not published. The EEPROM values are not in what is published later. -/
theorem dac_not_mirrored :
    ¬Mirrored (started id idleChip 1 { unconfigured with thresholdVoltage := fun _ => 0.5 }) ∧
    (∃ s, Machine.run (step id) (started id idleChip 1 unconfigured)
      [.thresholdSetting ⟨2, 1.0⟩] = some s ∧ ¬Mirrored s) ∧
    ∃ s, Machine.run (step id) (started id idleChip 1 unconfigured) [.dacSettingRequest] =
      some s ∧ ¬Carried (stored idleChip) s := by
  obtain ⟨hsynced, hcarried, hmirrored⟩ := started_spec id idleChip 1 unconfigured
  refine ⟨?_, ?_, ?_⟩
  · rw [(started_spec id idleChip 1 _).2.2]
    decide +kernel
  · refine ⟨_, rfl, ?_⟩
    rw [step_mirrored id (c := .thresholdSetting ⟨2, 1.0⟩) hsynced
      (hmirrored.mpr (by decide +kernel)) rfl]
    decide +kernel
  · refine ⟨_, rfl, ?_⟩
    rw [step_carried id (c := .dacSettingRequest) hsynced hcarried rfl]
    exact id

end MuonDetector.Drivers.Dac
