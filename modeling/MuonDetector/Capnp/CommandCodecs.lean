import MuonDetector.Capnp.EventCodecs
import MuonDetector.Ublox.Commands

/-!
# Codecs of the commands

The commands that travel from the GUI to the daemon, with the schemas of their messages.
For each is told which of its values come back.
-/

namespace MuonDetector.Capnp.CommandCodecs

open MuonDetector.Capnp.EventCodecs MuonDetector.Library.Messages
open MuonDetector.Network.MessageKeys
open MuonDetector.Ublox.Commands (UbxMsgPollCmd UbxResetCmd UbxSaveCmd UbxSetAopCmd)
open MuonDetector.Ublox.Serial (UbxGnssConfigCmd UbxMsgRateCmd)

variable {lib : Serializer}

/-! ## Commands without data -/

/-- The commands that hold nothing. Each is a type of its own in the source. -/
inductive EmptyCmd where
  | preampSwitchRequest
  | gpioRateReset
  | ubxConfigDefault
  | i2cStatsRequest
  | i2cScanBus
  | spiStatsRequest
  | calibRequest
  | calibSave
  | gainSwitchRequest
  | dacSettingRequest
  | thresholdSettingRequest
  | pcaSwitchRequest
  | adcModeRequest
  | polaritySwitchRequest
  | biasVoltageRequest
  | biasSwitchRequest
  | temperatureRequest
  | dacEepromSet
  | eventTriggerRequest
  | histogramRequest
  | ubxMsgRateRequest
  deriving DecidableEq, Repr

def EmptyCmd.key : EmptyCmd → TcpMsgKey
  | preampSwitchRequest => .preampSwitchRequest
  | gpioRateReset => .gpioRateReset
  | ubxConfigDefault => .ubxConfigDefault
  | i2cStatsRequest => .i2cStatsRequest
  | i2cScanBus => .i2cScanBus
  | spiStatsRequest => .spiStatsRequest
  | calibRequest => .calibRequest
  | calibSave => .calibSave
  | gainSwitchRequest => .gainSwitchRequest
  | dacSettingRequest => .thresholdRequest
  | thresholdSettingRequest => .thresholdRequest
  | pcaSwitchRequest => .pcaSwitchRequest
  | adcModeRequest => .adcModeRequest
  | polaritySwitchRequest => .polaritySwitchRequest
  | biasVoltageRequest => .biasVoltageRequest
  | biasSwitchRequest => .biasSwitchRequest
  | temperatureRequest => .temperatureRequest
  | dacEepromSet => .dacEepromSet
  | eventTriggerRequest => .eventtriggerRequest
  | histogramRequest => .histogramRequest
  | ubxMsgRateRequest => .ubxMsgRateRequest

/-- The message type of a command without data. -/
structure EmptyCmdCapnp (cmd : EmptyCmd) where
  deriving DecidableEq, Repr

instance (cmd : EmptyCmd) : Message (EmptyCmdCapnp cmd) where
  exists_injective_nat' := ⟨fun _ => 0, fun _ _ _ => rfl⟩

/-- The codec that `EMPTY_CMD_CODEC` makes of a type and its key. -/
def emptyCmdCodec (cmd : EmptyCmd) : CapnpCodec Unit where
  Root := EmptyCmdCapnp cmd
  messageKey := cmd.key.number
  toRoot _ := {}
  ofRoot _ := some ()

/-! ## Settings of the detector -/

/-- The size type of the platform has 64 bits. -/
structure StartBurstSampling where
  frequencyHz : UInt64
  samples : UInt64
  deriving DecidableEq, Repr

structure StartBurstSamplingCapnp where
  frequencyHz : UInt32 := 0
  samples : UInt32 := 0
  deriving DecidableEq, Repr, Countable

instance : Message StartBurstSamplingCapnp where

def startBurstSampling : CapnpCodec StartBurstSampling where
  Root := StartBurstSamplingCapnp
  messageKey := TcpMsgKey.rateScan.number
  toRoot cmd := { frequencyHz := cmd.frequencyHz.toUInt32, samples := cmd.samples.toUInt32 }
  ofRoot root := some {
    frequencyHz := root.frequencyHz.toUInt64
    samples := root.samples.toUInt64 }

theorem toUInt64_toUInt32_eq_self {n : UInt64} : n.toUInt32.toUInt64 = n ↔ n.toNat < 2 ^ 32 := by
  rw [← UInt64.toNat_inj, UInt32.toNat_toUInt64, UInt64.toNat_toUInt32, Nat.mod_eq_iff_lt]
  decide

theorem startBurstSampling_roundTrips {cmd : StartBurstSampling} :
    startBurstSampling.RoundTrips lib cmd ↔
      cmd.frequencyHz.toNat < 2 ^ 32 ∧ cmd.samples.toNat < 2 ^ 32 := by
  obtain ⟨frequencyHz, samples⟩ := cmd
  rw [Codec.roundTrips_iff]
  simp only [startBurstSampling, Option.some.injEq, StartBurstSampling.mk.injEq,
    toUInt64_toUInt32_eq_self]

structure GainSwitchCmd where
  state : Bool := false
  deriving DecidableEq, Repr

structure GainSwitchCmdCapnp where
  state : Bool := false
  deriving DecidableEq, Repr, Countable

instance : Message GainSwitchCmdCapnp where

def gainSwitchCmd : CapnpCodec GainSwitchCmd where
  Root := GainSwitchCmdCapnp
  messageKey := TcpMsgKey.gainSwitch.number
  toRoot cmd := { state := cmd.state }
  ofRoot root := some { state := root.state }

structure ThresholdSettingCmd where
  channel : UInt8
  value : Binary32
  deriving DecidableEq, Repr

structure DacSettingCmdCapnp where
  channel : UInt8 := 0
  value : Binary32 := {}
  deriving DecidableEq, Repr, Countable

instance : Message DacSettingCmdCapnp where

def thresholdSettingCmd : CapnpCodec ThresholdSettingCmd where
  Root := DacSettingCmdCapnp
  messageKey := TcpMsgKey.threshold.number
  toRoot cmd := { channel := cmd.channel, value := cmd.value }
  ofRoot root := some { channel := root.channel, value := root.value }

structure PcaSwitchCmd where
  pcaPortMask : UInt8 := 0
  deriving DecidableEq, Repr

structure PcaSwitchCmdCapnp where
  pcaPortMask : UInt8 := 0
  deriving DecidableEq, Repr, Countable

instance : Message PcaSwitchCmdCapnp where

def pcaSwitchCmd : CapnpCodec PcaSwitchCmd where
  Root := PcaSwitchCmdCapnp
  messageKey := TcpMsgKey.pcaSwitch.number
  toRoot cmd := { pcaPortMask := cmd.pcaPortMask }
  ofRoot root := some { pcaPortMask := root.pcaPortMask }

structure MqttInhibitCmd where
  inhibit : Bool := false
  deriving DecidableEq, Repr

structure MqttInhibitCmdCapnp where
  inhibit : Bool := false
  deriving DecidableEq, Repr, Countable

instance : Message MqttInhibitCmdCapnp where

def mqttInhibitCmd : CapnpCodec MqttInhibitCmd where
  Root := MqttInhibitCmdCapnp
  messageKey := TcpMsgKey.mqttInhibit.number
  toRoot cmd := { inhibit := cmd.inhibit }
  ofRoot root := some { inhibit := root.inhibit }

structure PolaritySwitchCmd where
  pol1 : Bool := false
  pol2 : Bool := false
  deriving DecidableEq, Repr

structure PolaritySwitchCmdCapnp where
  pol1 : Bool := false
  pol2 : Bool := false
  deriving DecidableEq, Repr, Countable

instance : Message PolaritySwitchCmdCapnp where

def polaritySwitchCmd : CapnpCodec PolaritySwitchCmd where
  Root := PolaritySwitchCmdCapnp
  messageKey := TcpMsgKey.polaritySwitch.number
  toRoot cmd := { pol1 := cmd.pol1, pol2 := cmd.pol2 }
  ofRoot root := some { pol1 := root.pol1, pol2 := root.pol2 }

structure BiasVoltageCmd where
  voltage : Binary32
  deriving DecidableEq, Repr

structure BiasVoltageCmdCapnp where
  channel : UInt8 := 0
  voltage : Binary32 := {}
  deriving DecidableEq, Repr, Countable

instance : Message BiasVoltageCmdCapnp where

/-- The channel of the schema is not set. -/
def biasVoltageCmd : CapnpCodec BiasVoltageCmd where
  Root := BiasVoltageCmdCapnp
  messageKey := TcpMsgKey.biasVoltage.number
  toRoot cmd := { voltage := cmd.voltage }
  ofRoot root := some { voltage := root.voltage }

structure BiasSwitchCmd where
  state : Bool := false
  deriving DecidableEq, Repr

structure BiasSwitchCmdCapnp where
  state : Bool := false
  deriving DecidableEq, Repr, Countable

instance : Message BiasSwitchCmdCapnp where

def biasSwitchCmd : CapnpCodec BiasSwitchCmd where
  Root := BiasSwitchCmdCapnp
  messageKey := TcpMsgKey.biasSwitch.number
  toRoot cmd := { state := cmd.state }
  ofRoot root := some { state := root.state }

structure PreampSwitchCmd where
  channel : UInt8 := 0
  state : Bool := false
  deriving DecidableEq, Repr

structure PreampSwitchCmdCapnp where
  channel : UInt8 := 0
  deriving DecidableEq, Repr, Countable

instance : Message PreampSwitchCmdCapnp where

/-- The schema has no field for the state, so the reader leaves it at its default. -/
def preampSwitchCmd : CapnpCodec PreampSwitchCmd where
  Root := PreampSwitchCmdCapnp
  messageKey := TcpMsgKey.preampSwitch.number
  toRoot cmd := { channel := cmd.channel }
  ofRoot root := some { channel := root.channel }

theorem preampSwitchCmd_roundTrips {cmd : PreampSwitchCmd} :
    preampSwitchCmd.RoundTrips lib cmd ↔ cmd.state = false := by
  obtain ⟨channel, state⟩ := cmd
  rw [Codec.roundTrips_iff]
  simp only [preampSwitchCmd, Option.some.injEq, PreampSwitchCmd.mk.injEq, true_and]
  exact eq_comm

structure AdcSampleTriggerCmd where
  channel : UInt8 := 0
  deriving DecidableEq, Repr

structure AdcSampleTriggerCmdCapnp where
  channel : UInt8 := 0
  deriving DecidableEq, Repr, Countable

instance : Message AdcSampleTriggerCmdCapnp where

def adcSampleTriggerCmd : CapnpCodec AdcSampleTriggerCmd where
  Root := AdcSampleTriggerCmdCapnp
  messageKey := TcpMsgKey.adcSampleRequest.number
  toRoot cmd := { channel := cmd.channel }
  ofRoot root := some { channel := root.channel }

structure HistogramClearCmd where
  histogramName : List UInt8 := []
  deriving DecidableEq, Repr

structure HistogramClearCmdCapnp where
  histogramName : List UInt8 := []
  deriving DecidableEq, Repr, Countable

instance : Message HistogramClearCmdCapnp where

def histogramClearCmd : CapnpCodec HistogramClearCmd where
  Root := HistogramClearCmdCapnp
  messageKey := TcpMsgKey.histogramClear.number
  toRoot cmd := { histogramName := cmd.histogramName }
  ofRoot root := some { histogramName := cStr root.histogramName }

theorem histogramClearCmd_roundTrips {cmd : HistogramClearCmd} :
    histogramClearCmd.RoundTrips lib cmd ↔ 0 ∉ cmd.histogramName := by
  obtain ⟨histogramName⟩ := cmd
  rw [Codec.roundTrips_iff]
  simp only [histogramClearCmd, Option.some.injEq, HistogramClearCmd.mk.injEq, cStr_eq_self]

structure GpioRateRequestCmd where
  nPoints : UInt8 := 0
  deriving DecidableEq, Repr

structure GpioRateRequestCmdCapnp where
  nPoints : UInt8 := 0
  deriving DecidableEq, Repr, Countable

instance : Message GpioRateRequestCmdCapnp where

def gpioRateRequestCmd : CapnpCodec GpioRateRequestCmd where
  Root := GpioRateRequestCmdCapnp
  messageKey := TcpMsgKey.gpioRateRequest.number
  toRoot cmd := { nPoints := cmd.nPoints }
  ofRoot root := some { nPoints := root.nPoints }

/-- The numbers of the named signals need a byte, and every byte is a value of the type. -/
structure GpioSignal where
  number : UInt8
  deriving DecidableEq, Repr

def GpioSignal.evtXor : GpioSignal := ⟨4⟩

structure EventTriggerCmd where
  signal : GpioSignal := .evtXor
  deriving DecidableEq, Repr

structure EventTriggerCmdCapnp where
  signal : UInt8 := 0
  deriving DecidableEq, Repr, Countable

instance : Message EventTriggerCmdCapnp where

def eventTriggerCmd : CapnpCodec EventTriggerCmd where
  Root := EventTriggerCmdCapnp
  messageKey := TcpMsgKey.eventtrigger.number
  toRoot cmd := { signal := cmd.signal.number }
  ofRoot root := some { signal := ⟨root.signal⟩ }

/-! ## Commands for the receiver -/

structure UbxMsgPollCmdCapnp where
  id : UInt16 := 0
  deriving DecidableEq, Repr, Countable

instance : Message UbxMsgPollCmdCapnp where

def ubxMsgPollCmd : CapnpCodec UbxMsgPollCmd where
  Root := UbxMsgPollCmdCapnp
  messageKey := TcpMsgKey.ubxMsgPoll.number
  toRoot cmd := { id := cmd.id }
  ofRoot root := some { id := root.id }

structure UbxMsgRateCmdCapnp where
  id : UInt16 := 0
  port : UInt8 := 0
  rate : UInt8 := 0
  deriving DecidableEq, Repr, Countable

instance : Message UbxMsgRateCmdCapnp where

def ubxMsgRateCmd : CapnpCodec UbxMsgRateCmd where
  Root := UbxMsgRateCmdCapnp
  messageKey := TcpMsgKey.ubxMsgRate.number
  toRoot cmd := { id := cmd.id, port := cmd.port, rate := cmd.rate }
  ofRoot root := some { id := root.id, port := root.port, rate := root.rate }

structure UbxGnssConfigCmdCapnp where
  configs : List GnssConfigStructCapnp := []
  deriving DecidableEq, Repr, Countable

instance : Message UbxGnssConfigCmdCapnp where

def ubxGnssConfigCmd : CapnpCodec UbxGnssConfigCmd where
  Root := UbxGnssConfigCmdCapnp
  messageKey := TcpMsgKey.ubxGnssConfig.number
  toRoot cmd := { configs := cmd.gnssConfigs.map gnssConfigToCapnp }
  ofRoot root := some { gnssConfigs := root.configs.map gnssConfigOfCapnp }

theorem ubxGnssConfigCmd_roundTrips (cmd : UbxGnssConfigCmd) :
    ubxGnssConfigCmd.RoundTrips lib cmd := by
  rw [Codec.roundTrips_iff]
  simp only [ubxGnssConfigCmd, gnssConfigs_roundTrip]

structure UbxRateCmd where
  measRate : UInt16
  navRate : UInt16
  deriving DecidableEq, Repr

structure UbxRateCmdCapnp where
  measRate : UInt16 := 0
  navRate : UInt16 := 0
  deriving DecidableEq, Repr, Countable

instance : Message UbxRateCmdCapnp where

/-- No key is named for the command. -/
def ubxRateCmd : CapnpCodec UbxRateCmd where
  Root := UbxRateCmdCapnp
  messageKey := 0
  toRoot cmd := { measRate := cmd.measRate, navRate := cmd.navRate }
  ofRoot root := some { measRate := root.measRate, navRate := root.navRate }

structure UbxResetCmdCapnp where
  resetFlags : UInt32 := 0
  deriving DecidableEq, Repr, Countable

instance : Message UbxResetCmdCapnp where

def ubxResetCmd : CapnpCodec UbxResetCmd where
  Root := UbxResetCmdCapnp
  messageKey := TcpMsgKey.ubxReset.number
  toRoot cmd := { resetFlags := cmd.resetFlags }
  ofRoot root := some { resetFlags := root.resetFlags }

structure UbxSaveCmdCapnp where
  devMask : UInt32 := 0
  deriving DecidableEq, Repr, Countable

instance : Message UbxSaveCmdCapnp where

def ubxSaveCmd : CapnpCodec UbxSaveCmd where
  Root := UbxSaveCmdCapnp
  messageKey := TcpMsgKey.ubxCfgSave.number
  toRoot cmd := { devMask := cmd.devMask }
  ofRoot root := some { devMask := root.devMask }

structure UbxSetAopCmdCapnp where
  enable : Bool := false
  maxOrbErr : UInt16 := 0
  deriving DecidableEq, Repr, Countable

instance : Message UbxSetAopCmdCapnp where

/-- No key is named for the command. -/
def ubxSetAopCmd : CapnpCodec UbxSetAopCmd where
  Root := UbxSetAopCmdCapnp
  messageKey := 0
  toRoot cmd := { enable := cmd.enable, maxOrbErr := cmd.maxOrbErr }
  ofRoot root := some { enable := root.enable, maxOrbErr := root.maxOrbErr }

end MuonDetector.Capnp.CommandCodecs
