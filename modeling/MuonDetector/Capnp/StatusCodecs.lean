import MuonDetector.Capnp.CommandCodecs
import MuonDetector.Data.Events

/-!
# Codecs of the status events

The events of a few fields that tell what a part of the daemon does at the moment: its
switches, voltages, samples and pins. A field without a place in the schema is not sent.
-/

namespace MuonDetector.Capnp.StatusCodecs

open MuonDetector.Capnp.CommandCodecs MuonDetector.Capnp.EventCodecs
open MuonDetector.Data.Events MuonDetector.Library.Messages MuonDetector.Network.MessageKeys

variable {lib : Serializer}

/-! ## Switches -/

structure BiasSwitchEvent where
  biasOn : Bool := false
  deriving DecidableEq, Repr

structure BiasSwitchEventCapnp where
  biasOn : Bool := false
  deriving DecidableEq, Repr, Countable

instance : Message BiasSwitchEventCapnp where

def biasSwitchEvent : CapnpCodec BiasSwitchEvent where
  Root := BiasSwitchEventCapnp
  messageKey := TcpMsgKey.biasSwitch.number
  toRoot event := { biasOn := event.biasOn }
  ofRoot root := some { biasOn := root.biasOn }

structure GainSwitchEvent where
  state : Bool := false
  deriving DecidableEq, Repr

structure GainSwitchEventCapnp where
  state : Bool := false
  deriving DecidableEq, Repr, Countable

instance : Message GainSwitchEventCapnp where

def gainSwitchEvent : CapnpCodec GainSwitchEvent where
  Root := GainSwitchEventCapnp
  messageKey := TcpMsgKey.gainSwitch.number
  toRoot event := { state := event.state }
  ofRoot root := some { state := root.state }

structure PcaSwitchEvent where
  pcaPortMask : UInt8 := 0
  deriving DecidableEq, Repr

structure PcaSwitchEventCapnp where
  pcaPortMask : UInt8 := 0
  deriving DecidableEq, Repr, Countable

instance : Message PcaSwitchEventCapnp where

def pcaSwitchEvent : CapnpCodec PcaSwitchEvent where
  Root := PcaSwitchEventCapnp
  messageKey := TcpMsgKey.pcaSwitch.number
  toRoot event := { pcaPortMask := event.pcaPortMask }
  ofRoot root := some { pcaPortMask := root.pcaPortMask }

structure PolaritySwitchEvent where
  pol1 : Bool
  pol2 : Bool
  deriving DecidableEq, Repr

structure PolaritySwitchEventCapnp where
  pol1 : Bool := false
  pol2 : Bool := false
  deriving DecidableEq, Repr, Countable

instance : Message PolaritySwitchEventCapnp where

def polaritySwitchEvent : CapnpCodec PolaritySwitchEvent where
  Root := PolaritySwitchEventCapnp
  messageKey := TcpMsgKey.polaritySwitch.number
  toRoot event := { pol1 := event.pol1, pol2 := event.pol2 }
  ofRoot root := some { pol1 := root.pol1, pol2 := root.pol2 }

structure PreampSwitchEventCapnp where
  channel : UInt8 := 0
  state : Bool := false
  deriving DecidableEq, Repr, Countable

instance : Message PreampSwitchEventCapnp where

def preampSwitchEvent : CapnpCodec PreampSwitchEvent where
  Root := PreampSwitchEventCapnp
  messageKey := TcpMsgKey.preampSwitch.number
  toRoot event := { channel := event.channel, state := event.state }
  ofRoot root := some { channel := root.channel, state := root.state }

structure EventTriggerEvent where
  signal : GpioSignal := .evtXor
  deriving DecidableEq, Repr

structure EventTriggerEventCapnp where
  signal : UInt8 := 0
  deriving DecidableEq, Repr, Countable

instance : Message EventTriggerEventCapnp where

def eventTriggerEvent : CapnpCodec EventTriggerEvent where
  Root := EventTriggerEventCapnp
  messageKey := TcpMsgKey.eventtrigger.number
  toRoot event := { signal := event.signal.number }
  ofRoot root := some { signal := ⟨root.signal⟩ }

structure MqttInhibitEvent where
  inhibit : Bool := false
  deriving DecidableEq, Repr

structure MqttInhibitEventCapnp where
  inhibit : Bool := false
  deriving DecidableEq, Repr, Countable

instance : Message MqttInhibitEventCapnp where

def mqttInhibitEvent : CapnpCodec MqttInhibitEvent where
  Root := MqttInhibitEventCapnp
  messageKey := TcpMsgKey.mqttInhibit.number
  toRoot event := { inhibit := event.inhibit }
  ofRoot root := some { inhibit := root.inhibit }

/-! ## Voltages and samples -/

structure BiasVoltageEvent where
  voltage : Binary32 := {}
  deriving DecidableEq, Repr

structure BiasVoltageEventCapnp where
  voltage : Binary32 := {}
  deriving DecidableEq, Repr, Countable

instance : Message BiasVoltageEventCapnp where

def biasVoltageEvent : CapnpCodec BiasVoltageEvent where
  Root := BiasVoltageEventCapnp
  messageKey := TcpMsgKey.biasVoltage.number
  toRoot event := { voltage := event.voltage }
  ofRoot root := some { voltage := root.voltage }

structure ThresholdSettingEvent where
  channel : UInt8
  voltage : Binary64
  deriving DecidableEq, Repr

structure ThresholdSettingEventCapnp where
  channel : UInt8 := 0
  voltage : Binary64 := {}
  success : Bool := false
  deriving DecidableEq, Repr, Countable

instance : Message ThresholdSettingEventCapnp where

/-- The success of the schema is not set. -/
def thresholdSettingEvent : CapnpCodec ThresholdSettingEvent where
  Root := ThresholdSettingEventCapnp
  messageKey := TcpMsgKey.threshold.number
  toRoot event := { channel := event.channel, voltage := event.voltage }
  ofRoot root := some { channel := root.channel, voltage := root.voltage }

structure Ads1115EventCapnp where
  deviceId : UInt32 := 0
  channel : UInt8 := 0
  rawValue : UInt16 := 0
  voltage : Binary32 := {}
  timestamp : UInt64 := 0
  deriving DecidableEq, Repr, Countable

instance : Message Ads1115EventCapnp where

/-- The reader sets no conversion time, which is then whatever the memory holds. -/
def ads1115Event (memory : Binary64) : CapnpCodec ADS1115Event where
  Root := Ads1115EventCapnp
  messageKey := TcpMsgKey.adcSample.number
  toRoot event := {
    deviceId := event.deviceId
    channel := event.channel
    rawValue := event.rawValue
    voltage := event.voltage
    timestamp := event.timestamp }
  ofRoot root := some {
    deviceId := root.deviceId
    channel := root.channel
    rawValue := root.rawValue
    voltage := root.voltage
    timestamp := root.timestamp
    convTime := memory }

/-- The source is `unknown` and the temperature -1 when nothing is said. -/
structure TemperatureEvent where
  source : List UInt8 := [0x75, 0x6e, 0x6b, 0x6e, 0x6f, 0x77, 0x6e]
  temperature : Binary32 := ⟨0xbf800000⟩
  deriving DecidableEq, Repr

structure LM75EventCapnp where
  temperature : Binary32 := {}
  deriving DecidableEq, Repr, Countable

instance : Message LM75EventCapnp where

/-- The source of a temperature is not sent. -/
def temperatureEvent : CapnpCodec TemperatureEvent where
  Root := LM75EventCapnp
  messageKey := TcpMsgKey.temperature.number
  toRoot event := { temperature := event.temperature }
  ofRoot root := some { temperature := root.temperature }

/-! ## Pins and connections -/

/-- The edge is the number of an enumeration. The time is a count of nanoseconds. -/
structure GpioEvent where
  gpioSignal : GpioSignal
  gpioPin : UInt32
  timestamp : Int64
  edge : UInt8
  deriving DecidableEq, Repr

structure GpioEventCapnp where
  sig : UInt8 := 0
  pin : UInt8 := 0
  timestamp : UInt64 := 0
  edge : UInt8 := 0
  deriving DecidableEq, Repr, Countable

instance : Message GpioEventCapnp where

def gpioEvent : CapnpCodec GpioEvent where
  Root := GpioEventCapnp
  messageKey := TcpMsgKey.gpioEvent.number
  toRoot event := {
    sig := event.gpioSignal.number
    pin := event.gpioPin.toUInt8
    timestamp := event.timestamp.toUInt64
    edge := event.edge }
  ofRoot root := some {
    gpioSignal := ⟨root.sig⟩
    gpioPin := root.pin.toUInt32
    timestamp := root.timestamp.toInt64
    edge := root.edge }

structure SPIStatsEvent where
  spiPresent : Bool := false
  deriving DecidableEq, Repr

structure SPIStatsEventCapnp where
  spiPresent : Bool := false
  deriving DecidableEq, Repr, Countable

instance : Message SPIStatsEventCapnp where

def spiStatsEvent : CapnpCodec SPIStatsEvent where
  Root := SPIStatsEventCapnp
  messageKey := TcpMsgKey.spiStats.number
  toRoot event := { spiPresent := event.spiPresent }
  ofRoot root := some { spiPresent := root.spiPresent }

/-- The number of the status. The numbers of the named ones need a byte. -/
structure MqttStatus where
  number : UInt8
  deriving DecidableEq, Repr

def MqttStatus.invalid : MqttStatus := ⟨0⟩
def MqttStatus.connected : MqttStatus := ⟨1⟩

structure MqttStatusEvent where
  status : MqttStatus := .invalid
  text : List UInt8 := []
  deriving DecidableEq, Repr

structure MqttStatusEventCapnp where
  status : UInt8 := 0
  text : List UInt8 := []
  deriving DecidableEq, Repr, Countable

instance : Message MqttStatusEventCapnp where

def mqttStatusEvent : CapnpCodec MqttStatusEvent where
  Root := MqttStatusEventCapnp
  messageKey := TcpMsgKey.mqttStatus.number
  toRoot event := { status := event.status.number, text := event.text }
  ofRoot root := some { status := ⟨root.status⟩, text := cStr root.text }

end MuonDetector.Capnp.StatusCodecs
