import MuonDetector.Capnp.GnssCodecs
import MuonDetector.Capnp.HistogramCodec
import MuonDetector.Capnp.StatusCodecs
import MuonDetector.Sources.TcpCommandDecoder

/-!
# The decoder map of the main window

The sink of the daemon encodes an event and sends it with the key of its codec. The main
window looks the key up, decodes the payload and emits the signals its widgets are connected
to. A ping is answered before that, and an unknown key is shown in a message box.
-/

namespace MuonDetector.Gui.Decoder

open MuonDetector.Capnp
open MuonDetector.Capnp.CommandCodecs MuonDetector.Capnp.EventCodecs MuonDetector.Capnp.GnssCodecs
open MuonDetector.Capnp.HistogramCodec MuonDetector.Capnp.StatusCodecs
open MuonDetector.Data.Events (ADS1115Event PreampSwitchEvent)
open MuonDetector.Library.Maps MuonDetector.Library.Messages
open MuonDetector.Network.Frame MuonDetector.Network.MessageKeys
open MuonDetector.Sources.TcpCommandDecoder (AdcModeEvent GpioInhibitEvent adcModeEvent
  gpioInhibitEvent)
open MuonDetector.Ublox.Events (CfgGNSS CfgMsg GnssConfigStruct GnssMonHwStruct GnssMonHw2Struct
  GnssPosStruct GpsVersion MonRx MonTx NavClock NavStatus UbxTimeMarkStruct UbxTimePulseStruct)

/-! ## Signals -/

/-- What the main window does with a packet: the signals it emits, with their arguments, the
values it hands to its widgets and the message box. -/
inductive Signal where
  | gpioEventReceived (signal : GpioSignal) (edge : UInt8)
  | addCfgMsgRate (msg : CfgMsg)
  | threshold (channel : UInt8) (voltage : Binary64)
  | biasDacVoltage (voltage : Binary32)
  | biasSwitchReceived (state : Bool)
  | preampSwitchReceived (channel : UInt8) (state : Bool)
  | gainSwitchReceived (state : Bool)
  | inputSwitchReceived (selection : UInt8)
  | polaritySwitchReceived (pol1 pol2 : Bool)
  | triggerSelectionReceived (signal : GpioSignal)
  | gpioRates (whichRate : UInt8) (rate : List (Binary32 × Binary32))
  | geodeticPos (pos : GnssPosStruct)
  | adcSampleReceived (channel : UInt8) (voltage : Binary32)
  | adcTraceReceived (samples : List Binary32)
  | dacReadbackReceived (channel : UInt8) (voltage : Binary32)
  | temperatureReceived (temperature : Binary32)
  | i2cStatsReceived (bytesRead bytesWritten : UInt32) (deviceList : List I2cDeviceEntry)
  | spiStatsReceived (spiPresent : Bool)
  | calibReceived (valid eepromValid : Bool) (id : UInt64) (calibList : List CalibStruct)
  | satsReceived (satellites : List GnssSatellite)
  | gnssConfigsReceived (numTrkChHw : UInt8) (configs : List GnssConfigStruct)
  | intCounterReceived (count : UInt16)
  | timeMarkReceived (tm : UbxTimeMarkStruct)
  | txBufReceived (value : UInt8)
  | txBufPeakReceived (value : UInt8)
  | rxBufReceived (value : UInt8)
  | rxBufPeakReceived (value : UInt8)
  | gpsMonHWReceived (hw : GnssMonHwStruct)
  | gpsMonHW2Received (hw2 : GnssMonHw2Struct)
  | gpsVersionReceived (swString hwString prot : List UInt8)
  | freqAccReceived (acc : UInt32)
  | timeAccReceived (acc : UInt32)
  | ubxUptimeReceived (seconds : UInt32)
  | gpsFixReceived (fix : UInt8)
  | gpsTP5Received (tp : UbxTimePulseStruct)
  | histogramReceived (h : NamedHistogram)
  | adcModeReceived (mode : UInt8)
  | logInfoReceived (info : LogInfoStruct)
  | mqttStatusChanged (connected : Bool)
  | mqttStatusEventChanged (event : MqttStatusEvent)
  | gpioInhibitReceived (inhibit : Bool)
  | mqttInhibitReceived (inhibit : Bool)
  | daemonVersionReceived (hwVer swVer : Version)
  | positionModeConfigReceived (config : PositionModeConfig)
  | pong (payload : List UInt8)
  | unknownMessage (key : UInt16)

/-- `TIMING_MUX_SELECTION::UNDEFINED`. -/
def undefinedSelection : UInt8 := 255

/-! ## What is emitted for an event -/

def onGpioEvent (event : GpioEvent) : List Signal :=
  [.gpioEventReceived event.gpioSignal event.edge]

def onThreshold (event : ThresholdSettingEvent) : List Signal :=
  [.threshold event.channel event.voltage]

def onPcaSwitch (event : PcaSwitchEvent) : List Signal :=
  if event.pcaPortMask ≠ undefinedSelection then [.inputSwitchReceived event.pcaPortMask] else []

def onPolaritySwitch (event : PolaritySwitchEvent) : List Signal :=
  [.polaritySwitchReceived event.pol1 event.pol2]

def onDacReadback (order : IterationOrder UInt8 Binary32) (event : MCP4728Event) : List Signal :=
  (order.entries event.voltages).map fun entry => .dacReadbackReceived entry.1 entry.2

def onI2cStats (event : I2CStatsEvent) : List Signal :=
  [.i2cStatsReceived event.bytesRead event.bytesWritten event.deviceList]

def onCalib (event : CalibEvent) : List Signal :=
  [.calibReceived event.valid event.eepromValid event.id event.calibList]

def onTimeMark (event : UbxTimeMarkStruct) : List Signal :=
  [.intCounterReceived event.evtCounter, .timeMarkReceived event]

def onTxBuf (event : MonTx) : List Signal :=
  [.txBufReceived event.tUsage, .txBufPeakReceived event.tPeakUsage]

def onRxBuf (event : MonRx) : List Signal :=
  [.rxBufReceived event.tUsage, .rxBufPeakReceived event.tPeakUsage]

def onVersion (event : GpsVersion) : List Signal :=
  [.gpsVersionReceived event.swString event.hwString event.prot]

def onNavClock (event : NavClock) : List Signal :=
  [.freqAccReceived event.fAcc, .timeAccReceived event.tAcc]

def onNavStatus (event : NavStatus) : List Signal :=
  [.ubxUptimeReceived (event.msss / 1000), .gpsFixReceived event.gpsFix]

def onMqttStatus (event : MqttStatusEvent) : List Signal :=
  [.mqttStatusChanged (event.status = .connected), .mqttStatusEventChanged event]

/-! ## The map -/

/-- What the window brings to a packet: the library, the orders in which its maps are gone
through and the memory that a local variable starts with. -/
structure Window where
  lib : Serializer
  orders : MapOrders
  memory : Binary64

/-- The reader refuses some payloads with an exception, after which nothing is emitted. -/
def emitDecoded {T : Type} (w : Window) (packet : TcpPacket) (codec : CapnpCodec T)
    (emit : T → List Signal) : Option (List Signal) :=
  (codec.decode w.lib packet.payload).map emit

/-- The packet handler of the window, with `decode` and its map. -/
def decode (w : Window) (packet : TcpPacket) : Option (List Signal) :=
  let emitted {T : Type} (codec : CapnpCodec T) (emit : T → List Signal) :=
    emitDecoded w packet codec emit
  match TcpMsgKey.ofNumber packet.key with
  | some .ping => some [.pong packet.payload]
  | some .gpioEvent => emitted gpioEvent onGpioEvent
  | some .ubxMsgRate => emitted cfgMsg fun event => [.addCfgMsgRate event]
  | some .threshold => emitted thresholdSettingEvent onThreshold
  | some .biasVoltage => emitted biasVoltageEvent fun event => [.biasDacVoltage event.voltage]
  | some .biasSwitch => emitted biasSwitchEvent fun event => [.biasSwitchReceived event.biasOn]
  | some .preampSwitch => emitted preampSwitchEvent fun event =>
      [.preampSwitchReceived event.channel event.state]
  | some .gainSwitch => emitted gainSwitchEvent fun event => [.gainSwitchReceived event.state]
  | some .pcaSwitch => emitted pcaSwitchEvent onPcaSwitch
  | some .polaritySwitch => emitted polaritySwitchEvent onPolaritySwitch
  | some .eventtrigger => emitted eventTriggerEvent fun event =>
      [.triggerSelectionReceived event.signal]
  | some .gpioRate => emitted gpioRateEvent fun event => [.gpioRates event.whichRate event.rate]
  | some .geoPos => emitted gnssPos fun event => [.geodeticPos event]
  | some .adcSample => emitted (ads1115Event w.memory) fun event =>
      [.adcSampleReceived event.channel event.voltage]
  | some .adcTrace => emitted adcTraceEvent fun event => [.adcTraceReceived event.adcSampleBuffer]
  | some .dacReadback => emitted (mcp4728Event w.orders) (onDacReadback w.orders.voltage)
  | some .temperature => emitted temperatureEvent fun event =>
      [.temperatureReceived event.temperature]
  | some .i2cStats => emitted i2cStatsEvent onI2cStats
  | some .spiStats => emitted spiStatsEvent fun event => [.spiStatsReceived event.spiPresent]
  | some .calibSet => emitted calibEvent onCalib
  | some .gnssSats => emitted navSat fun event => [.satsReceived event.satellites]
  | some .ubxGnssConfig => emitted cfgGNSS fun event =>
      [.gnssConfigsReceived event.numTrkChHw event.configs]
  | some .ubxTimemark => emitted ubxTimeMark onTimeMark
  | some .ubxTxbuf => emitted monTx onTxBuf
  | some .ubxRxbuf => emitted monRx onRxBuf
  | some .ubxRxbufPeak => emitted monRx fun event => [.rxBufPeakReceived event.tPeakUsage]
  | some .ubxMonhw => emitted gnssMonHw fun event => [.gpsMonHWReceived event]
  | some .ubxMonhw2 => emitted gnssMonHw2 fun event => [.gpsMonHW2Received event]
  | some .ubxVersion => emitted gpsVersion onVersion
  | some .ubxNavclock => emitted navClock onNavClock
  | some .ubxNavstatus => emitted navStatus onNavStatus
  | some .ubxCfgTp5 => emitted ubxTimePulse fun event => [.gpsTP5Received event]
  | some .histogram => emitted histogram fun event => [.histogramReceived event]
  | some .adcMode => emitted adcModeEvent fun event => [.adcModeReceived event.mode]
  | some .logInfo => emitted logInfo fun event => [.logInfoReceived event]
  | some .mqttStatus => emitted mqttStatusEvent onMqttStatus
  | some .gpioInhibit => emitted gpioInhibitEvent fun event => [.gpioInhibitReceived event.inhibit]
  | some .mqttInhibit => emitted mqttInhibitEvent fun event => [.mqttInhibitReceived event.inhibit]
  | some .version => emitted versionEvent fun event =>
      [.daemonVersionReceived event.hwVer event.swVer]
  | some .positionModel => emitted positionModeConfig fun event =>
      [.positionModeConfigReceived event]
  | _ => some [.unknownMessage packet.key]

/-! ## The events of the sink -/

/-- The events that the sink is subscribed to. A histogram is one that its operations have
made. -/
inductive SinkEvent where
  | adcMode (event : AdcModeEvent)
  | adcTrace (event : AdcTraceEvent)
  | ads1115 (event : ADS1115Event)
  | biasSwitch (event : BiasSwitchEvent)
  | biasVoltage (event : BiasVoltageEvent)
  | calib (event : CalibEvent)
  | gainSwitch (event : GainSwitchEvent)
  | gpioRate (event : GpioRateEvent)
  | gpioInhibit (event : GpioInhibitEvent)
  | i2cStats (event : I2CStatsEvent)
  | temperature (event : TemperatureEvent)
  | mcp4728 (event : MCP4728Event)
  | mqttStatus (event : MqttStatusEvent)
  | pcaSwitch (event : PcaSwitchEvent)
  | polaritySwitch (event : PolaritySwitchEvent)
  | preampSwitch (event : PreampSwitchEvent)
  | spiStats (event : SPIStatsEvent)
  | gpio (event : GpioEvent)
  | thresholdSetting (event : ThresholdSettingEvent)
  | navSat (event : NavSat)
  | cfgMsg (event : CfgMsg)
  | cfgGNSS (event : CfgGNSS)
  | gnssPos (event : GnssPosStruct)
  | ubxTimeMark (event : UbxTimeMarkStruct)
  | monTx (event : MonTx)
  | monRx (event : MonRx)
  | gnssMonHw (event : GnssMonHwStruct)
  | gnssMonHw2 (event : GnssMonHw2Struct)
  | gpsVersion (event : GpsVersion)
  | navStatus (event : NavStatus)
  | navClock (event : NavClock)
  | ubxTimePulse (event : UbxTimePulseStruct)
  | histogram (event : NamedHistogram) (reached : Reached event.toHistogram)
  | logInfo (event : LogInfoStruct)
  | positionMode (event : PositionModeConfig)
  | version (event : VersionEvent)

/-- An event as a value of its type, with the codec of the type and what the window emits for
a value of it. -/
structure Coded where
  Value : Type
  codec : CapnpCodec Value
  emit : Value → List Signal
  value : Value

def SinkEvent.coded (w : Window) : SinkEvent → Coded
  | .adcMode event => ⟨_, adcModeEvent, fun e => [.adcModeReceived e.mode], event⟩
  | .adcTrace event => ⟨_, adcTraceEvent, fun e => [.adcTraceReceived e.adcSampleBuffer], event⟩
  | .ads1115 event =>
    ⟨_, ads1115Event w.memory, fun e => [.adcSampleReceived e.channel e.voltage], event⟩
  | .biasSwitch event => ⟨_, biasSwitchEvent, fun e => [.biasSwitchReceived e.biasOn], event⟩
  | .biasVoltage event => ⟨_, biasVoltageEvent, fun e => [.biasDacVoltage e.voltage], event⟩
  | .calib event => ⟨_, calibEvent, onCalib, event⟩
  | .gainSwitch event => ⟨_, gainSwitchEvent, fun e => [.gainSwitchReceived e.state], event⟩
  | .gpioRate event => ⟨_, gpioRateEvent, fun e => [.gpioRates e.whichRate e.rate], event⟩
  | .gpioInhibit event => ⟨_, gpioInhibitEvent, fun e => [.gpioInhibitReceived e.inhibit], event⟩
  | .i2cStats event => ⟨_, i2cStatsEvent, onI2cStats, event⟩
  | .temperature event =>
    ⟨_, temperatureEvent, fun e => [.temperatureReceived e.temperature], event⟩
  | .mcp4728 event => ⟨_, mcp4728Event w.orders, onDacReadback w.orders.voltage, event⟩
  | .mqttStatus event => ⟨_, mqttStatusEvent, onMqttStatus, event⟩
  | .pcaSwitch event => ⟨_, pcaSwitchEvent, onPcaSwitch, event⟩
  | .polaritySwitch event => ⟨_, polaritySwitchEvent, onPolaritySwitch, event⟩
  | .preampSwitch event =>
    ⟨_, preampSwitchEvent, fun e => [.preampSwitchReceived e.channel e.state], event⟩
  | .spiStats event => ⟨_, spiStatsEvent, fun e => [.spiStatsReceived e.spiPresent], event⟩
  | .gpio event => ⟨_, gpioEvent, onGpioEvent, event⟩
  | .thresholdSetting event => ⟨_, thresholdSettingEvent, onThreshold, event⟩
  | .navSat event => ⟨_, EventCodecs.navSat, fun e => [.satsReceived e.satellites], event⟩
  | .cfgMsg event => ⟨_, GnssCodecs.cfgMsg, fun e => [.addCfgMsgRate e], event⟩
  | .cfgGNSS event =>
    ⟨_, EventCodecs.cfgGNSS, fun e => [.gnssConfigsReceived e.numTrkChHw e.configs], event⟩
  | .gnssPos event => ⟨_, GnssCodecs.gnssPos, fun e => [.geodeticPos e], event⟩
  | .ubxTimeMark event => ⟨_, EventCodecs.ubxTimeMark, onTimeMark, event⟩
  | .monTx event => ⟨_, EventCodecs.monTx, onTxBuf, event⟩
  | .monRx event => ⟨_, EventCodecs.monRx, onRxBuf, event⟩
  | .gnssMonHw event => ⟨_, GnssCodecs.gnssMonHw, fun e => [.gpsMonHWReceived e], event⟩
  | .gnssMonHw2 event => ⟨_, GnssCodecs.gnssMonHw2, fun e => [.gpsMonHW2Received e], event⟩
  | .gpsVersion event => ⟨_, GnssCodecs.gpsVersion, onVersion, event⟩
  | .navStatus event => ⟨_, GnssCodecs.navStatus, onNavStatus, event⟩
  | .navClock event => ⟨_, GnssCodecs.navClock, onNavClock, event⟩
  | .ubxTimePulse event => ⟨_, GnssCodecs.ubxTimePulse, fun e => [.gpsTP5Received e], event⟩
  | .histogram event _ => ⟨_, HistogramCodec.histogram, fun e => [.histogramReceived e], event⟩
  | .logInfo event => ⟨_, GnssCodecs.logInfo, fun e => [.logInfoReceived e], event⟩
  | .positionMode event =>
    ⟨_, positionModeConfig, fun e => [.positionModeConfigReceived e], event⟩
  | .version event =>
    ⟨_, versionEvent, fun e => [.daemonVersionReceived e.hwVer e.swVer], event⟩

namespace SinkEvent

variable (w : Window) (event : SinkEvent)

/-- The packet that `TcpSink::handle` sends. -/
def packet : TcpPacket :=
  ⟨(event.coded w).codec.messageKey, (event.coded w).codec.encode w.lib (event.coded w).value⟩

/-- What the window is to emit for the event. -/
def signals : List Signal := (event.coded w).emit (event.coded w).value

end SinkEvent

section Emit

variable {T : Type} {codec : CapnpCodec T} {emit : T → List Signal} {value : T}

end Emit

end MuonDetector.Gui.Decoder
