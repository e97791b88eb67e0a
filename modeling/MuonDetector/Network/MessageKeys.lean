import Mathlib.Data.List.Basic

/-!
# Message keys

The keys that tell the receiver of a packet what its payload is. A key travels as its
number.
-/

namespace MuonDetector.Network.MessageKeys

inductive TcpMsgKey where
  | pong
  | ping
  | threshold
  | thresholdRequest
  | ubxMsgRateRequest
  | ubxMsgRate
  | gpioEvent
  | biasVoltage
  | biasVoltageRequest
  | biasSwitch
  | biasSwitchRequest
  | pcaSwitch
  | pcaSwitchRequest
  | gpioRateRequest
  | gpioRate
  | geoPos
  | adcSample
  | adcSampleRequest
  | dacReadback
  | dacRequest
  | gainSwitch
  | gainSwitchRequest
  | preampSwitch
  | preampSwitchRequest
  | temperature
  | temperatureRequest
  | dacEepromSet
  | calibSet
  | calibRequest
  | i2cStats
  | i2cStatsRequest
  | gnssSats
  | calibSave
  | ubxTimeAccuracy
  | i2cScanBus
  | ubxTxbuf
  | ubxTxbufPeak
  | ubxMonhw
  | ubxVersion
  | ubxFixstatus
  | ubxEventcounter
  | ubxReset
  | ubxConfigDefault
  | ubxFreqAccuracy
  | ubxMonhw2
  | ubxGnssConfig
  | ubxUptime
  | ubxCfgTp5
  | gpioRateReset
  | histogram
  | ubxCfgSave
  | ubxRxbuf
  | ubxRxbufPeak
  | eventtrigger
  | eventtriggerRequest
  | spiStats
  | spiStatsRequest
  | histogramRequest
  | histogramClear
  | adcTrace
  | adcMode
  | adcModeRequest
  | logInfo
  | fileDownload
  | oledEntries
  | rateScan
  | mqttStatus
  | gpioInhibit
  | ubxTimemark
  | polaritySwitch
  | polaritySwitchRequest
  | mqttInhibit
  | version
  | dacSet
  | positionModel
  | reserved2
  | reserved3
  | ubxMsgPoll
  | ubxNavclock
  | ubxNavstatus
  | sds011Sample
  deriving DecidableEq, Repr

namespace TcpMsgKey

def number : TcpMsgKey → UInt16
  | .pong => 1
  | .ping => 2
  | .threshold => 7
  | .thresholdRequest => 11
  | .ubxMsgRateRequest => 13
  | .ubxMsgRate => 17
  | .gpioEvent => 19
  | .biasVoltage => 23
  | .biasVoltageRequest => 29
  | .biasSwitch => 31
  | .biasSwitchRequest => 37
  | .pcaSwitch => 41
  | .pcaSwitchRequest => 43
  | .gpioRateRequest => 47
  | .gpioRate => 53
  | .geoPos => 61
  | .adcSample => 67
  | .adcSampleRequest => 71
  | .dacReadback => 73
  | .dacRequest => 79
  | .gainSwitch => 83
  | .gainSwitchRequest => 89
  | .preampSwitch => 97
  | .preampSwitchRequest => 101
  | .temperature => 103
  | .temperatureRequest => 107
  | .dacEepromSet => 109
  | .calibSet => 127
  | .calibRequest => 131
  | .i2cStats => 137
  | .i2cStatsRequest => 139
  | .gnssSats => 149
  | .calibSave => 151
  | .ubxTimeAccuracy => 157
  | .i2cScanBus => 163
  | .ubxTxbuf => 167
  | .ubxTxbufPeak => 173
  | .ubxMonhw => 179
  | .ubxVersion => 181
  | .ubxFixstatus => 191
  | .ubxEventcounter => 193
  | .ubxReset => 197
  | .ubxConfigDefault => 199
  | .ubxFreqAccuracy => 211
  | .ubxMonhw2 => 213
  | .ubxGnssConfig => 221
  | .ubxUptime => 223
  | .ubxCfgTp5 => 227
  | .gpioRateReset => 229
  | .histogram => 233
  | .ubxCfgSave => 239
  | .ubxRxbuf => 241
  | .ubxRxbufPeak => 251
  | .eventtrigger => 257
  | .eventtriggerRequest => 263
  | .spiStats => 269
  | .spiStatsRequest => 271
  | .histogramRequest => 273
  | .histogramClear => 277
  | .adcTrace => 281
  | .adcMode => 283
  | .adcModeRequest => 293
  | .logInfo => 307
  | .fileDownload => 311
  | .oledEntries => 313
  | .rateScan => 317
  | .mqttStatus => 331
  | .gpioInhibit => 337
  | .ubxTimemark => 349
  | .polaritySwitch => 353
  | .polaritySwitchRequest => 359
  | .mqttInhibit => 367
  | .version => 373
  | .dacSet => 383
  | .positionModel => 389
  | .reserved2 => 397
  | .reserved3 => 401
  | .ubxMsgPoll => 403
  | .ubxNavclock => 405
  | .ubxNavstatus => 407
  | .sds011Sample => 411

/-- The keys in the order of the source. -/
def all : List TcpMsgKey :=
  [.pong, .ping, .threshold, .thresholdRequest, .ubxMsgRateRequest, .ubxMsgRate, .gpioEvent,
    .biasVoltage, .biasVoltageRequest, .biasSwitch, .biasSwitchRequest, .pcaSwitch,
    .pcaSwitchRequest, .gpioRateRequest, .gpioRate, .geoPos, .adcSample, .adcSampleRequest,
    .dacReadback, .dacRequest, .gainSwitch, .gainSwitchRequest, .preampSwitch,
    .preampSwitchRequest, .temperature, .temperatureRequest, .dacEepromSet, .calibSet,
    .calibRequest, .i2cStats, .i2cStatsRequest, .gnssSats, .calibSave, .ubxTimeAccuracy,
    .i2cScanBus, .ubxTxbuf, .ubxTxbufPeak, .ubxMonhw, .ubxVersion, .ubxFixstatus,
    .ubxEventcounter, .ubxReset, .ubxConfigDefault, .ubxFreqAccuracy, .ubxMonhw2,
    .ubxGnssConfig, .ubxUptime, .ubxCfgTp5, .gpioRateReset, .histogram, .ubxCfgSave, .ubxRxbuf,
    .ubxRxbufPeak, .eventtrigger, .eventtriggerRequest, .spiStats, .spiStatsRequest,
    .histogramRequest, .histogramClear, .adcTrace, .adcMode, .adcModeRequest, .logInfo,
    .fileDownload, .oledEntries, .rateScan, .mqttStatus, .gpioInhibit, .ubxTimemark,
    .polaritySwitch, .polaritySwitchRequest, .mqttInhibit, .version, .dacSet, .positionModel,
    .reserved2, .reserved3, .ubxMsgPoll, .ubxNavclock, .ubxNavstatus, .sds011Sample]

/-- The key of a number, when there is one with a name. -/
def ofNumber (number : UInt16) : Option TcpMsgKey := all.find? fun key => key.number == number

theorem mem_all (key : TcpMsgKey) : key ∈ all := by
  rw [← List.elem_iff]
  cases key <;> rfl

theorem ofNumber_of_mem : ∀ key ∈ all, ofNumber key.number = some key := by
  decide +kernel

/-- No two keys share a number. -/
@[simp] theorem ofNumber_number (key : TcpMsgKey) : ofNumber key.number = some key :=
  ofNumber_of_mem key (mem_all key)

end TcpMsgKey

end MuonDetector.Network.MessageKeys
