import MuonDetector.Core.DataStore
import MuonDetector.Core.Handlers
import MuonDetector.Library.Latest

/-!
# Stored events

Most events come to the bus wrapped: the data store takes the value, and only then the event
itself is published and goes to the sink. Requests are answered from the data store, and so is
a new connection. Some events are published without the wrapping. The two preamplifiers are
stored together, and the histograms are not stored but filled. The handlers do not look into
the values, apart from those of the DAC and of the preamplifiers.
-/

namespace MuonDetector.Core.StoredEvents

open MuonDetector.Core.DataStore (setChannel firstEntry secondEntry)
open MuonDetector.Core.Handlers
open MuonDetector.Data.Events (PreampSwitchEvent)

/-! ## Events -/

/-- The types that are given to `subscribe_all`. -/
inductive Kind where
  | cfgGnss
  | cfgAnt
  | cfgNavX5
  | cfgNav5
  | navSat
  | monTx
  | monRx
  | navStatus
  | navClock
  | ubxTimeMark
  | ubxTimePulse
  | gnssMonHw
  | gnssMonHw2
  | navTimeGps
  | navTimeUtc
  | mqttStatus
  | ubxDop
  | adcTrace
  | biasSwitch
  | gainSwitch
  | calib
  | showerDetectorCalib
  | gpioRate
  | gpioInhibit
  | temperature
  | mcp4728
  | pcaSwitch
  | polaritySwitch
  | gpsVersion
  | eventTrigger
  | logInfo
  | positionModeConfig
  | version
  deriving DecidableEq, Repr

/-- `setupTcpSink` subscribes the sink to the type. -/
def Kind.sunk : Kind → Bool
  | .cfgAnt | .cfgNavX5 | .cfgNav5 | .navTimeGps | .navTimeUtc | .ubxDop | .showerDetectorCalib
  | .eventTrigger => false
  | _ => true

/-- Events of the type are published without the wrapping: by the ADC driver, by the decoder of
the clients' commands, and where the position mode is set. -/
def Kind.direct : Kind → Bool
  | .adcTrace | .gpioInhibit | .positionModeConfig => true
  | _ => false

/-- Events of the type are filled into histograms when they are stored. -/
def Kind.fills : Kind → Bool
  | .ubxTimeMark | .ubxDop => true
  | _ => false

/-- The histograms of `setupHistos`. -/
inductive Histo where
  | geoHeight
  | geoLongitude
  | geoLatitude
  | weightedGeoHeight
  | pulseHeight
  | adcSampleTime
  | ubxEventLength
  | gpioEventInterval
  | gpioEventIntervalShort
  | ubxEventInterval
  | tpTimePhase
  | tpTimeJitter
  | biasVoltage
  | biasCurrent
  | pDOP
  | tDOP
  deriving DecidableEq, Repr

/-- What is calculated from the voltages of the DAC: `ThresholdSettingEvent` of both channels
and `BiasVoltageEvent`. -/
inductive Setting where
  | threshold1
  | threshold2
  | biasVoltage
  deriving DecidableEq, Repr

/-- `MuonPi::Config::Hardware::DAC::Channel`. -/
def Setting.channel : Setting → UInt8
  | .threshold1 => 0
  | .threshold2 => 1
  | .biasVoltage => 2

inductive Topic where
  | stored (k : Kind)
  | setting (e : Setting)
  /-- `PreampSwitchEvent`. -/
  | preamp
  | histogram (name : Histo)
  deriving DecidableEq, Repr

/-- The types themselves, with the voltages that a DAC event has, what is done with a histogram,
and the order in which the map of the histograms gives them. -/
structure Payloads where
  Data : Kind → Type
  Voltage : Type
  voltages : Data .mcp4728 → UInt8 → Option Voltage
  Histogram : Type
  rescale : Histogram → Histogram
  clear : Histogram → Histogram
  allHistos : List Histo
  mem_allHistos : ∀ name, name ∈ allHistos

variable (P : Payloads)

abbrev Payloads.Value : Topic → Type
  | .stored k => P.Data k
  | .setting _ => P.Voltage
  | .preamp => PreampSwitchEvent
  | .histogram _ => P.Histogram

structure Event where
  topic : Topic
  value : P.Value topic

/-! ## Tasks and operations -/

/-- The commands that are answered with one type from the data store. -/
inductive Request where
  | dacSetting
  | pcaSwitch
  | biasSwitch
  | polaritySwitch
  | gainSwitch
  | gpioRate
  | temperature
  | calib
  | eventTrigger
  deriving DecidableEq, Repr

def Request.kind : Request → Kind
  | .dacSetting => .mcp4728
  | .pcaSwitch => .pcaSwitch
  | .biasSwitch => .biasSwitch
  | .polaritySwitch => .polaritySwitch
  | .gainSwitch => .gainSwitch
  | .gpioRate => .gpioRate
  | .temperature => .temperature
  | .calib => .calib
  | .eventTrigger => .eventTrigger

inductive Task where
  | datastoreStoreEvent (k : Kind) (data : P.Data k)
  | event (e : Event P)
  | request (r : Request)
  | thresholdSettingRequest
  | biasVoltageRequest
  | preampStoreEvent (event : PreampSwitchEvent)
  | preampSwitchRequest
  /-- An event that is not stored but filled into histograms. -/
  | filling
  /-- `HistogramRequestCmd`. The handler of `LogTriggerEvent` ends with the same. -/
  | histogramRequest
  /-- `HistogramClearCmd`, `none` with a name that no histogram has. -/
  | histogramClear (name : Option Histo)
  | serverConnCount (newlyConnected : Bool)

inductive Op where
  | lastUpdate (k : Kind)
  | get (k : Kind)
  | store (k : Kind) (data : P.Data k)
  | lastUpdatePreamps
  | getPreamps
  | storePreamps (data : Vector PreampSwitchEvent 2)
  | fillHisto
  | rescale (name : Histo)
  | clear (name : Histo)
  | copy (name : Histo)
  | handle (e : Event P)
  | readDac

abbrev Op.Res : Op P → Type
  | .lastUpdate _ => Bool
  | .get k => Option (P.Data k)
  | .store .. => Unit
  | .lastUpdatePreamps => Bool
  | .getPreamps => Option (Vector PreampSwitchEvent 2)
  | .storePreamps _ => Unit
  | .fillHisto => Unit
  | .rescale _ => Unit
  | .clear _ => Unit
  | .copy _ => P.Histogram
  | .handle _ => Unit
  | .readDac => Option (P.Data .mcp4728)

abbrev Histos := Histo → P.Histogram

/-- The data store, and what the sink was called with so far; how often a preamplifier was
stored, and what each histogram was when it was last copied. -/
structure Daemon where
  data : (k : Kind) → Option (P.Data k)
  preamps : Option (Vector PreampSwitchEvent 2) := none
  histos : Histos P
  sent : List (Event P) := []
  preampStores : Nat := 0
  copied : Histo → Option P.Histogram := fun _ => none

variable {P}

namespace Daemon

variable (s : Daemon P)

def store (k : Kind) (data : P.Data k) : Daemon P :=
  { s with data := Function.update s.data k (some data) }

def storePreamps (data : Vector PreampSwitchEvent 2) : Daemon P :=
  { s with preamps := some data, preampStores := s.preampStores + 1 }

def filled (fill : Histos P → Histos P) : Daemon P := { s with histos := fill s.histos }

/-- A histogram is changed by `rescale` or `clear`. -/
def onHisto (name : Histo) (f : P.Histogram → P.Histogram) : Daemon P :=
  s.filled fun histos => Function.update histos name (f (histos name))

def copy (name : Histo) : Daemon P :=
  { s with copied := Function.update s.copied name (some (s.histos name)) }

/-- `TcpSink::handle`. -/
def handle (e : Event P) : Daemon P := { s with sent := s.sent ++ [e] }

variable {s} {k : Kind} {data : P.Data k}

@[simp] theorem store_data_self : (s.store k data).data k = some data :=
  Function.update_self ..

theorem store_data_of_ne {k' : Kind} (h : k' ≠ k) : (s.store k data).data k' = s.data k' :=
  Function.update_of_ne h ..

end Daemon

abbrev Prog (P : Payloads) := Program (Task P) (Op P) (Op.Res P)

/-! ## The handlers -/

def publishStored (k : Kind) (data : P.Data k) (next : Prog P) : Prog P :=
  .publish (.event ⟨.stored k, data⟩) next

/-- What is stored of a type is published. A null pointer is never behind `lastUpdate`. -/
def offer (k : Kind) (next : Prog P) : Prog P :=
  .call (.lastUpdate k) fun has =>
    if has then .call (.get k) fun data? =>
      match data? with
      | none => .throws
      | some data => publishStored k data next
    else next

/-- A voltage that the DAC event does not have is an exception. -/
def publishSetting (data : P.Data .mcp4728) (next : Prog P) (e : Setting) : Prog P :=
  match P.voltages data e.channel with
  | none => .throws
  | some voltage => .publish (.event ⟨.setting e, voltage⟩) next

def publishSettings (data : P.Data .mcp4728) (es : List Setting) (next : Prog P) : Prog P :=
  es.foldr (fun e rest => publishSetting data rest e) next

/-- The handlers of `ThresholdSettingRequestCmd` and `BiasVoltageRequestCmd`. -/
def offerSettings (es : List Setting) : Prog P :=
  .call (.lastUpdate .mcp4728) fun has =>
    if has then .call (.get .mcp4728) fun data? =>
      match data? with
      | none => .throws
      | some data => publishSettings data es .done
    else .done

/-- The handler of `DatastoreStoreEvent<PreampSwitchEvent>`. -/
def storePreamp (event : PreampSwitchEvent) : Prog P :=
  if event.channel > 1 then .done
  else .call .lastUpdatePreamps fun has =>
    if has then .call .getPreamps fun data? =>
      match data? with
      | none => .throws
      | some data =>
        .call (.storePreamps (setChannel data event)) fun _ => .publish .preampSwitchRequest .done
    else .call (.storePreamps (setChannel (Vector.replicate 2 {}) event)) fun _ => .done

/-- The handler of `PreampSwitchRequestCmd`. -/
def offerPreamps : Prog P :=
  .call .lastUpdatePreamps fun has =>
    if has then .call .getPreamps fun data? =>
      match data? with
      | none => .throws
      | some data =>
        .publish (.event ⟨.preamp, firstEntry data⟩)
          (.publish (.event ⟨.preamp, secondEntry data⟩) .done)
    else .done

/-- Copies of histograms are published. -/
def offerHistos (names : List Histo) (next : Prog P) : Prog P :=
  names.foldr (fun name next => .call (.rescale name) fun _ => .call (.copy name) fun copy =>
    .publish (.event ⟨.histogram name, copy⟩) next) next

/-- The handler of `HistogramClearCmd`. Nobody is subscribed to the pointer that is published. -/
def clearHisto : Option Histo → Prog P
  | none => .done
  | some name => .call (.clear name) fun _ => .done

/-- The subscription of `MCP4728Driver` to `DacSettingRequestCmd`. -/
def readDac : Prog P :=
  .call .readDac fun data? =>
    match data? with
    | none => .done
    | some data => .publish (.datastoreStoreEvent .mcp4728 data) .done

/-- What the data store does with an event that is not wrapped, ahead of the sink. -/
def convert : (k : Kind) → P.Data k → Prog P → Prog P
  | .mcp4728, data, next => publishSettings data [.threshold1, .threshold2, .biasVoltage] next
  | .mqttStatus, data, next => .call (.store .mqttStatus data) fun _ => next
  | _, _, next => next

/-- The subscription of the sink. -/
def sink (e : Event P) : Prog P := .call (.handle e) fun _ => .done

def requests : List Request :=
  [.biasSwitch, .dacSetting, .pcaSwitch, .eventTrigger, .calib, .gainSwitch, .gpioRate,
    .temperature, .polaritySwitch]

/-- The types for which `pollDatastore` has no command. -/
def offers : List Kind :=
  [.gpsVersion, .cfgGnss, .navSat, .monTx, .monRx, .navStatus, .navClock, .ubxTimePulse,
    .gnssMonHw, .gnssMonHw2, .mqttStatus, .gpioInhibit, .temperature, .positionModeConfig,
    .version, .logInfo]

def pollDatastore : Prog P :=
  requests.foldr (fun r next => .publish (.request r) next)
    (.publish .preampSwitchRequest (offers.foldr offer (offerHistos P.allHistos .done)))

def handler : Task P → Prog P
  | .datastoreStoreEvent k data => .call (.store k data) fun _ => publishStored k data .done
  | .event ⟨.stored k, data⟩ =>
    convert k data (if k.sunk then sink ⟨.stored k, data⟩ else .done)
  | .event ⟨.setting e, voltage⟩ => sink ⟨.setting e, voltage⟩
  | .event ⟨.preamp, event⟩ => sink ⟨.preamp, event⟩
  | .event ⟨.histogram name, histogram⟩ => sink ⟨.histogram name, histogram⟩
  | .request r => offer r.kind (if r = .dacSetting then readDac else .done)
  | .thresholdSettingRequest => offerSettings [.threshold1, .threshold2]
  | .biasVoltageRequest => offerSettings [.biasVoltage]
  | .preampStoreEvent event => storePreamp event
  | .preampSwitchRequest => offerPreamps
  | .filling => .call .fillHisto fun _ => .done
  | .histogramRequest => offerHistos P.allHistos .done
  | .histogramClear name => clearHisto name
  | .serverConnCount newlyConnected => if newlyConnected then pollDatastore else .done

/-- What the DAC reads, if there is one, and what is filled into the histograms. -/
structure Choice (P : Payloads) where
  read : Option (P.Data .mcp4728) := none
  fill : Histos P → Histos P := id

def exec (c : Choice P) (s : Daemon P) : (op : Op P) → Daemon P × op.Res
  | .lastUpdate k => (s, (s.data k).isSome)
  | .get k => (s, s.data k)
  | .store k data => ((s.filled (if k.fills then c.fill else id)).store k data, ())
  | .lastUpdatePreamps => (s, s.preamps.isSome)
  | .getPreamps => (s, s.preamps)
  | .storePreamps data => (s.storePreamps data, ())
  | .fillHisto => (s.filled c.fill, ())
  | .rescale name => (s.onHisto name P.rescale, ())
  | .clear name => (s.onHisto name P.clear, ())
  | .copy name => (s.copy name, s.histos name)
  | .handle e => (s.handle e, ())
  | .readDac => (s, c.read)

def bindings : Bindings (Daemon P) (Task P) (Op P) (Choice P) (Op.Res P) := ⟨handler, exec⟩

/-- What `SystemBuilder::build` stores. -/
structure Initial (P : Payloads) where
  positionModeConfig : P.Data .positionModeConfig
  version : P.Data .version
  eventTrigger : P.Data .eventTrigger
  gpioInhibit : P.Data .gpioInhibit
  mqttStatus : P.Data .mqttStatus
  /-- `setupHistos`. -/
  histos : Histos P

def Initial.data (i : Initial P) : (k : Kind) → Option (P.Data k)
  | .positionModeConfig => some i.positionModeConfig
  | .version => some i.version
  | .eventTrigger => some i.eventTrigger
  | .gpioInhibit => some i.gpioInhibit
  | .mqttStatus => some i.mqttStatus
  | _ => none

end MuonDetector.Core.StoredEvents
