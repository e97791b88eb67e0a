import MuonDetector.Utility.StaticPosition

/-!
# How positions go through the daemon

The handlers that `setupDatastore` registers around the position manager, with the part of
the data store that they use: the histograms of the position, the dilution of precision
and the stored configuration. A histogram of the data store and the one that the manager
has are the same object, which is kept with the manager here.
-/

namespace MuonDetector.Core.Positions

open MuonDetector.Library MuonDetector.Library.Messages MuonDetector.Library.Floats
open MuonDetector.Capnp.EventCodecs (GeoPosition PositionModeConfig)
open MuonDetector.Ublox.Events (GnssPosStruct UbxDopStruct)
open MuonDetector.Data (Histogram)
open MuonDetector.Utility MuonDetector.Utility.GeoPosManager

inductive HistoName where
  | geoHeight
  | weightedGeoHeight
  | geoLongitude
  | geoLatitude
  deriving DecidableEq, Repr

/-- What is published for the sinks. -/
inductive Published where
  | gnssPos (pos : GnssPosStruct)
  /-- The value of the log parameter of this name. -/
  | meanGeoHeightMSL (mean : Binary64)
  | positionModeConfig (modeConfig : PositionModeConfig)
  deriving DecidableEq, Repr

/-- `entries` counts the calls that have filled each of the histograms. -/
structure Daemon where
  geoPosManager : GeoPosManager
  weightedGeoHeight : Histogram Binary64 := .create 200 0.0 199.0 true
  dop : Option UbxDopStruct := none
  positionModeConfig : Option PositionModeConfig := none
  published : List Published := []
  entries : HistoName → Nat := fun _ => 0

/-- The manager as `setupHistos` and `setupDatastore` leave it. -/
def setupDatastore : Daemon where
  geoPosManager := {
    lonHisto := some (.create 200 0.0 0.003 true)
    latHisto := some (.create 200 0.0 0.003 true)
    heightHisto := some (.create 200 0.0 199.0 true)
    lockinReadyFn := true
    validPosFn := true }

/-- The part of the start-up that sets the configuration. -/
def setup (modeConfig : PositionModeConfig) : Daemon :=
  { setupDatastore with
    geoPosManager := setModeConfig setupDatastore.geoPosManager modeConfig
    positionModeConfig := some modeConfig }

/-! ## Filling the histograms -/

/-- A call of `Histogram::fill`. -/
structure Fill where
  histo : HistoName
  value : Binary64
  mult : Binary64 := 1.0
  deriving DecidableEq, Repr

def ofUInt16 (i : UInt16) : Binary64 := Floating.ofInt i.toNat

/-- The calls of `fillHisto(GnssPosStruct)`. -/
def fills (modeConfig : PositionModeConfig) (dop : Option UbxDopStruct) (pos : GnssPosStruct) :
    List Fill :=
  match dop with
  | none => []
  | some dop =>
    (if 1e-3 * ofUInt32 pos.vAcc < 100.0 ∧ (modeConfig.mode ≠ .lockIn ∨
        ofUInt16 dop.vDOP / 100.0 < modeConfig.lockInMaxDop) then
      let height := 1e-3 * ofInt32 pos.hMSL
      { histo := .geoHeight, value := height } ::
        if dop.vDOP > 0 then
          [{ histo := .weightedGeoHeight, value := height, mult := 100.0 / ofUInt16 dop.vDOP }]
        else []
    else []) ++
    (if 1e-3 * ofUInt32 pos.hAcc < 100.0 ∧ ofUInt16 dop.hDOP / 100.0 < modeConfig.lockInMaxDop then
      [{ histo := .geoLongitude, value := 1e-7 * ofInt32 pos.lon },
        { histo := .geoLatitude, value := 1e-7 * ofInt32 pos.lat }]
    else [])

def histogram (s : Daemon) : HistoName → Option (Histogram Binary64)
  | .geoHeight => s.geoPosManager.heightHisto
  | .weightedGeoHeight => some s.weightedGeoHeight
  | .geoLongitude => s.geoPosManager.lonHisto
  | .geoLatitude => s.geoPosManager.latHisto

def setHistogram (s : Daemon) (histo : Histogram Binary64) : HistoName → Daemon
  | .geoHeight => { s with geoPosManager := { s.geoPosManager with heightHisto := some histo } }
  | .weightedGeoHeight => { s with weightedGeoHeight := histo }
  | .geoLongitude => { s with geoPosManager := { s.geoPosManager with lonHisto := some histo } }
  | .geoLatitude => { s with geoPosManager := { s.geoPosManager with latHisto := some histo } }

/-- The call, with room on the stack for so many calls in each other. -/
def applyFill (stack : Nat) (s : Daemon) (f : Fill) : Option Daemon := do
  let histo ← histogram s f.histo
  let histo' ← histo.fill stack f.value f.mult
  some { setHistogram s histo' f.histo with
    entries := Function.update s.entries f.histo (s.entries f.histo + 1) }

/-! ## The handlers -/

def publish (s : Daemon) (event : Published) : Daemon :=
  { s with published := s.published ++ [event] }

/-- The mean height goes to the log. -/
def meanGeoHeight (s : Daemon) : List Published :=
  (s.geoPosManager.heightHisto.map fun histo => .meanGeoHeightMSL histo.getMean).toList

def processGeoPos (overflows : Overflows) (stack : Nat) (s : Daemon) (pos : GeoPosition) :
    Option Daemon :=
  let data := getPosStruct overflows pos
  let s := { s with published := s.published ++ .gnssPos data :: meanGeoHeight s }
  Machine.run (applyFill stack) s (fills s.geoPosManager.modeConfig s.dop data)

/-- What `setupDatastore` has bound to the two callbacks. -/
def callback (overflows : Overflows) (stack : Nat) (s : Daemon) : Callback → Option Daemon
  | .lockinReady pos => processGeoPos overflows stack s pos
  | .validPos pos => processGeoPos overflows stack s pos

/-- The handler of `DatastoreStoreEvent<GnssPosStruct>`. The manager has made its changes
before it calls back. -/
def handleGnssPos (overflows : Overflows) (stack : Nat) (s : Daemon) (event : GnssPosStruct)
    (now filterNow : Int) : Option Daemon := do
  let (manager, calls) ← fillFromGps overflows s.geoPosManager event now filterNow
  Machine.run (callback overflows stack) { s with geoPosManager := manager } calls

/-- The handler of `PositionModeCmd`. -/
def handlePositionModeCmd (s : Daemon) (cmd : PositionModeConfig) : Daemon :=
  let manager := setModeConfig s.geoPosManager cmd
  publish { s with geoPosManager := manager } (.positionModeConfig manager.modeConfig)

/-- The handler of `DatastoreStoreEvent<PositionModeConfig>`. -/
def storePositionModeConfig (s : Daemon) (modeConfig : PositionModeConfig) : Daemon :=
  publish { s with positionModeConfig := some modeConfig } (.positionModeConfig modeConfig)

/-- What `pollDatastore` publishes of the configuration. -/
def pollPositionModeConfig (s : Daemon) : List Published :=
  (s.positionModeConfig.map Published.positionModeConfig).toList

/-- A client has connected. -/
def handleNewClient (overflows : Overflows) (s : Daemon) : Daemon :=
  let s := { s with published := s.published ++ pollPositionModeConfig s }
  if s.geoPosManager.modeConfig.mode = .static then
    publish s (.gnssPos (getPosStruct overflows s.geoPosManager.modeConfig.staticPosition))
  else s

inductive Label where
  | positionModeCmd (cmd : PositionModeConfig)
  | gnssPos (event : GnssPosStruct) (now filterNow : Int)
  | navClock (tAcc : UInt32) (now : Int)
  | navStatus (gpsFix : UInt8) (now : Int)
  | dop (data : UbxDopStruct)
  | storePositionModeConfig (modeConfig : PositionModeConfig)
  | newClient
  /-- A histogram is cleared or rescaled. -/
  | histogramChanged (name : HistoName) (histo : Histogram Binary64)

def step (overflows : Overflows) (stack : Nat) (s : Daemon) : Label → Option Daemon
  | .positionModeCmd cmd => some (handlePositionModeCmd s cmd)
  | .gnssPos event now filterNow => handleGnssPos overflows stack s event now filterNow
  | .navClock tAcc now =>
    some { s with geoPosManager := setTimeAccuracy s.geoPosManager tAcc now }
  | .navStatus gpsFix now =>
    some { s with geoPosManager := setFixStatus s.geoPosManager gpsFix now }
  | .dop data => some { s with dop := some data }
  | .storePositionModeConfig modeConfig => some (storePositionModeConfig s modeConfig)
  | .newClient => some (handleNewClient overflows s)
  | .histogramChanged name histo => some (setHistogram s histo name)

abbrev run (overflows : Overflows) (stack : Nat) : Daemon → List Label → Option Daemon :=
  Machine.run (step overflows stack)

/-! ## Some values -/

def autoMode : PositionModeConfig := { mode := .auto, filterConfig := .none }

def lockInMode : PositionModeConfig := { mode := .lockIn, filterConfig := .none }

/-- A dilution of precision of 1. -/
def goodDop : UbxDopStruct := ⟨100, 100, 100, 100, 100, 100, 100⟩

/-! ## What the callbacks leave alone -/

/-- Apart from the histograms and what was published nothing is different. -/
structure Frame (s s' : Daemon) : Prop where
  modeConfig : s'.geoPosManager.modeConfig = s.geoPosManager.modeConfig
  lockinReadyFn : s'.geoPosManager.lockinReadyFn = s.geoPosManager.lockinReadyFn
  validPosFn : s'.geoPosManager.validPosFn = s.geoPosManager.validPosFn
  positionModeConfig : s'.positionModeConfig = s.positionModeConfig
  dop : s'.dop = s.dop

theorem Frame.trans {s s' s'' : Daemon} (h : Frame s s') (h' : Frame s' s'') : Frame s s'' where
  modeConfig := h'.modeConfig.trans h.modeConfig
  lockinReadyFn := h'.lockinReadyFn.trans h.lockinReadyFn
  validPosFn := h'.validPosFn.trans h.validPosFn
  positionModeConfig := h'.positionModeConfig.trans h.positionModeConfig
  dop := h'.dop.trans h.dop

theorem Frame.refl (s : Daemon) : Frame s s := ⟨rfl, rfl, rfl, rfl, rfl⟩

theorem Frame.run {α : Type} {f : Daemon → α → Option Daemon}
    (hf : ∀ s a s', f s a = some s' → Frame s s') {as : List α} {s s' : Daemon}
    (h : Machine.run f s as = some s') : Frame s s' :=
  Machine.run_history (I := fun _ t => Frame s t) (fun _ u a u' hu ha => hu.trans (hf u a u' ha))
    (Frame.refl s) h

theorem setHistogram_frame (s : Daemon) (histo : Histogram Binary64) (name : HistoName) :
    Frame s (setHistogram s histo name) := by
  cases name <;> exact ⟨rfl, rfl, rfl, rfl, rfl⟩

theorem applyFill_frame {stack : Nat} {s s' : Daemon} {f : Fill}
    (h : applyFill stack s f = some s') : Frame s s' := by
  obtain ⟨histo, -, h⟩ := Option.bind_eq_some_iff.mp h
  obtain ⟨histo', -, h⟩ := Option.bind_eq_some_iff.mp h
  obtain rfl := Option.some.inj h
  obtain ⟨hconfig, hlockin, hvalid, hstored, hdop⟩ := setHistogram_frame s histo' f.histo
  exact ⟨hconfig, hlockin, hvalid, hstored, hdop⟩

theorem processGeoPos_frame {overflows : Overflows} {stack : Nat} {s s' : Daemon}
    {pos : GeoPosition} (h : processGeoPos overflows stack s pos = some s') : Frame s s' := by
  have hpublished : Frame s { s with
      published := s.published ++ .gnssPos (getPosStruct overflows pos) :: meanGeoHeight s } :=
    ⟨rfl, rfl, rfl, rfl, rfl⟩
  exact hpublished.trans (Frame.run (fun _ _ _ => applyFill_frame) h)

theorem callback_frame {overflows : Overflows} {stack : Nat} {s s' : Daemon}
    {call : Callback} (h : callback overflows stack s call = some s') : Frame s s' := by
  cases call <;> exact processGeoPos_frame h

/-- To a new client something is published, and nothing else happens. -/
theorem handleNewClient_eq (overflows : Overflows) (s : Daemon) :
    ∃ published, handleNewClient overflows s = { s with published := published } := by
  unfold handleNewClient
  dsimp only
  split <;> exact ⟨_, rfl⟩

/-- A fix leaves the data store alone, and the configuration is the one of the manager. -/
theorem handleGnssPos_some {overflows : Overflows} {stack : Nat} {s s' : Daemon}
    {event : GnssPosStruct} {now filterNow : Int}
    (h : handleGnssPos overflows stack s event now filterNow = some s') :
    ∃ manager calls,
      fillFromGps overflows s.geoPosManager event now filterNow = some (manager, calls) ∧
        Machine.run (callback overflows stack) { s with geoPosManager := manager } calls =
          some s' ∧
        Frame { s with geoPosManager := manager } s' := by
  obtain ⟨⟨manager, calls⟩, hfix, h⟩ := Option.bind_eq_some_iff.mp h
  exact ⟨manager, calls, hfix, h, Frame.run (fun _ _ _ => callback_frame) h⟩

end MuonDetector.Core.Positions
