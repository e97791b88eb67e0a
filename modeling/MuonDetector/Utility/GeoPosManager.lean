import MuonDetector.Capnp.EventCodecs
import MuonDetector.Data.Histogram
import MuonDetector.Library.Machine
import MuonDetector.Ublox.Events
import MuonDetector.Utility.KalmanGnssFilter

/-!
# The position manager

`GeoPosManager` makes a position of the fixes of the GPS module, by a filter and a mode.
In static mode the position is fixed, and the mode gets there by a configuration or when
the lock-in has found a position that is good enough. The manager keeps the position in
two places, as its current one and as the static one of its configuration.
-/

namespace MuonDetector.Utility

open MuonDetector.Library MuonDetector.Library.Messages MuonDetector.Library.Floats
open MuonDetector.Capnp.EventCodecs (GeoPosition PositionModeConfig Mode FilterType)
open MuonDetector.Ublox.Events (GnssPosStruct)
open MuonDetector.Data (Histogram)

/-- A value with the time it was set at. -/
structure Property (T : Type) where
  value : T
  updateTime : Int := 0
  deriving DecidableEq, Repr

/-- In microseconds. -/
def Property.age {T : Type} (p : Property T) (now : Int) : Int := (now - p.updateTime).tdiv 1000

/-- The histograms are shared with the data store, the callbacks set or not. -/
structure GeoPosManager where
  position : GeoPosition := {}
  modeConfig : PositionModeConfig := { mode := .static, filterConfig := .none }
  lockinReadyFn : Bool := false
  validPosFn : Bool := false
  kalman : KalmanGnssFilter Binary64 := .create 0.1
  lonHisto : Option (Histogram Binary64) := none
  latHisto : Option (Histogram Binary64) := none
  heightHisto : Option (Histogram Binary64) := none
  fixStatus : Property UInt8 := ⟨0, 0⟩
  timePrecision : Property UInt32 := ⟨0, 0⟩
  deriving DecidableEq, Repr

namespace GeoPosManager

/-! ## Positions -/

def valid (pos : GeoPosition) : Bool :=
  !(pos.longitude == 0.0 && pos.latitude == 0.0 && pos.altitude == 0.0 && pos.horError == 0.0 &&
    pos.vertError == 0.0)

def posError (pos : GeoPosition) : Binary64 :=
  SquareRoot.sqrt (pos.horError * pos.horError + pos.vertError * pos.vertError)

def getPosStruct (overflows : Overflows) (pos : GeoPosition) : GnssPosStruct where
  iTOW := 0
  lon := toInt32 overflows (pos.longitude * 1e7)
  lat := toInt32 overflows (pos.latitude * 1e7)
  height := toInt32 overflows (pos.altitude * 1e3)
  hMSL := toInt32 overflows (pos.altitude * 1e3)
  hAcc := toUInt32 overflows (pos.horError * 1e3)
  vAcc := toUInt32 overflows (pos.vertError * 1e3)

def ofInt32 (i : Int32) : Binary64 := Floating.ofInt i.toInt

def ofUInt32 (i : UInt32) : Binary64 := Floating.ofInt i.toNat

/-! ## The operations -/

/-- The constructor. The default one starts with the configuration that is all zero. -/
def create (modeConfig : PositionModeConfig) : GeoPosManager := { modeConfig := modeConfig }

/-- A call of one of the two callbacks. -/
inductive Callback where
  | lockinReady (pos : GeoPosition)
  | validPos (pos : GeoPosition)
  deriving DecidableEq, Repr

def setModeConfig (s : GeoPosManager) (modeConfig : PositionModeConfig) : GeoPosManager :=
  let kalman :=
    if modeConfig.filterConfig ≠ s.modeConfig.filterConfig ∧ modeConfig.filterConfig = .kalman
    then s.kalman.reset else s.kalman
  let position :=
    if modeConfig.mode = .static then modeConfig.staticPosition else s.position
  { s with kalman := kalman, modeConfig := modeConfig, position := position }

def setStaticPosition (s : GeoPosManager) (pos : GeoPosition) : GeoPosManager :=
  { s with modeConfig := { s.modeConfig with staticPosition := pos } }

def setFixStatus (s : GeoPosManager) (gpsFix : UInt8) (now : Int) : GeoPosManager :=
  { s with fixStatus := ⟨gpsFix, now⟩ }

def setTimeAccuracy (s : GeoPosManager) (tAcc : UInt32) (now : Int) : GeoPosManager :=
  { s with timePrecision := ⟨tAcc, now⟩ }

def pi : Binary64 := 3.14159265358979

def sqrt2 : Binary64 := 1.414213562373095

def minHistoEntries : Binary64 := 10.0

def lockInMinHistogramEntries : Binary64 := 1500.0

def lockInMaxHistogramEntries : Binary64 := 8000.0

def degreeToSurfaceMeters : Binary64 := pi * 2.0 * 6367444.5 / 360.0

/-- `histo && histo->getEntries() < MIN_HISTO_ENTRIES` -/
def tooFew (histo : Option (Histogram Binary64)) : Bool :=
  histo.any fun histo => decide (histo.getEntries < minHistoEntries)

/-- What the filter takes from each of the histograms. -/
def estimate (filter : FilterType) (histo : Histogram Binary64) : Option Binary64 :=
  match filter with
  | .histoMean => some histo.getMean
  | .histoMedian => some histo.getMedian
  | .histoMpv => some histo.getMpv
  | .none => none
  | .kalman => none

/-- The position of the three estimates, with the spread of the histograms as its errors. -/
def posFromHistos (filter : FilterType) (lon lat height : Histogram Binary64) : GeoPosition :=
  match estimate filter height, estimate filter lat, estimate filter lon with
  | some altitude, some latitude, some longitude =>
    let latError := lat.getRMS * degreeToSurfaceMeters
    let lonError := lon.getRMS * degreeToSurfaceMeters / pi * latitude / 180.0
    { longitude := longitude
      latitude := latitude
      altitude := altitude
      horError := SquareRoot.sqrt (latError * latError + lonError * lonError)
      vertError := height.getRMS }
  | _, _, _ => {}

/-- No value where the source would go through a null pointer. -/
def getPosFromHistos (s : GeoPosManager) : Option GeoPosition :=
  if tooFew s.heightHisto || tooFew s.lonHisto || tooFew s.latHisto then some {}
  else do
    let height ← s.heightHisto
    let lat ← s.latHisto
    let lon ← s.lonHisto
    some (posFromHistos s.modeConfig.filterConfig lon lat height)

def isFull (histo : Histogram Binary64) : Bool :=
  !decide (histo.getEntries < lockInMinHistogramEntries)

/-- A histogram with too many entries starts anew. -/
def trim (histo : Histogram Binary64) : Histogram Binary64 :=
  if lockInMaxHistogramEntries < histo.getEntries then histo.clear else histo

/-- The part of a filter that the histograms give the position for. In lock-in mode it
looks at how full they are. -/
def applyHistos (s : GeoPosManager) : Option (GeoPosManager × GeoPosition × Bool) := do
  let pos ← getPosFromHistos s
  if s.modeConfig.mode = .lockIn then do
    let height ← s.heightHisto
    let lat ← s.latHisto
    let lon ← s.lonHisto
    some ({ s with
      heightHisto := some (trim height)
      latHisto := some (trim lat)
      lonHisto := some (trim lon) }, pos, isFull height && isFull lat && isFull lon)
  else some (s, pos, true)

/-- What the filter makes of a new position: the manager, the preliminary position, and
whether it may lock in. -/
def applyFilter (s : GeoPosManager) (newPos : GeoPosition) (now : Int) :
    Option (GeoPosManager × GeoPosition × Bool) :=
  match s.modeConfig.filterConfig with
  | .none => some (s, newPos, true)
  | .kalman =>
    let kalman := s.kalman.process newPos.latitude newPos.longitude newPos.altitude
      (posError newPos) now
    let error := kalman.getAccuracy / sqrt2
    some ({ s with kalman := kalman }, ⟨kalman.lng, kalman.lat, kalman.alt, error, error⟩, true)
  | .histoMpv | .histoMedian | .histoMean => applyHistos s

/-- Both errors of the position are below the bound of the configuration. -/
def belowMinError (modeConfig : PositionModeConfig) (pos : GeoPosition) : Bool :=
  decide (pos.vertError < modeConfig.lockInMinErrorMeters) &&
    decide (pos.horError < modeConfig.lockInMinErrorMeters)

def checkForLockinReached (s : GeoPosManager) (pos : GeoPosition) :
    GeoPosManager × List Callback :=
  if s.modeConfig.mode = .lockIn ∧ belowMinError s.modeConfig pos = true then
    ({ s with modeConfig := { s.modeConfig with mode := .static, staticPosition := pos } },
      if s.lockinReadyFn then [.lockinReady pos] else [])
  else (s, [])

/-- The part of `new_position` after the filter. -/
def usePosition (s : GeoPosManager) (pos : GeoPosition) (candidate : Bool) :
    GeoPosManager × List Callback :=
  if valid pos = false then (s, [])
  else if s.modeConfig.mode = .auto then
    ({ s with position := pos }, if s.validPosFn then [.validPos pos] else [])
  else if candidate then checkForLockinReached s pos
  else (s, [])

def newPosition (s : GeoPosManager) (newPos : GeoPosition) (now : Int) :
    Option (GeoPosManager × List Callback) :=
  (applyFilter s newPos now).map fun (s', pos, candidate) => usePosition s' pos candidate

/-- The accuracies of a fix, from the time accuracy when there is no fix at all. -/
def correctErrors (overflows : Overflows) (s : GeoPosManager) (pos : GnssPosStruct) (now : Int) :
    GnssPosStruct :=
  if s.fixStatus.value < 2 ∧ s.timePrecision.age now < 60000000 then
    let acc := toUInt32 overflows (0.3 * ofUInt32 s.timePrecision.value * 1e3)
    { pos with hAcc := acc, vAcc := acc }
  else pos

/-- The position of a fix in degrees and meters. -/
def gpsPosition (overflows : Overflows) (s : GeoPosManager) (event : GnssPosStruct) (now : Int) :
    GeoPosition :=
  let pos := correctErrors overflows s event now
  { longitude := ofInt32 pos.lon * 1e-7
    latitude := ofInt32 pos.lat * 1e-7
    altitude := 1e-3 * ofInt32 pos.hMSL
    horError := 1e-3 * ofUInt32 pos.hAcc
    vertError := 1e-3 * ofUInt32 pos.vAcc }

/-- The clock is read for the age of the time accuracy and again by the Kalman filter. -/
def fillFromGps (overflows : Overflows) (s : GeoPosManager) (event : GnssPosStruct)
    (now filterNow : Int) : Option (GeoPosManager × List Callback) :=
  newPosition s (gpsPosition overflows s event now) filterNow

/-! ## What a fix does -/

/-- Apart from the filter and the histograms nothing is different. -/
def FilterOnly (s s' : GeoPosManager) : Prop :=
  ∃ kalman lon lat height, s' = { s with
    kalman := kalman, lonHisto := lon, latHisto := lat, heightHisto := height }

theorem applyHistos_filterOnly {s s' : GeoPosManager} {pos : GeoPosition} {candidate : Bool}
    (h : applyHistos s = some (s', pos, candidate)) : FilterOnly s s' := by
  obtain ⟨p, -, h⟩ := Option.bind_eq_some_iff.mp h
  by_cases hmode : s.modeConfig.mode = .lockIn
  · rw [if_pos hmode] at h
    obtain ⟨height, -, h⟩ := Option.bind_eq_some_iff.mp h
    obtain ⟨lat, -, h⟩ := Option.bind_eq_some_iff.mp h
    obtain ⟨lon, -, h⟩ := Option.bind_eq_some_iff.mp h
    cases h
    exact ⟨_, _, _, _, rfl⟩
  · rw [if_neg hmode] at h
    cases h
    exact ⟨_, _, _, _, rfl⟩

theorem applyFilter_filterOnly {s s' : GeoPosManager} {newPos pos : GeoPosition} {now : Int}
    {candidate : Bool} (h : applyFilter s newPos now = some (s', pos, candidate)) :
    FilterOnly s s' := by
  unfold applyFilter at h
  split at h
  · cases h
    exact ⟨_, _, _, _, rfl⟩
  · cases h
    exact ⟨_, _, _, _, rfl⟩
  · exact applyHistos_filterOnly h
  · exact applyHistos_filterOnly h
  · exact applyHistos_filterOnly h

/-- The position concludes the lock-in. -/
def locks (modeConfig : PositionModeConfig) (pos : GeoPosition) (candidate : Bool) : Bool :=
  decide (modeConfig.mode = .lockIn) && valid pos && candidate && belowMinError modeConfig pos

/-- A valid position is taken over in auto mode, concludes the lock-in, or is dropped. -/
theorem usePosition_eq (s : GeoPosManager) (pos : GeoPosition) (candidate : Bool) :
    usePosition s pos candidate =
      if s.modeConfig.mode = .auto ∧ valid pos = true then
        ({ s with position := pos }, if s.validPosFn then [.validPos pos] else [])
      else if locks s.modeConfig pos candidate = true then
        ({ s with modeConfig := { s.modeConfig with mode := .static, staticPosition := pos } },
          if s.lockinReadyFn then [.lockinReady pos] else [])
      else (s, []) := by
  unfold usePosition locks checkForLockinReached
  by_cases hvalid : valid pos = true
  · cases hmode : s.modeConfig.mode <;> cases candidate <;> simp [hvalid]
  · simp [hvalid]

theorem fillFromGps_eq_some {overflows : Overflows} {s s' : GeoPosManager} {event : GnssPosStruct}
    {now filterNow : Int} {calls : List Callback} :
    fillFromGps overflows s event now filterNow = some (s', calls) ↔
      ∃ s₁ pos candidate,
        applyFilter s (gpsPosition overflows s event now) filterNow = some (s₁, pos, candidate) ∧
          usePosition s₁ pos candidate = (s', calls) := by
  rw [fillFromGps, newPosition, Option.map_eq_some_iff]
  constructor
  · rintro ⟨⟨s₁, pos, candidate⟩, hfilter, huse⟩
    exact ⟨s₁, pos, candidate, hfilter, huse⟩
  · rintro ⟨s₁, pos, candidate, hfilter, huse⟩
    exact ⟨(s₁, pos, candidate), hfilter, huse⟩

/-- The callbacks stay as they are set. -/
theorem fillFromGps_callbacks {overflows : Overflows} {s s' : GeoPosManager}
    {event : GnssPosStruct} {now filterNow : Int} {calls : List Callback}
    (h : fillFromGps overflows s event now filterNow = some (s', calls)) :
    s'.lockinReadyFn = s.lockinReadyFn ∧ s'.validPosFn = s.validPosFn := by
  obtain ⟨s₁, pos, candidate, hfilter, huse⟩ := fillFromGps_eq_some.mp h
  obtain ⟨kalman, lon, lat, height, rfl⟩ := applyFilter_filterOnly hfilter
  have hmanager := congrArg Prod.fst huse
  rw [usePosition_eq] at hmanager
  subst hmanager
  rw [apply_ite Prod.fst, apply_ite Prod.fst]
  constructor <;> split_ifs <;> rfl

end GeoPosManager

end MuonDetector.Utility
