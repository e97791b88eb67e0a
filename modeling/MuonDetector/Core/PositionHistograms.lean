import MuonDetector.Core.PositionBindings

/-!
# How the position histograms get their entries

A histogram is filled by a callback of the manager, which comes with a position that the
filter has made. A filter that takes its position from the histograms makes none while
they are nearly empty, and in lock-in mode a callback comes once, at the end. So a fix gets
into the histograms exactly when the manager takes the position over and its errors, as
published, are below 100 meters.
-/

namespace MuonDetector.Core.Positions

open MuonDetector.Library MuonDetector.Library.Messages MuonDetector.Library.Floats
open MuonDetector.Capnp.EventCodecs (FilterType GeoPosition Mode PositionModeConfig)
open MuonDetector.Ublox.Events (GnssPosStruct UbxDopStruct)
open MuonDetector.Data (Histogram)
open MuonDetector.Utility MuonDetector.Utility.GeoPosManager

/-- One entry in each of the histograms that the filters work with. -/
def AddsOne (s s' : Daemon) : Prop :=
  ∀ name, name ≠ .weightedGeoHeight → s'.entries name = s.entries name + 1

/-- A fix with accuracies below 100 meters, at a dilution of precision below the bound, in a
mode that looks for the position. -/
structure Eligible (s : Daemon) (event : GnssPosStruct) : Prop where
  mode : s.geoPosManager.modeConfig.mode ≠ .static
  hAcc : event.hAcc.toNat < 100000
  vAcc : event.vAcc.toNat < 100000
  dop : ∃ dop ∈ s.dop,
    ofUInt16 dop.vDOP / 100.0 < s.geoPosManager.modeConfig.lockInMaxDop ∧
      ofUInt16 dop.hDOP / 100.0 < s.geoPosManager.modeConfig.lockInMaxDop

/-- The manager calls back with the position. -/
def Used (modeConfig : PositionModeConfig) (pos : GeoPosition) (candidate : Bool) : Prop :=
  modeConfig.mode = .auto ∧ valid pos = true ∨ locks modeConfig pos candidate = true

/-- The errors that are published with the position are below 100 meters. -/
def Accurate (overflows : Overflows) (pos : GeoPosition) : Prop :=
  1e-3 * ofUInt32 (getPosStruct overflows pos).vAcc < 100.0 ∧
    1e-3 * ofUInt32 (getPosStruct overflows pos).hAcc < 100.0

/-- The position gets into the histograms when the filter has it. -/
def Taken (overflows : Overflows) (modeConfig : PositionModeConfig) (pos : GeoPosition)
    (candidate : Bool) : Prop :=
  Used modeConfig pos candidate ∧ Accurate overflows pos

/-- The position of the Kalman filter after the fix. -/
def kalmanPosition (s : GeoPosManager) (fix : GeoPosition) (now : Int) : GeoPosition :=
  let kalman := s.kalman.process fix.latitude fix.longitude fix.altitude (posError fix) now
  let error := kalman.getAccuracy / sqrt2
  ⟨kalman.lng, kalman.lat, kalman.alt, error, error⟩

/-- All three histograms have 10 entries, and their position gets into them again. For a
lock-in they have 1500. -/
def HistosFeed (overflows : Overflows) (s : GeoPosManager) : Prop :=
  (tooFew s.heightHisto || tooFew s.lonHisto || tooFew s.latHisto) = false ∧
    ∃ height ∈ s.heightHisto, ∃ lat ∈ s.latHisto, ∃ lon ∈ s.lonHisto,
      Taken overflows s.modeConfig (posFromHistos s.modeConfig.filterConfig lon lat height)
        (isFull height && isFull lat && isFull lon)

def FeedsBy (overflows : Overflows) (s : GeoPosManager) (fix : GeoPosition) (now : Int) :
    FilterType → Prop
  | .none => Taken overflows s.modeConfig fix true
  | .kalman => Taken overflows s.modeConfig (kalmanPosition s fix now) true
  | .histoMean | .histoMedian | .histoMpv => HistosFeed overflows s

/-- The position that the configured filter has at this fix is taken over in auto mode or
concludes the lock-in, and is accurate. -/
def Feeds (overflows : Overflows) (s : GeoPosManager) (event : GnssPosStruct)
    (now filterNow : Int) : Prop :=
  FeedsBy overflows s (gpsPosition overflows s event now) filterNow s.modeConfig.filterConfig

instance eligibleDecidable (s : Daemon) (event : GnssPosStruct) : Decidable (Eligible s event) :=
  decidable_of_iff
    (s.geoPosManager.modeConfig.mode ≠ .static ∧ event.hAcc.toNat < 100000 ∧
      event.vAcc.toNat < 100000 ∧ ∃ dop ∈ s.dop,
        ofUInt16 dop.vDOP / 100.0 < s.geoPosManager.modeConfig.lockInMaxDop ∧
          ofUInt16 dop.hDOP / 100.0 < s.geoPosManager.modeConfig.lockInMaxDop)
    ⟨fun ⟨hmode, hhor, hvert, hdop⟩ => ⟨hmode, hhor, hvert, hdop⟩,
      fun h => ⟨h.mode, h.hAcc, h.vAcc, h.dop⟩⟩

instance takenDecidable (overflows : Overflows) (modeConfig : PositionModeConfig)
    (pos : GeoPosition) (candidate : Bool) :
    Decidable (Taken overflows modeConfig pos candidate) :=
  inferInstanceAs (Decidable ((_ ∧ _ ∨ _) ∧ _ ∧ _))

instance feedsByDecidable (overflows : Overflows) (s : GeoPosManager) (fix : GeoPosition)
    (now : Int) : ∀ filter, Decidable (FeedsBy overflows s fix now filter)
  | .none | .kalman => takenDecidable _ _ _ _
  | .histoMean | .histoMedian | .histoMpv =>
    inferInstanceAs (Decidable (_ ∧ ∃ height ∈ _, ∃ lat ∈ _, ∃ lon ∈ _, Taken _ _ _ _))

instance feedsDecidable (overflows : Overflows) (s : GeoPosManager) (event : GnssPosStruct)
    (now filterNow : Int) : Decidable (Feeds overflows s event now filterNow) :=
  feedsByDecidable _ _ _ _ _

/-! ## What the filter answers -/

theorem invalid_zero : valid {} = false := by decide +kernel

theorem not_taken_zero (overflows : Overflows) (modeConfig : PositionModeConfig)
    (candidate : Bool) : ¬Taken overflows modeConfig {} candidate := by
  rintro ⟨⟨-, hvalid⟩ | hlocks, -⟩
  · rw [invalid_zero] at hvalid
    cases hvalid
  · simp [locks, invalid_zero] at hlocks

/-- Whether the filter may lock in is of no account in the other modes. -/
theorem taken_candidate {overflows : Overflows} {modeConfig : PositionModeConfig}
    (hmode : modeConfig.mode ≠ .lockIn) (pos : GeoPosition) (candidate candidate' : Bool) :
    Taken overflows modeConfig pos candidate ↔ Taken overflows modeConfig pos candidate' := by
  simp [Taken, Used, locks, hmode]

theorem tooFew_clear (histo : Histogram Binary64) : tooFew (some histo.clear) = true := by
  have hentries : histo.clear.getEntries = 0.0 + 0.0 := by
    unfold Histogram.getEntries Histogram.clear
    rw [List.foldl_nil]
  have hfew : decide ((0.0 : Binary64) + 0.0 < minHistoEntries) = true := by decide +kernel
  rw [tooFew, Option.any_some, hentries]
  exact hfew

theorem tooFew_trim {histo : Histogram Binary64} (h : tooFew (some histo) = true) :
    tooFew (some (trim histo)) = true := by
  unfold trim
  split
  · exact tooFew_clear histo
  · exact h

/-- With too few entries there is no position, and there are too few after it as well. -/
theorem applyHistos_few {s s' : GeoPosManager} {pos : GeoPosition} {candidate : Bool}
    (hfew : (tooFew s.heightHisto || tooFew s.lonHisto || tooFew s.latHisto) = true)
    (h : applyHistos s = some (s', pos, candidate)) :
    pos = {} ∧ (tooFew s'.heightHisto || tooFew s'.lonHisto || tooFew s'.latHisto) = true := by
  rw [applyHistos, getPosFromHistos, if_pos hfew, Option.bind_eq_bind, Option.bind_some] at h
  by_cases hmode : s.modeConfig.mode = .lockIn
  · rw [if_pos hmode] at h
    obtain ⟨height, hheight, h⟩ := Option.bind_eq_some_iff.mp h
    obtain ⟨lat, hlat, h⟩ := Option.bind_eq_some_iff.mp h
    obtain ⟨lon, hlon, h⟩ := Option.bind_eq_some_iff.mp h
    cases h
    refine ⟨rfl, ?_⟩
    rw [hheight, hlat, hlon] at hfew
    simp only [Bool.or_eq_true] at hfew ⊢
    exact hfew.imp (Or.imp tooFew_trim tooFew_trim) tooFew_trim
  · rw [if_neg hmode] at h
    cases h
    exact ⟨rfl, hfew⟩

theorem applyHistos_feeds {overflows : Overflows} {s s' : GeoPosManager} {pos : GeoPosition}
    {candidate : Bool} (h : applyHistos s = some (s', pos, candidate)) :
    HistosFeed overflows s ↔ Taken overflows s.modeConfig pos candidate := by
  by_cases hfew : (tooFew s.heightHisto || tooFew s.lonHisto || tooFew s.latHisto) = true
  · obtain ⟨rfl, -⟩ := applyHistos_few hfew h
    refine iff_of_false ?_ (not_taken_zero overflows s.modeConfig candidate)
    rintro ⟨henough, -⟩
    rw [hfew] at henough
    cases henough
  · obtain ⟨p, hp, h⟩ := Option.bind_eq_some_iff.mp h
    rw [getPosFromHistos, if_neg hfew] at hp
    obtain ⟨height, hheight, hp⟩ := Option.bind_eq_some_iff.mp hp
    obtain ⟨lat, hlat, hp⟩ := Option.bind_eq_some_iff.mp hp
    obtain ⟨lon, hlon, hp⟩ := Option.bind_eq_some_iff.mp hp
    obtain rfl := Option.some.inj hp
    rw [HistosFeed, Bool.eq_false_iff.mpr hfew, hheight, hlat, hlon]
    simp only [true_and, Option.mem_some_iff, exists_eq_left']
    by_cases hmode : s.modeConfig.mode = .lockIn
    · rw [if_pos hmode, hheight, hlat, hlon] at h
      cases h
      rfl
    · rw [if_neg hmode] at h
      cases h
      exact taken_candidate hmode _ _ _

theorem feeds_iff {overflows : Overflows} {s s' : GeoPosManager} {event : GnssPosStruct}
    {now filterNow : Int} {pos : GeoPosition} {candidate : Bool}
    (h : applyFilter s (gpsPosition overflows s event now) filterNow =
      some (s', pos, candidate)) :
    Feeds overflows s event now filterNow ↔ Taken overflows s.modeConfig pos candidate := by
  unfold Feeds
  unfold applyFilter at h
  cases hfilter : s.modeConfig.filterConfig with
  | none =>
    rw [hfilter] at h
    cases h
    rfl
  | kalman =>
    rw [hfilter] at h
    cases h
    rfl
  | histoMean | histoMedian | histoMpv =>
    rw [hfilter] at h
    exact applyHistos_feeds h

/-! ## Counting the calls -/

theorem applyFill_entries {stack : Nat} {s s' : Daemon} {f : Fill}
    (h : applyFill stack s f = some s') (name : HistoName) :
    s'.entries name = s.entries name + [f].countP (·.histo = name) := by
  obtain ⟨histo, -, h⟩ := Option.bind_eq_some_iff.mp h
  obtain ⟨histo', -, h⟩ := Option.bind_eq_some_iff.mp h
  obtain rfl := Option.some.inj h
  rw [List.countP_singleton]
  by_cases hname : f.histo = name
  · subst hname
    simp
  · rw [if_neg (by simpa using hname)]
    exact Function.update_of_ne (Ne.symm hname) _ _

theorem applyFills_entries {stack : Nat} {s s' : Daemon} {fs : List Fill}
    (h : Machine.run (applyFill stack) s fs = some s') (name : HistoName) :
    s'.entries name = s.entries name + fs.countP (·.histo = name) := by
  refine Machine.run_history (I := fun fs t =>
    t.entries name = s.entries name + fs.countP (·.histo = name)) ?_ rfl h
  intro fs t f t' ht hf
  rw [applyFill_entries hf name, ht, List.countP_append, Nat.add_assoc]

/-- The histogram that is filled when the vertical error is small, and the two that are when
the horizontal one is. -/
theorem count_fills {modeConfig : PositionModeConfig} (hmode : modeConfig.mode ≠ .lockIn)
    {dop : UbxDopStruct} (hdop : ofUInt16 dop.hDOP / 100.0 < modeConfig.lockInMaxDop)
    (pos : GnssPosStruct) {name : HistoName} (hname : name ≠ .weightedGeoHeight) :
    (fills modeConfig (some dop) pos).countP (·.histo = name) =
      if name = .geoHeight then if 1e-3 * ofUInt32 pos.vAcc < 100.0 then 1 else 0
      else if 1e-3 * ofUInt32 pos.hAcc < 100.0 then 1 else 0 := by
  cases name with
  | weightedGeoHeight => exact absurd rfl hname
  | geoHeight | geoLongitude | geoLatitude =>
    simp only [fills, hmode, ne_eq, not_false_eq_true, true_or, and_true, hdop, reduceCtorEq,
      if_true, if_false]
    split_ifs <;> rfl

theorem processGeoPos_addsOne {overflows : Overflows} {stack : Nat} {s s' : Daemon}
    {pos : GeoPosition} (h : processGeoPos overflows stack s pos = some s')
    (hmode : s.geoPosManager.modeConfig.mode ≠ .lockIn) {dop : UbxDopStruct}
    (hstored : s.dop = some dop)
    (hdop : ofUInt16 dop.hDOP / 100.0 < s.geoPosManager.modeConfig.lockInMaxDop) :
    AddsOne s s' ↔ Accurate overflows pos := by
  have hentries : ∀ name, s'.entries name = s.entries name +
      (fills s.geoPosManager.modeConfig s.dop (getPosStruct overflows pos)).countP
        (·.histo = name) := fun name => applyFills_entries h name
  rw [hstored] at hentries
  constructor
  · intro hadds
    have hheight := hadds .geoHeight (by decide)
    have hlat := hadds .geoLatitude (by decide)
    rw [hentries, count_fills hmode hdop _ (by decide)] at hheight hlat
    rw [if_pos rfl] at hheight
    rw [if_neg (by decide)] at hlat
    constructor
    · by_contra hinaccurate
      rw [if_neg hinaccurate] at hheight
      omega
    · by_contra hinaccurate
      rw [if_neg hinaccurate] at hlat
      omega
  · rintro ⟨hvert, hhor⟩ name hname
    rw [hentries, count_fills hmode hdop _ hname, if_pos hvert, if_pos hhor, ite_self]

/-! ## One fix -/

/-- The callbacks that `setupDatastore` has set stay set. -/
structure Wired (s : Daemon) : Prop where
  lockinReady : s.geoPosManager.lockinReadyFn = true
  validPos : s.geoPosManager.validPosFn = true

theorem gnssPos_addsOne {overflows : Overflows} {stack : Nat} {s s' : Daemon} (hw : Wired s)
    {event : GnssPosStruct} {now filterNow : Int} (he : Eligible s event)
    (h : handleGnssPos overflows stack s event now filterNow = some s') :
    AddsOne s s' ↔ Feeds overflows s.geoPosManager event now filterNow := by
  obtain ⟨dop, hstored, -, hdop⟩ := he.dop
  obtain ⟨manager, calls, hfix, hcalls, -⟩ := handleGnssPos_some h
  obtain ⟨s₁, pos, candidate, hfilter, huse⟩ := fillFromGps_eq_some.mp hfix
  obtain ⟨kalman, lon, lat, height, rfl⟩ := applyFilter_filterOnly hfilter
  rw [feeds_iff hfilter, Taken]
  rw [usePosition_eq] at huse
  by_cases hauto : s.geoPosManager.modeConfig.mode = .auto ∧ valid pos = true
  · rw [if_pos hauto, if_pos hw.validPos] at huse
    cases huse
    obtain ⟨s₂, hprocess, ⟨⟩⟩ := Machine.run_cons_some.mp hcalls
    rw [and_iff_right (.inl hauto)]
    have hmode : s.geoPosManager.modeConfig.mode ≠ .lockIn := by
      rw [hauto.1]
      decide
    have hiff := processGeoPos_addsOne hprocess hmode hstored hdop
    exact hiff
  rw [if_neg hauto] at huse
  by_cases hlocks : locks s.geoPosManager.modeConfig pos candidate = true
  · rw [if_pos hlocks, if_pos hw.lockinReady] at huse
    cases huse
    obtain ⟨s₂, hprocess, ⟨⟩⟩ := Machine.run_cons_some.mp hcalls
    rw [and_iff_right (.inr hlocks)]
    have hiff := processGeoPos_addsOne hprocess Mode.noConfusion hstored hdop
    exact hiff
  · rw [if_neg hlocks] at huse
    cases huse
    obtain rfl := Option.some.inj hcalls
    refine iff_of_false ?_ ?_
    · intro hadds
      exact absurd (hadds .geoHeight (by decide)) (Nat.ne_of_lt (Nat.lt_succ_self _))
    · rintro ⟨hused, -⟩
      exact hused.elim hauto hlocks

/-! ## Runs -/

theorem wired_setup (modeConfig : PositionModeConfig) : Wired (setup modeConfig) := ⟨rfl, rfl⟩

theorem Wired.frame {s s' : Daemon} (hw : Wired s) (h : Frame s s') : Wired s' :=
  ⟨h.lockinReadyFn.trans hw.lockinReady, h.validPosFn.trans hw.validPos⟩

theorem wired_step {overflows : Overflows} {stack : Nat} (s : Daemon) (label : Label)
    (s' : Daemon) (hw : Wired s) (h : step overflows stack s label = some s') : Wired s' := by
  cases label with
  | gnssPos event now filterNow =>
    obtain ⟨manager, calls, hfix, -, hframe⟩ := handleGnssPos_some h
    obtain ⟨hlockin, hvalid⟩ := fillFromGps_callbacks hfix
    exact Wired.frame ⟨hlockin.trans hw.lockinReady, hvalid.trans hw.validPos⟩ hframe
  | positionModeCmd | navClock | navStatus | dop | storePositionModeConfig =>
    obtain rfl := Option.some.inj h
    exact ⟨hw.lockinReady, hw.validPos⟩
  | newClient =>
    obtain rfl := Option.some.inj h
    obtain ⟨published, hclient⟩ := handleNewClient_eq overflows s
    rw [hclient]
    exact ⟨hw.lockinReady, hw.validPos⟩
  | histogramChanged name histo =>
    obtain rfl := Option.some.inj h
    exact hw.frame (setHistogram_frame s histo name)

def IsFix : Label → Bool
  | .gnssPos _ _ _ => true
  | _ => false

/-- Only a fix adds entries. -/
theorem step_entries {overflows : Overflows} {stack : Nat} {s s' : Daemon} {label : Label}
    (hlabel : IsFix label = false) (h : step overflows stack s label = some s') :
    s'.entries = s.entries := by
  cases label with
  | gnssPos event now filterNow => cases hlabel
  | positionModeCmd | navClock | navStatus | dop | storePositionModeConfig =>
    obtain rfl := Option.some.inj h
    rfl
  | newClient =>
    obtain rfl := Option.some.inj h
    obtain ⟨published, hclient⟩ := handleNewClient_eq overflows s
    rw [hclient]
  | histogramChanged name histo =>
    obtain rfl := Option.some.inj h
    cases name <;> rfl

/-- An eligible fix feeds the histograms. -/
def FeedsIfEligible (overflows : Overflows) (s : Daemon) : Label → Prop
  | .gnssPos event now filterNow =>
    Eligible s event → Feeds overflows s.geoPosManager event now filterNow
  | _ => True

/-- A fix is eligible and feeds the histograms. -/
def FeedsAlways (overflows : Overflows) (s : Daemon) : Label → Prop
  | .gnssPos event now filterNow =>
    Eligible s event ∧ Feeds overflows s.geoPosManager event now filterNow
  | _ => True

instance feedsAlwaysDecidable (overflows : Overflows) (s : Daemon) :
    ∀ label, Decidable (FeedsAlways overflows s label)
  | .gnssPos _ _ _ => inferInstanceAs (Decidable (_ ∧ _))
  | .positionModeCmd _ | .navClock _ _ | .navStatus _ _ | .dop _ | .storePositionModeConfig _
  | .newClient | .histogramChanged _ _ => .isTrue trivial

/-- After a run of fixes that feed them, the histograms have as many entries as there were
fixes. -/
theorem fed_run {overflows : Overflows} {stack : Nat} {s t : Daemon} {labels : List Label}
    (hw : Wired s) (hmeets : Machine.Meets (step overflows stack) (FeedsAlways overflows) s labels)
    (h : run overflows stack s labels = some t) {name : HistoName}
    (hname : name ≠ .weightedGeoHeight) :
    t.entries name = s.entries name + labels.countP IsFix := by
  have hall := Machine.run_history_of_meets (I := fun labels t =>
    Wired t ∧ t.entries name = s.entries name + labels.countP IsFix) ?_ ⟨hw, rfl⟩ hmeets h
  · exact hall.2
  · rintro labels u label u' ⟨hu, hentries⟩ hfeeds hstep
    refine ⟨wired_step u label u' hu hstep, ?_⟩
    rw [List.countP_append, List.countP_singleton]
    cases hfix : IsFix label with
    | true =>
      cases label with
      | gnssPos event now filterNow =>
        have hadds := (gnssPos_addsOne hu hfeeds.1 hstep).mpr hfeeds.2
        rw [hadds name hname, hentries, if_pos rfl, Nat.add_assoc]
      | _ => cases hfix
    | false =>
      rw [step_entries hfix hstep, hentries, if_neg Bool.false_ne_true, Nat.add_zero]

/-! ## Histograms that stay empty -/

/-- The filters that take the position from the histograms. -/
def ofHistos : FilterType → Bool
  | .histoMean | .histoMedian | .histoMpv => true
  | .none | .kalman => false

/-- The filter waits for histograms that have too few entries. -/
structure Starved (s : GeoPosManager) : Prop where
  filter : ofHistos s.modeConfig.filterConfig = true
  few : (tooFew s.heightHisto || tooFew s.lonHisto || tooFew s.latHisto) = true

/-- A starved filter answers with no position, and stays starved. -/
theorem applyFilter_starved {s s' : GeoPosManager} (hs : Starved s) {newPos pos : GeoPosition}
    {now : Int} {candidate : Bool} (h : applyFilter s newPos now = some (s', pos, candidate)) :
    pos = {} ∧ Starved s' := by
  have happly : applyFilter s newPos now = applyHistos s := by
    have hfilter := hs.filter
    unfold applyFilter
    cases hf : s.modeConfig.filterConfig with
    | none | kalman =>
      rw [hf] at hfilter
      cases hfilter
    | histoMean | histoMedian | histoMpv => rfl
  rw [happly] at h
  obtain ⟨hpos, hfew⟩ := applyHistos_few hs.few h
  obtain ⟨kalman, lon, lat, height, rfl⟩ := applyHistos_filterOnly h
  exact ⟨hpos, hs.filter, hfew⟩

/-- No fix gets into the histograms of a starved filter. -/
theorem gnssPos_starved {overflows : Overflows} {stack : Nat} {s s' : Daemon}
    (hs : Starved s.geoPosManager) {event : GnssPosStruct} {now filterNow : Int}
    (h : handleGnssPos overflows stack s event now filterNow = some s') :
    Starved s'.geoPosManager ∧ s'.entries = s.entries := by
  obtain ⟨manager, calls, hfix, hcalls, -⟩ := handleGnssPos_some h
  obtain ⟨s₁, pos, candidate, hfilter, huse⟩ := fillFromGps_eq_some.mp hfix
  obtain ⟨rfl, hs₁⟩ := applyFilter_starved hs hfilter
  rw [usePosition, if_pos invalid_zero] at huse
  cases huse
  obtain rfl := Option.some.inj hcalls
  exact ⟨hs₁, rfl⟩

/-- Everything but a new configuration and a change of the histograms from outside. -/
def Quiet : Label → Bool
  | .positionModeCmd _ | .histogramChanged _ _ => false
  | .gnssPos _ _ _ | .navClock _ _ | .navStatus _ _ | .dop _ | .storePositionModeConfig _
  | .newClient => true

theorem step_starved {overflows : Overflows} {stack : Nat} {s s' : Daemon} {label : Label}
    (hs : Starved s.geoPosManager) (hquiet : Quiet label = true)
    (h : step overflows stack s label = some s') :
    Starved s'.geoPosManager ∧ s'.entries = s.entries := by
  cases label with
  | positionModeCmd | histogramChanged => cases hquiet
  | gnssPos event now filterNow => exact gnssPos_starved hs h
  | navClock | navStatus =>
    obtain rfl := Option.some.inj h
    exact ⟨⟨hs.filter, hs.few⟩, rfl⟩
  | dop | storePositionModeConfig =>
    obtain rfl := Option.some.inj h
    exact ⟨hs, rfl⟩
  | newClient =>
    obtain rfl := Option.some.inj h
    obtain ⟨published, hclient⟩ := handleNewClient_eq overflows s
    rw [hclient]
    exact ⟨hs, rfl⟩

theorem starved_run {overflows : Overflows} {stack : Nat} {s t : Daemon} {labels : List Label}
    (hs : Starved s.geoPosManager) (hquiet : ∀ label ∈ labels, Quiet label = true)
    (h : run overflows stack s labels = some t) :
    Starved t.geoPosManager ∧ t.entries = s.entries := by
  refine Machine.run_history (I := fun labels t => (∀ label ∈ labels, Quiet label = true) →
    Starved t.geoPosManager ∧ t.entries = s.entries) ?_ (fun _ => ⟨hs, rfl⟩) h hquiet
  intro labels u label u' hI hstep hquiet
  obtain ⟨hu, hentries⟩ := hI fun l hl => hquiet l (List.mem_append_left _ hl)
  obtain ⟨hu', hentries'⟩ := step_starved hu (hquiet label (by simp)) hstep
  exact ⟨hu', hentries'.trans hentries⟩

/-! ## The histograms over a run -/

/-- **In every run, the eligible fixes each add one entry to the three histograms exactly
when the filter has an accurate position at each of them that is taken over in auto mode or
concludes the lock-in. Then there are as many entries as fixes. A filter that waits for entries
while there are too few waits forever.** -/
theorem fixes_fill_histograms_iff (overflows : Overflows) (stack : Nat)
    (modeConfig : PositionModeConfig) (labels : List Label) (t : Daemon)
    (h : run overflows stack (setup modeConfig) labels = some t) :
    ((∀ pre event now filterNow post u u', labels = pre ++ .gnssPos event now filterNow :: post →
        run overflows stack (setup modeConfig) pre = some u →
        step overflows stack u (.gnssPos event now filterNow) = some u' → Eligible u event →
        AddsOne u u') ↔
      Machine.Meets (step overflows stack) (FeedsIfEligible overflows) (setup modeConfig)
        labels) ∧
    (Machine.Meets (step overflows stack) (FeedsAlways overflows) (setup modeConfig) labels →
      ∀ name, name ≠ .weightedGeoHeight → t.entries name = labels.countP IsFix) ∧
    (Starved t.geoPosManager → ∀ later u, (∀ label ∈ later, Quiet label = true) →
      run overflows stack t later = some u → u.entries = t.entries) := by
  refine ⟨?_, ?_, fun hs later u hquiet hu => (starved_run hs hquiet hu).2⟩
  · have hsteps := Machine.steps_iff_meets (P := FeedsIfEligible overflows)
      (Q := fun u label u' => ∀ event now filterNow, label = .gnssPos event now filterNow →
        Eligible u event → AddsOne u u')
      (I := Wired) wired_step ?_ (wired_setup modeConfig) h
    · rw [← hsteps]
      constructor
      · rintro hall pre label post u u' hlabels hu hstep event now filterNow rfl
        exact hall pre event now filterNow post u u' hlabels hu hstep
      · intro hall pre event now filterNow post u u' hlabels hu hstep
        exact hall pre _ post u u' hlabels hu hstep event now filterNow rfl
    · intro u label u' hw hstep
      cases label with
      | gnssPos event now filterNow =>
        constructor
        · intro hadds he
          exact (gnssPos_addsOne hw he hstep).mp (hadds event now filterNow rfl he)
        · rintro hfeeds _ _ _ ⟨⟩ he
          exact (gnssPos_addsOne hw he hstep).mpr (hfeeds he)
      | _ =>
        refine iff_of_true ?_ trivial
        rintro _ _ _ ⟨⟩
  · intro hmeets name hname
    have hentries := fed_run (wired_setup modeConfig) hmeets h hname
    rwa [show (setup modeConfig).entries name = 0 from rfl, Nat.zero_add] at hentries

/-- Two fixes in auto mode without a filter. -/
theorem fixes_fill_histograms_auto :
    ∃ t, run zeroes 2 (setup autoMode)
        [.dop goodDop, .navStatus 3 0, .gnssPos goodFix 0 0, .gnssPos goodFix 1 1] = some t ∧
      t.entries .geoHeight = 2 := by
  have hruns : (run zeroes 2 (setup autoMode)
      [.dop goodDop, .navStatus 3 0, .gnssPos goodFix 0 0, .gnssPos goodFix 1 1]).isSome := by
    decide +kernel
  obtain ⟨t, ht⟩ := Option.isSome_iff_exists.mp hruns
  obtain ⟨-, hfed, -⟩ := fixes_fill_histograms_iff zeroes 2 autoMode _ t ht
  exact ⟨t, ht, hfed (by decide +kernel) .geoHeight (by decide)⟩

/-- A fix that is good, and not good enough for a lock-in. -/
def fairFix : GnssPosStruct := { goodFix with hAcc := 9000, vAcc := 9000 }

/-- After a dilution of precision and the status of a fix. -/
def ready (modeConfig : PositionModeConfig) : Daemon :=
  { setup modeConfig with
    dop := some goodDop
    geoPosManager := setFixStatus (setup modeConfig).geoPosManager 3 0 }

theorem not_addsOne (s : Daemon) (event : GnssPosStruct)
    (h : (step zeroes 2 s (.gnssPos event 0 0)).any
      (fun s' => decide (s'.entries .geoHeight = s.entries .geoHeight)) = true) :
    ∃ s', step zeroes 2 s (.gnssPos event 0 0) = some s' ∧ ¬AddsOne s s' := by
  obtain ⟨s', hstep, hsame⟩ := (Option.any_eq_true _ _).mp h
  refine ⟨s', hstep, fun hadds => ?_⟩
  have hone := hadds .geoHeight (by decide)
  rw [of_decide_eq_true hsame] at hone
  omega

/-- In lock-in mode such a fix does not get into the histograms, and in auto mode no fix gets
there at the start with a filter that takes its position from them. -/
theorem fixes_not_filled :
    (∃ u u', run zeroes 2 (setup lockInMode) [.dop goodDop, .navStatus 3 0] = some u ∧
      step zeroes 2 u (.gnssPos fairFix 0 0) = some u' ∧ Eligible u fairFix ∧ ¬AddsOne u u') ∧
    ∃ u u', run zeroes 2 (setup { mode := .auto, filterConfig := .histoMedian })
        [.dop goodDop, .navStatus 3 0] = some u ∧
      step zeroes 2 u (.gnssPos goodFix 0 0) = some u' ∧ Eligible u goodFix ∧ ¬AddsOne u u' := by
  constructor
  · obtain ⟨u', hstep, hnot⟩ := not_addsOne (ready lockInMode) fairFix (by decide +kernel)
    exact ⟨_, u', rfl, hstep, by decide +kernel, hnot⟩
  · obtain ⟨u', hstep, hnot⟩ :=
      not_addsOne (ready { mode := .auto, filterConfig := .histoMedian }) goodFix
        (by decide +kernel)
    exact ⟨_, u', rfl, hstep, by decide +kernel, hnot⟩

end MuonDetector.Core.Positions
