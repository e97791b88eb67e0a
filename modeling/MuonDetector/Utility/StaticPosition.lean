import MuonDetector.Utility.GeoPosManager

/-!
# The static position and the current one

In static mode the current position is the static one, which `set_mode_config` sees to.
The constructor, `set_static_position` and the lock-in set the static position alone, so
the two agree exactly in the runs where these find the current position to be the same.
-/

namespace MuonDetector.Utility.GeoPosManager

open MuonDetector.Library MuonDetector.Library.Messages MuonDetector.Library.Floats
open MuonDetector.Capnp.EventCodecs (GeoPosition PositionModeConfig)
open MuonDetector.Ublox.Events (GnssPosStruct)
open MuonDetector.Data (Histogram)

/-- The calls of the manager. The histograms may also change where they are shared. -/
inductive Op where
  | setModeConfig (modeConfig : PositionModeConfig)
  | setStaticPosition (pos : GeoPosition)
  | fix (event : GnssPosStruct) (now filterNow : Int)
  | setFixStatus (gpsFix : UInt8) (now : Int)
  | setTimeAccuracy (tAcc : UInt32) (now : Int)
  | setHistos (lon lat height : Option (Histogram Binary64))
  | setLockinReadyCallback
  | setValidPosCallback

def step (overflows : Overflows) (s : GeoPosManager) : Op → Option GeoPosManager
  | .setModeConfig modeConfig => some (setModeConfig s modeConfig)
  | .setStaticPosition pos => some (setStaticPosition s pos)
  | .fix event now filterNow => (fillFromGps overflows s event now filterNow).map Prod.fst
  | .setFixStatus gpsFix now => some (setFixStatus s gpsFix now)
  | .setTimeAccuracy tAcc now => some (setTimeAccuracy s tAcc now)
  | .setHistos lon lat height =>
    some { s with lonHisto := lon, latHisto := lat, heightHisto := height }
  | .setLockinReadyCallback => some { s with lockinReadyFn := true }
  | .setValidPosCallback => some { s with validPosFn := true }

abbrev run (overflows : Overflows) : GeoPosManager → List Op → Option GeoPosManager :=
  Machine.run (step overflows)

/-- In static mode `get_current_position` gives what `get_static_position` gives. -/
def Consistent (s : GeoPosManager) : Prop :=
  s.modeConfig.mode = .static → s.position = s.modeConfig.staticPosition

instance consistentDecidable (s : GeoPosManager) : Decidable (Consistent s) :=
  inferInstanceAs (Decidable (_ → _))

/-- The position at which this fix concludes the lock-in. -/
def lockInAt (overflows : Overflows) (s : GeoPosManager) (event : GnssPosStruct)
    (now filterNow : Int) : Option GeoPosition :=
  (applyFilter s (gpsPosition overflows s event now) filterNow).bind fun (_, pos, candidate) =>
    if locks s.modeConfig pos candidate = true then some pos else none

/-- The operations that set the static position alone set it to the current one. -/
def KeepsCopies (overflows : Overflows) (s : GeoPosManager) : Op → Prop
  | .setStaticPosition pos => s.modeConfig.mode = .static → s.position = pos
  | .fix event now filterNow => ∀ pos ∈ lockInAt overflows s event now filterNow, s.position = pos
  | _ => True

instance keepsCopiesDecidable (overflows : Overflows) (s : GeoPosManager) :
    ∀ op, Decidable (KeepsCopies overflows s op)
  | .setStaticPosition _ => inferInstanceAs (Decidable (_ → _))
  | .fix _ _ _ => inferInstanceAs (Decidable (∀ pos ∈ _, _))
  | .setModeConfig _ | .setFixStatus _ _ | .setTimeAccuracy _ _ | .setHistos _ _ _
  | .setLockinReadyCallback | .setValidPosCallback => .isTrue trivial

/-! ## One fix -/

/-- A fix is taken over in auto mode, concludes the lock-in, or leaves the position and
the configuration. -/
theorem fix_cases {overflows : Overflows} {s s' : GeoPosManager} {event : GnssPosStruct}
    {now filterNow : Int} {calls : List Callback}
    (h : fillFromGps overflows s event now filterNow = some (s', calls)) :
    (s.modeConfig.mode = .auto ∧ s'.modeConfig = s.modeConfig) ∨
    (∃ pos, lockInAt overflows s event now filterNow = some pos ∧
      s'.modeConfig = { s.modeConfig with mode := .static, staticPosition := pos } ∧
      s'.position = s.position) ∨
    (lockInAt overflows s event now filterNow = none ∧ s'.modeConfig = s.modeConfig ∧
      s'.position = s.position ∧ calls = []) := by
  obtain ⟨s₁, pos, candidate, hfilter, huse⟩ := fillFromGps_eq_some.mp h
  obtain ⟨kalman, lon, lat, height, rfl⟩ := applyFilter_filterOnly hfilter
  rw [usePosition_eq] at huse
  have hlock : lockInAt overflows s event now filterNow =
      if locks s.modeConfig pos candidate = true then some pos else none := by
    rw [lockInAt, hfilter]
    rfl
  by_cases hauto : s.modeConfig.mode = .auto ∧ valid pos = true
  · rw [if_pos hauto] at huse
    cases huse
    exact .inl ⟨hauto.1, rfl⟩
  rw [if_neg hauto] at huse
  by_cases hlocks : locks s.modeConfig pos candidate = true
  · rw [if_pos hlocks] at huse
    cases huse
    exact .inr (.inl ⟨pos, hlock.trans (if_pos hlocks), rfl, rfl⟩)
  · rw [if_neg hlocks] at huse
    cases huse
    exact .inr (.inr ⟨hlock.trans (if_neg hlocks), rfl, rfl, rfl⟩)

theorem lockInAt_some {overflows : Overflows} {s : GeoPosManager} {event : GnssPosStruct}
    {now filterNow : Int} {pos : GeoPosition}
    (h : lockInAt overflows s event now filterNow = some pos) :
    s.modeConfig.mode = .lockIn ∧ pos.vertError < s.modeConfig.lockInMinErrorMeters ∧
      pos.horError < s.modeConfig.lockInMinErrorMeters := by
  obtain ⟨⟨s₁, p, candidate⟩, -, h⟩ := Option.bind_eq_some_iff.mp h
  obtain ⟨hlocks, ⟨⟩⟩ := Option.ite_none_right_eq_some.mp h
  simp only [locks, belowMinError, Bool.and_eq_true, decide_eq_true_eq] at hlocks
  obtain ⟨⟨⟨hmode, -⟩, -⟩, hvert, hhor⟩ := hlocks
  exact ⟨hmode, hvert, hhor⟩

/-- In static mode a fix changes nothing that can be seen. -/
theorem static_fix {overflows : Overflows} {s s' : GeoPosManager} {event : GnssPosStruct}
    {now filterNow : Int} {calls : List Callback} (hs : s.modeConfig.mode = .static)
    (h : fillFromGps overflows s event now filterNow = some (s', calls)) :
    s'.modeConfig = s.modeConfig ∧ s'.position = s.position ∧ calls = [] := by
  rcases fix_cases h with ⟨hauto, -⟩ | ⟨pos, hlock, -, -⟩ | ⟨-, hconfig, hposition, hcalls⟩
  · rw [hs] at hauto
    cases hauto
  · cases hs.symm.trans (lockInAt_some hlock).1
  · exact ⟨hconfig, hposition, hcalls⟩

/-! ## Runs -/

theorem consistent_fix {overflows : Overflows} {s s' : GeoPosManager} (hs : Consistent s)
    {event : GnssPosStruct} {now filterNow : Int} {calls : List Callback}
    (h : fillFromGps overflows s event now filterNow = some (s', calls)) :
    Consistent s' ↔ KeepsCopies overflows s (.fix event now filterNow) := by
  rcases fix_cases h with ⟨hauto, hconfig⟩ | ⟨pos, hlock, hconfig, hposition⟩ |
    ⟨hlock, hconfig, hposition, -⟩
  · refine iff_of_true ?_ ?_
    · intro hstatic
      rw [hconfig, hauto] at hstatic
      cases hstatic
    · intro pos hlock
      cases hauto.symm.trans (lockInAt_some hlock).1
  · rw [Consistent, hconfig, hposition, KeepsCopies, hlock]
    simp
  · refine iff_of_true ?_ ?_
    · rw [Consistent, hconfig, hposition]
      exact hs
    · intro pos hpos
      rw [hlock] at hpos
      cases hpos

theorem consistent_step {overflows : Overflows} (s : GeoPosManager) (op : Op)
    (s' : GeoPosManager) (hs : Consistent s) (h : step overflows s op = some s') :
    Consistent s' ↔ KeepsCopies overflows s op := by
  cases op with
  | setModeConfig modeConfig =>
    obtain rfl := Option.some.inj h
    refine iff_of_true ?_ trivial
    intro hstatic
    exact if_pos hstatic
  | setStaticPosition pos =>
    obtain rfl := Option.some.inj h
    exact Iff.rfl
  | fix event now filterNow =>
    obtain ⟨⟨s₁, calls⟩, hfix, rfl⟩ := Option.map_eq_some_iff.mp h
    exact consistent_fix hs hfix
  | setFixStatus | setTimeAccuracy | setHistos | setLockinReadyCallback | setValidPosCallback =>
    obtain rfl := Option.some.inj h
    exact iff_of_true hs trivial

/-- Only `set_mode_config` and a lock-in change the mode. -/
theorem mode_changed {overflows : Overflows} {s s' : GeoPosManager} {op : Op}
    (h : step overflows s op = some s') (hop : ∀ modeConfig, op ≠ .setModeConfig modeConfig)
    (hmode : s'.modeConfig.mode ≠ s.modeConfig.mode) :
    ∃ event now filterNow pos, op = .fix event now filterNow ∧
      lockInAt overflows s event now filterNow = some pos ∧ s'.modeConfig.mode = .static := by
  cases op with
  | setModeConfig modeConfig => exact absurd rfl (hop modeConfig)
  | fix event now filterNow =>
    obtain ⟨⟨s₁, calls⟩, hfix, rfl⟩ := Option.map_eq_some_iff.mp h
    rcases fix_cases hfix with ⟨-, hconfig⟩ | ⟨pos, hlock, hconfig, -⟩ | ⟨-, hconfig, -, -⟩
    · exact absurd (congrArg PositionModeConfig.mode hconfig) hmode
    · exact ⟨event, now, filterNow, pos, rfl, hlock, congrArg PositionModeConfig.mode hconfig⟩
    · exact absurd (congrArg PositionModeConfig.mode hconfig) hmode
  | setStaticPosition | setFixStatus | setTimeAccuracy | setHistos | setLockinReadyCallback
  | setValidPosCallback =>
    obtain rfl := Option.some.inj h
    exact absurd rfl hmode

/-- **In static mode the current position is the static one throughout a run, exactly when
the run starts so and the operations that set the static position alone set it to the
current one. A static position is left alone by every fix, and without `set_mode_config` the
mode changes from lock-in to static only, with both errors below the bound.** -/
theorem static_position_iff (overflows : Overflows) (modeConfig : PositionModeConfig)
    (ops : List Op) (t : GeoPosManager) (h : run overflows (create modeConfig) ops = some t) :
    ((∀ pre u, pre <+: ops → run overflows (create modeConfig) pre = some u → Consistent u) ↔
      (modeConfig.mode = .static → modeConfig.staticPosition = {}) ∧
        Machine.Meets (step overflows) (KeepsCopies overflows) (create modeConfig) ops) ∧
    (∀ event now filterNow t' calls, t.modeConfig.mode = .static →
      fillFromGps overflows t event now filterNow = some (t', calls) →
        t'.modeConfig = t.modeConfig ∧ t'.position = t.position ∧ calls = []) ∧
    (∀ op t', step overflows t op = some t' → (∀ config, op ≠ .setModeConfig config) →
      t'.modeConfig.mode ≠ t.modeConfig.mode →
        t.modeConfig.mode = .lockIn ∧ t'.modeConfig.mode = .static ∧
          ∃ event now filterNow pos, op = .fix event now filterNow ∧
            lockInAt overflows t event now filterNow = some pos ∧
            pos.vertError < t.modeConfig.lockInMinErrorMeters ∧
            pos.horError < t.modeConfig.lockInMinErrorMeters) := by
  refine ⟨?_, fun event now filterNow t' calls hstatic hfix => static_fix hstatic hfix, ?_⟩
  · have hstart : Consistent (create modeConfig) ↔
        (modeConfig.mode = .static → modeConfig.staticPosition = {}) :=
      ⟨fun hc hstatic => (hc hstatic).symm, fun hc hstatic => (hc hstatic).symm⟩
    rw [← hstart]
    constructor
    · intro hall
      have hs : Consistent (create modeConfig) := hall [] _ (List.nil_prefix) rfl
      exact ⟨hs, (Machine.always_iff_meets consistent_step hs h).mp hall⟩
    · rintro ⟨hs, hmeets⟩
      exact (Machine.always_iff_meets consistent_step hs h).mpr hmeets
  · intro op t' hstep hop hmode
    obtain ⟨event, now, filterNow, pos, rfl, hlock, hstatic⟩ := mode_changed hstep hop hmode
    obtain ⟨hlockIn, hvert, hhor⟩ := lockInAt_some hlock
    exact ⟨hlockIn, hstatic, event, now, filterNow, pos, rfl, hlock, hvert, hhor⟩

/-- A fix of two meters accuracy. -/
def goodFix : GnssPosStruct :=
  ⟨0, 86000000, 500000000, 150000, 100000, 2000, 2000⟩

def anywhere : GeoPosition := { latitude := 50.0, longitude := 8.6, altitude := 100.0 }

/-- Any conversion out of range gives 0. -/
def zeroes : Overflows := ⟨fun _ => 0, fun _ => 0⟩

/-- A configured static position, and a fix that leaves it alone. -/
theorem static_position_configured :
    ∃ t, run zeroes (create { mode := .auto, filterConfig := .none })
        [.fix goodFix 0 0,
          .setModeConfig { mode := .static, staticPosition := anywhere, filterConfig := .none },
          .fix goodFix 1 1] = some t ∧ Consistent t := by
  have hiff := (static_position_iff zeroes { mode := .auto, filterConfig := .none }
    [.fix goodFix 0 0,
      .setModeConfig { mode := .static, staticPosition := anywhere, filterConfig := .none },
      .fix goodFix 1 1] _ rfl).1
  exact ⟨_, rfl, hiff.mpr ⟨by decide, by decide +kernel⟩ _ _ (List.prefix_refl _) rfl⟩

/-- The constructor, `set_static_position` and a lock-in each leave the current position. -/
theorem static_position_stale :
    ¬Consistent (create { mode := .static, staticPosition := anywhere, filterConfig := .none }) ∧
    (∃ t, run zeroes (create { mode := .static, filterConfig := .none })
      [.setStaticPosition anywhere] = some t ∧ ¬Consistent t) ∧
    ∃ t, run zeroes (create { mode := .lockIn, filterConfig := .none })
      [.setFixStatus 3 0, .fix goodFix 0 0] = some t ∧ ¬Consistent t :=
  ⟨by decide +kernel, ⟨_, rfl, by decide +kernel⟩, ⟨_, rfl, by decide +kernel⟩⟩

end MuonDetector.Utility.GeoPosManager
