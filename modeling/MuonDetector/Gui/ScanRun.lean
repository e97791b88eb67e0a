import MuonDetector.Gui.ScanForm

/-!
# Runs of the parameter scan

What one event does to a running scan is nothing, the next point, or the end. From this
follow the points that are driven and their number; the step that is derived from the
input fields decides whether there is a last one.
-/

namespace MuonDetector.Gui.ScanForm

open MuonDetector.Library MuonDetector.Library.Machine
open MuonDetector.Ublox.Events (Timespec UbxTimeMarkStruct)

/-! ## The property -/

/-- The channel of a voltage that is set. The bias voltage is on channel 2. -/
def Output.voltage? : Output → Option (Nat × ℚ)
  | .setThresholdVoltage channel value => some (channel, value)
  | .setBiasControlVoltage value => some (2, value)
  | .gpioInhibitChanged _ | .mqttInhibitChanged _ | .outOfRange _ => none

def voltages (outputs : List Output) : List (Nat × ℚ) := outputs.filterMap Output.voltage?

/-- The time of a rising edge in seconds. -/
def seconds (t : Timespec) : ℚ := t.tvSec + t.tvNsec * (1 / 10 ^ 9)

def Event.rising? : Event → Option ℚ
  | .timeMark tm => some (seconds tm.rising)
  | .scanStartPushButtonClicked _ | .uiEnabledStateChange _ | .dacReadback _ _ => none

/-- The time marks are valid, and their rising edges come one after the other. -/
structure ValidMarks (events : List Event) : Prop where
  valid : ∀ tm, .timeMark tm ∈ events → tm.risingValid = true
  increasing : (events.filterMap Event.rising?).Pairwise (· < ·)

/-- One of the values of a scan from `minRange` to `maxRange`. -/
def OnGrid (s : Form) (value : ℚ) : Prop :=
  ∃ k : ℕ, value = s.minRange + k * s.stepSize ∧ s.minRange ≤ value ∧ value ≤ s.maxRange + epsilon

/-- What the end of a scan puts out, with what the scan has put out before. -/
structure Released (fLastDacs : Fin 4 → ℚ) (before outputs : List Output) : Prop where
  indexed : ∀ i, .outOfRange i ∉ outputs
  /-- What was driven is set back, and nothing else is set. -/
  restored : ∀ channel value, (channel, value) ∈ voltages before →
    ∃ h : channel < 4, voltages outputs = [(channel, fLastDacs ⟨channel, h⟩)]
  inhibits : .gpioInhibitChanged false ∈ outputs ∧ .gpioInhibitChanged true ∉ outputs ∧
    .mqttInhibitChanged false ∈ outputs ∧ .mqttInhibitChanged true ∉ outputs

/-- What is claimed of a scan, from the state and the outputs of its start. -/
structure Lawful (start : Form × List Output) : Prop where
  driven : ∀ events s log, ValidMarks events → run scanStep start events = some (s, log) →
    s.active = true → ∀ p ∈ voltages log, OnGrid start.1 p.2
  bounded : ∃ n, ∀ events s log, ValidMarks events → run scanStep start events = some (s, log) →
    s.active = true → s.scanData.length ≤ n
  released : ∀ events event s log, ValidMarks (events ++ [event]) →
    run scanStep start events = some (s, log) → s.active = true →
      (handle s event).1.active = false → Released start.1.fLastDacs log (handle s event).2

/-! ## What an event does -/

/-- The two states are in the same scan, at the same point. -/
structure SamePoint (s s' : Form) : Prop where
  active : s'.active = true
  minRange : s'.minRange = s.minRange
  maxRange : s'.maxRange = s.maxRange
  stepSize : s'.stepSize = s.stepSize
  scanPar : s'.scanPar = s.scanPar
  fLastDacs : s'.fLastDacs = s.fLastDacs
  currentScanPar : s'.currentScanPar = s.currentScanPar
  points : s'.scanData.length = s.scanData.length

/-- The second state is at the next point of the scan. -/
structure NextPoint (s s' : Form) : Prop where
  active : s'.active = true
  minRange : s'.minRange = s.minRange
  maxRange : s'.maxRange = s.maxRange
  stepSize : s'.stepSize = s.stepSize
  scanPar : s'.scanPar = s.scanPar
  fLastDacs : s'.fLastDacs = s.fLastDacs
  currentScanPar : s'.currentScanPar = s.currentScanPar + s.stepSize
  points : s'.scanData.length = s.scanData.length + 1
  inRange : s'.currentScanPar ≤ s.maxRange + epsilon

inductive Effect (s : Form) : Form × List Output → Prop
  | stays {s' : Form} (same : SamePoint s s') : Effect s (s', [])
  | proceeds {s' : Form} (next : NextPoint s s') :
      Effect s (s', adjustScanPar s.scanPar s'.currentScanPar)
  | ends {s' : Form} (active : s'.active = false) : Effect s (s', (finishScan s).2)

theorem SamePoint.refl {s : Form} (h : s.active = true) : SamePoint s s :=
  ⟨h, rfl, rfl, rfl, rfl, rfl, rfl, rfl⟩

theorem SamePoint.trans {s t u : Form} (h : SamePoint s t) (h' : SamePoint t u) :
    SamePoint s u where
  active := h'.active
  minRange := h'.minRange.trans h.minRange
  maxRange := h'.maxRange.trans h.maxRange
  stepSize := h'.stepSize.trans h.stepSize
  scanPar := h'.scanPar.trans h.scanPar
  fLastDacs := h'.fLastDacs.trans h.fLastDacs
  currentScanPar := h'.currentScanPar.trans h.currentScanPar
  points := h'.points.trans h.points

theorem NextPoint.of_same {s t u : Form} (h : SamePoint s t) (h' : NextPoint t u) :
    NextPoint s u where
  active := h'.active
  minRange := h'.minRange.trans h.minRange
  maxRange := h'.maxRange.trans h.maxRange
  stepSize := h'.stepSize.trans h.stepSize
  scanPar := h'.scanPar.trans h.scanPar
  fLastDacs := h'.fLastDacs.trans h.fLastDacs
  currentScanPar := by rw [h'.currentScanPar, h.currentScanPar, h.stepSize]
  points := by rw [h'.points, h.points]
  inRange := by
    rw [← h.maxRange]
    exact h'.inRange

theorem scanParIteration_effect {s : Form} (h : s.active = true) :
    Effect s (scanParIteration s) := by
  rw [scanParIteration, if_pos h]
  simp only
  split
  · exact .ends rfl
  · next hle => exact .proceeds ⟨h, rfl, rfl, rfl, rfl, rfl, rfl, by simp, not_lt.mp hle⟩

/-- The effect is one on a state that differs in what it does not look at. -/
theorem Effect.of_same {s t : Form} {next : Form × List Output} (h : Effect t next)
    (hsame : SamePoint s t) : Effect s next := by
  cases h with
  | stays same => exact .stays (hsame.trans same)
  | proceeds next =>
    rw [hsame.scanPar]
    exact .proceeds (.of_same hsame next)
  | ends active =>
    have hfinish : (finishScan t).2 = (finishScan s).2 := by
      rw [finishScan, finishScan, hsame.scanPar, hsame.fLastDacs]
    rw [hfinish]
    exact .ends active

theorem countTimeMark_effect {s : Form} (h : s.active = true) (tm : UbxTimeMarkStruct) :
    Effect s (countTimeMark tm s) := by
  rw [countTimeMark]
  split
  · exact .stays ⟨h, rfl, rfl, rfl, rfl, rfl, rfl, rfl⟩
  · simp only
    split
    · refine Effect.of_same (scanParIteration_effect ?_) ⟨h, rfl, rfl, rfl, rfl, rfl, rfl, rfl⟩
      exact h
    · exact .stays ⟨h, rfl, rfl, rfl, rfl, rfl, rfl, rfl⟩

/-- The time mark that is remembered is of no account to the effect. -/
theorem Effect.remember {s : Form} {next : Form × List Output} (h : Effect s next)
    (tm : UbxTimeMarkStruct) : Effect s ({ next.1 with lastTM := tm }, next.2) := by
  cases h with
  | stays same =>
    exact .stays ⟨same.active, same.minRange, same.maxRange, same.stepSize, same.scanPar,
      same.fLastDacs, same.currentScanPar, same.points⟩
  | proceeds next =>
    exact .proceeds ⟨next.active, next.minRange, next.maxRange, next.stepSize, next.scanPar,
      next.fLastDacs, next.currentScanPar, next.points, next.inRange⟩
  | ends active => exact .ends active

theorem handle_effect {s : Form} (h : s.active = true) (event : Event) :
    Effect s (handle s event) := by
  cases event with
  | scanStartPushButtonClicked ui =>
    rw [handle, onScanStartPushButtonClicked, if_pos h]
    exact .ends rfl
  | uiEnabledStateChange connected =>
    rw [handle, onUiEnabledStateChange]
    split
    · exact .stays (.refl h)
    · exact .ends rfl
  | dacReadback channel value =>
    have hkept : onDacReadbackReceived channel value s = s := by
      rw [onDacReadbackReceived]
      split <;> rfl
    rw [handle, hkept]
    exact .stays (.refl h)
  | timeMark tm =>
    rw [handle, onTimeMarkReceived]
    split
    · simp only
      split
      · exact (countTimeMark_effect h tm).remember tm
      · exact (Effect.stays (.refl h)).remember tm
    · exact .stays (.refl h)

/-! ## The points of a scan -/

/-- A scan that has got to its point number `scanData.length`. -/
structure ScanInv (start s : Form) (log : List Output) : Prop where
  active : s.active = true
  minRange : s.minRange = start.minRange
  maxRange : s.maxRange = start.maxRange
  stepSize : s.stepSize = start.stepSize
  scanPar : s.scanPar = start.scanPar
  fLastDacs : s.fLastDacs = start.fLastDacs
  current : s.currentScanPar = start.minRange + s.scanData.length * start.stepSize
  /-- Behind the first point no point was above the range. -/
  reached : ∀ k : ℕ, 1 ≤ k → k ≤ s.scanData.length →
    start.minRange + k * start.stepSize ≤ start.maxRange + epsilon
  driven : ∀ p ∈ voltages log, ∃ k : ℕ, k ≤ s.scanData.length ∧
    p ∈ voltages (adjustScanPar start.scanPar (start.minRange + k * start.stepSize))

theorem voltages_append (outputs outputs' : List Output) :
    voltages (outputs ++ outputs') = voltages outputs ++ voltages outputs' :=
  List.filterMap_append

theorem ScanInv.step {start s s' : Form} {log outputs : List Output} (h : ScanInv start s log)
    (heffect : Effect s (s', outputs)) (hactive : s'.active = true) :
    ScanInv start s' (log ++ outputs) := by
  cases heffect with
  | stays same =>
    refine ⟨hactive, same.minRange.trans h.minRange, same.maxRange.trans h.maxRange,
      same.stepSize.trans h.stepSize, same.scanPar.trans h.scanPar,
      same.fLastDacs.trans h.fLastDacs, ?_, ?_, ?_⟩
    · rw [same.currentScanPar, same.points, h.current]
    · rw [same.points]
      exact h.reached
    · rw [List.append_nil, same.points]
      exact h.driven
  | proceeds next =>
    have hcurrent : s'.currentScanPar = start.minRange + s'.scanData.length * start.stepSize := by
      rw [next.currentScanPar, next.points, h.current, h.stepSize]
      push_cast
      ring
    refine ⟨hactive, next.minRange.trans h.minRange, next.maxRange.trans h.maxRange,
      next.stepSize.trans h.stepSize, next.scanPar.trans h.scanPar,
      next.fLastDacs.trans h.fLastDacs, hcurrent, ?_, ?_⟩
    · intro k hpos hk
      rcases Nat.lt_or_ge k s'.scanData.length with hlt | hge
      · exact h.reached k hpos (by have := next.points; omega)
      · obtain rfl : k = s'.scanData.length := by omega
        rw [← hcurrent, ← h.maxRange]
        exact next.inRange
    · intro p hp
      rw [voltages_append] at hp
      rcases List.mem_append.mp hp with hp | hp
      · obtain ⟨k, hk, hmem⟩ := h.driven p hp
        exact ⟨k, by have := next.points; omega, hmem⟩
      · refine ⟨s'.scanData.length, Nat.le_refl _, ?_⟩
        rw [← hcurrent, ← h.scanPar]
        exact hp
  | ends active =>
    rw [active] at hactive
    cases hactive

/-- The run lemma of the step lemma above. -/
theorem ScanInv.run {start s t : Form} {log log' : List Output} {events : List Event}
    (h : ScanInv start s log) (hrun : run scanStep (s, log) events = some (t, log'))
    (hactive : t.active = true) : ScanInv start t log' := by
  induction events generalizing s log with
  | nil =>
    cases hrun
    exact h
  | cons event events ih =>
    obtain ⟨⟨u, mid⟩, hstep, hrun⟩ := run_cons_some.mp hrun
    rw [scanStep, if_pos h.active] at hstep
    obtain ⟨rfl, rfl⟩ := Prod.mk.inj (Option.some.inj hstep)
    have hnext : (handle s event).1.active = true := by
      cases events with
      | nil =>
        cases hrun
        exact hactive
      | cons e events =>
        obtain ⟨v, hstep', -⟩ := run_cons_some.mp hrun
        exact (Option.ite_none_right_eq_some.mp hstep').1
    exact ih (h.step (handle_effect h.active event) hnext) hrun

/-! ## The start -/

def Inputs.lower (ui : Inputs) : ℚ := ui.minRange.getD 0

def Inputs.upper (ui : Inputs) : ℚ := ui.maxRange.getD 0

def Inputs.step (ui : Inputs) : ℚ := stepOf ui ui.lower ui.upper

/-- What the handler has stored when its checks are passed. -/
structure Checked (ui : Inputs) (s₀ s : Form) : Prop where
  scanPar : s.scanPar = ui.scanPar
  notVoid : ui.scanPar ≠ .void
  obsPar : s.obsPar = .ubxRate
  minRange : s.minRange = ui.lower
  maxRange : s.maxRange = ui.upper
  stepSize : s.stepSize = ui.step
  interval : s.maxMeasurementTimeInterval = ui.timeInterval
  fLastDacs : s.fLastDacs = s₀.fLastDacs

/-- A scan that is running has passed each check. -/
theorem passes_check {check : Prop} [Decidable check] {s : Form} {next : Form × List Output}
    (h : (if check then (s, []) else next).1.active = true) (hidle : s.active = false) :
    ¬ check ∧ next.1.active = true := by
  split at h
  · rw [hidle] at h
    cases h
  · next hcheck => exact ⟨hcheck, h⟩

theorem start_of_active {ui : Inputs} {s₀ : Form} (hidle : s₀.active = false)
    (h : (onScanStartPushButtonClicked ui s₀).1.active = true) :
    ∃ s, onScanStartPushButtonClicked ui s₀ = startScan ui s ∧ Checked ui s₀ s := by
  rw [onScanStartPushButtonClicked, if_neg (by simp [hidle])] at h ⊢
  simp only at h ⊢
  obtain ⟨hmin, h⟩ := passes_check h hidle
  obtain ⟨hmax, h⟩ := passes_check h hidle
  obtain ⟨hstep, h⟩ := passes_check h hidle
  obtain ⟨hpar, h⟩ := passes_check h hidle
  obtain ⟨hobs, -⟩ := passes_check h hidle
  rw [if_neg hmin, if_neg hmax, if_neg hstep, if_neg hpar, if_neg hobs]
  have hrate : ui.observable = .ubxRate := by
    cases hui : ui.observable with
    | void => exact absurd hui hobs
    | ubxRate => rfl
  exact ⟨_, rfl, rfl, hpar, hrate, rfl, rfl, rfl, rfl, rfl⟩

/-- The state in which a scan begins. -/
structure Begun (ui : Inputs) (s₀ : Form) (start : Form × List Output) : Prop where
  active : start.1.active = true
  wait : start.1.waitForFirst = true
  obsPar : start.1.obsPar = .ubxRate
  interval : start.1.maxMeasurementTimeInterval = ui.timeInterval
  scanPar : start.1.scanPar = ui.scanPar
  fLastDacs : start.1.fLastDacs = s₀.fLastDacs
  current : start.1.currentScanPar = start.1.minRange
  points : start.1.scanData = []
  outputs : start.2 = [.gpioInhibitChanged true, .mqttInhibitChanged true] ++
    adjustScanPar start.1.scanPar start.1.minRange
  notVoid : ui.scanPar ≠ .void
  range : ui.scanPar ≠ .time →
    start.1.minRange = ui.lower ∧ start.1.maxRange = ui.upper ∧ start.1.stepSize = ui.step

theorem begun_of_active {ui : Inputs} {s₀ : Form} (hidle : s₀.active = false)
    (h : (onScanStartPushButtonClicked ui s₀).1.active = true) :
    Begun ui s₀ (onScanStartPushButtonClicked ui s₀) := by
  obtain ⟨s, hstart, hs⟩ := start_of_active hidle h
  rw [hstart, startScan]
  simp only
  split
  · next htime =>
    have hui : ui.scanPar = .time := hs.scanPar ▸ htime
    exact ⟨rfl, rfl, hs.obsPar, hs.interval, hs.scanPar, hs.fLastDacs, rfl, rfl, rfl, hs.notVoid,
      fun hne => absurd hui hne⟩
  · exact ⟨rfl, rfl, hs.obsPar, hs.interval, hs.scanPar, hs.fLastDacs, rfl, rfl, rfl, hs.notVoid,
      fun _ => ⟨hs.minRange, hs.maxRange, hs.stepSize⟩⟩

theorem Begun.inv {ui : Inputs} {s₀ : Form} {start : Form × List Output}
    (h : Begun ui s₀ start) : ScanInv start.1 start.1 start.2 where
  active := h.active
  minRange := rfl
  maxRange := rfl
  stepSize := rfl
  scanPar := rfl
  fLastDacs := rfl
  current := by rw [h.current, h.points]; simp
  reached := by
    intro k hpos hk
    rw [h.points, List.length_nil] at hk
    omega
  driven := by
    intro p hp
    refine ⟨0, Nat.zero_le _, ?_⟩
    rw [h.outputs, voltages_append] at hp
    rw [Nat.cast_zero, zero_mul, add_zero]
    exact hp

/-! ## The end -/

def ScanPar.isDriven : ScanPar → Bool
  | .thr1 | .thr2 | .bias => true
  | .void | .dac4 | .time => false

theorem mem_voltages_adjust {par : ScanPar} {value : ℚ} {p : Nat × ℚ}
    (h : p ∈ voltages (adjustScanPar par value)) : par.isDriven = true ∧ p.2 = value := by
  cases par with
  | thr1 | thr2 | bias =>
    rw [List.mem_singleton.mp h]
    exact ⟨rfl, rfl⟩
  | void | dac4 | time => cases h

theorem released_of_finish {start s : Form} {log : List Output} (h : ScanInv start s log)
    (htime : start.scanPar ≠ .time) : Released start.fLastDacs log (finishScan s).2 := by
  have hrestored : ∀ p ∈ voltages log, ∃ hlt : p.1 < 4,
      voltages (finishScan s).2 = [(p.1, start.fLastDacs ⟨p.1, hlt⟩)] := by
    intro p hp
    obtain ⟨k, -, hmem⟩ := h.driven p hp
    rw [finishScan, h.scanPar, h.fLastDacs]
    cases hpar : start.scanPar with
    | thr1 | thr2 | bias =>
      rw [hpar] at hmem
      rw [List.mem_singleton.mp hmem]
      exact ⟨by simp, rfl⟩
    | void | dac4 | time =>
      rw [hpar] at hmem
      cases hmem
  refine ⟨?_, fun channel value hp => hrestored (channel, value) hp, ?_⟩
  · intro i
    rw [finishScan, h.scanPar]
    cases hpar : start.scanPar with
    | time => exact absurd hpar htime
    | void | thr1 | thr2 | bias | dac4 =>
      simp [restoreScanPar, ScanPar.index, adjustScanPar]
  · rw [finishScan, h.scanPar]
    cases start.scanPar <;> simp [restoreScanPar, ScanPar.index, adjustScanPar]

/-! ## Scans that end -/

/-- The step leads out of the range. -/
def Inputs.Ends (ui : Inputs) : Prop := 0 < ui.step ∨ ui.upper + epsilon < ui.lower + ui.step

theorem pos_of_reached {ui : Inputs} {start s : Form} {log : List Output}
    (h : ScanInv start s log) (hrange : start.minRange = ui.lower ∧ start.maxRange = ui.upper ∧
      start.stepSize = ui.step) (hends : ui.Ends) (hpoints : 1 ≤ s.scanData.length) :
    0 < start.stepSize := by
  have hfirst := h.reached 1 (Nat.le_refl 1) hpoints
  obtain ⟨hmin, hmax, hstep⟩ := hrange
  rw [Nat.cast_one, one_mul] at hfirst
  rcases hends with hpos | hout
  · rw [hstep]
    exact hpos
  · rw [hmin, hmax, hstep] at hfirst
    linarith

theorem points_le {start s : Form} {log : List Output} (h : ScanInv start s log)
    (hstep : 1 ≤ s.scanData.length → 0 < start.stepSize) :
    s.scanData.length ≤ ⌊(start.maxRange + epsilon - start.minRange) / start.stepSize⌋₊ := by
  rcases Nat.eq_zero_or_pos s.scanData.length with hzero | hpos
  · omega
  · apply Nat.le_floor
    rw [le_div_iff₀ (hstep hpos)]
    have hlast := h.reached s.scanData.length hpos (Nat.le_refl _)
    linarith

theorem onGrid_of_ends {ui : Inputs} {s₀ s : Form} {start : Form × List Output}
    {log : List Output} (h : Begun ui s₀ start) (htime : ui.scanPar ≠ .time)
    (hrange : ui.scanPar.isDriven = true → ui.lower ≤ ui.upper + epsilon) (hends : ui.Ends)
    (hinv : ScanInv start.1 s log) {p : Nat × ℚ} (hp : p ∈ voltages log) :
    OnGrid start.1 p.2 := by
  have hfields := h.range htime
  obtain ⟨k, hk, hmem⟩ := hinv.driven p hp
  obtain ⟨hdriven, hvalue⟩ := mem_voltages_adjust hmem
  rcases Nat.eq_zero_or_pos k with rfl | hpos
  · refine ⟨0, hvalue, ?_, ?_⟩
    · rw [hvalue]
      simp
    · rw [hvalue, Nat.cast_zero, zero_mul, add_zero, hfields.1, hfields.2.1]
      exact hrange (h.scanPar ▸ hdriven)
  · have hstep := pos_of_reached hinv hfields hends (Nat.le_trans hpos hk)
    have hmul : 0 ≤ (k : ℚ) * start.1.stepSize := by positivity
    refine ⟨k, hvalue, ?_, ?_⟩
    · rw [hvalue]
      linarith
    · rw [hvalue]
      exact hinv.reached k hpos hk

/-- Whichever event ends the scan, what it has driven is set back. -/
theorem ScanInv.released {start s : Form} {log : List Output} (h : ScanInv start s log)
    (htime : start.scanPar ≠ .time) {event : Event} (hend : (handle s event).1.active = false) :
    Released start.fLastDacs log (handle s event).2 := by
  have heffect := handle_effect h.active event
  generalize handle s event = next at heffect hend
  cases heffect with
  | stays same =>
    rw [same.active] at hend
    cases hend
  | proceeds next =>
    rw [next.active] at hend
    cases hend
  | ends active => exact released_of_finish h htime

theorem lawful_of_ends {ui : Inputs} {s₀ : Form} {start : Form × List Output}
    (h : Begun ui s₀ start) (htime : ui.scanPar ≠ .time)
    (hrange : ui.scanPar.isDriven = true → ui.lower ≤ ui.upper + epsilon) (hends : ui.Ends) :
    Lawful start where
  driven := by
    intro events s log _ hrun hactive p hp
    exact onGrid_of_ends h htime hrange hends (h.inv.run hrun hactive) hp
  bounded := by
    refine ⟨⌊(start.1.maxRange + epsilon - start.1.minRange) / start.1.stepSize⌋₊, ?_⟩
    intro events s log _ hrun hactive
    have hinv := h.inv.run hrun hactive
    exact points_le hinv fun hpoints => pos_of_reached hinv (h.range htime) hends hpoints
  released := by
    intro events event s log _ hrun hactive hend
    exact (h.inv.run hrun hactive).released (h.scanPar ▸ htime) hend

/-! ## Scans that do not end -/

/-- A valid time mark at a full second. -/
def markAt (second : Int) : UbxTimeMarkStruct where
  rising := ⟨second, 0⟩
  falling := ⟨second, 0⟩
  risingValid := true
  fallingValid := false
  accuracyNs := 0
  valid := true
  timeBase := 0
  utcAvailable := true
  flags := 0
  evtCounter := 0

/-- Time marks one second farther apart than a measurement lasts. -/
def marks (interval n : Nat) : List Event :=
  (List.range n).map fun i => .timeMark (markAt (i * (interval + 1) : Nat))

theorem validMarks_marks (interval n : Nat) : ValidMarks (marks interval n) where
  valid := by
    intro tm hmem
    obtain ⟨i, -, hi⟩ := List.mem_map.mp hmem
    rw [← Event.timeMark.inj hi]
    rfl
  increasing := by
    have hrising : (marks interval n).filterMap Event.rising? =
        (List.range n).map fun i => ((i * (interval + 1) : Nat) : ℚ) := by
      rw [marks, List.filterMap_map, ← List.filterMap_eq_map]
      apply List.filterMap_congr
      intro i _
      simp [Event.rising?, seconds, markAt]
    rw [hrising, List.pairwise_map]
    refine List.pairwise_lt_range.imp ?_
    intro i j hij
    exact_mod_cast Nat.mul_lt_mul_of_pos_right hij (Nat.succ_pos interval)

theorem marks_succ_succ (interval n : Nat) :
    marks interval (n + 2) = marks interval n ++
      [.timeMark (markAt (n * (interval + 1) : Nat)),
        .timeMark (markAt ((n + 1) * (interval + 1) : Nat))] := by
  rw [marks, List.range_succ, List.range_succ, List.map_append, List.map_append, List.append_assoc]
  rfl

/-- A running scan that waits for the first time mark of a point. -/
structure Waiting (interval : Nat) (start s : Form) (log : List Output) : Prop where
  inv : ScanInv start s log
  wait : s.waitForFirst = true
  obsPar : s.obsPar = .ubxRate
  interval : s.maxMeasurementTimeInterval = interval

theorem handle_markAt {s : Form} (hactive : s.active = true) (hobs : s.obsPar = .ubxRate)
    (second : Int) : handle s (.timeMark (markAt second)) =
      ({ (countTimeMark (markAt second) s).1 with lastTM := markAt second },
        (countTimeMark (markAt second) s).2) := by
  have hvalid : (markAt second).risingValid = true := rfl
  simp only [handle, onTimeMarkReceived, if_pos hvalid, if_pos (And.intro hactive hobs)]

/-- The scan counts from a time mark on. -/
def countsFrom (tm : UbxTimeMarkStruct) (s : Form) : Form :=
  { s with currentCounts := 0, currentTimeInterval := 0, waitForFirst := false, lastTM := tm }

theorem first_mark {interval : Nat} {start s : Form} {log : List Output}
    (h : Waiting interval start s log) (second : Int) :
    handle s (.timeMark (markAt second)) = (countsFrom (markAt second) s, []) := by
  rw [handle_markAt h.inv.active h.obsPar, countTimeMark, if_pos h.wait, countsFrom]

theorem elapsed_marks (interval n : Nat) :
    elapsed (markAt (n * (interval + 1) : Nat)).rising
      (markAt ((n + 1) * (interval + 1) : Nat)).rising = interval + 1 := by
  simp only [elapsed, markAt]
  push_cast
  ring

theorem next_inRange {interval : Nat} {start s : Form} {log : List Output}
    (h : Waiting interval start s log) (hstep : start.stepSize ≤ 0)
    (hrange : start.minRange + start.stepSize ≤ start.maxRange + epsilon) :
    s.currentScanPar + s.stepSize ≤ s.maxRange + epsilon := by
  have hmul : (s.scanData.length : ℚ) * start.stepSize ≤ 0 :=
    mul_nonpos_of_nonneg_of_nonpos (by positivity) hstep
  rw [h.inv.current, h.inv.stepSize, h.inv.maxRange]
  linarith

/-- The mark after the measurement's time leads to the next point, if it is in the range. -/
theorem second_mark {s : Form} (hactive : s.active = true) (hobs : s.obsPar = .ubxRate)
    {first second : Int}
    (hlong : elapsed (markAt first).rising (markAt second).rising > s.maxMeasurementTimeInterval)
    (hnext : s.currentScanPar + s.stepSize ≤ s.maxRange + epsilon) :
    ∃ s', handle (countsFrom (markAt first) s) (.timeMark (markAt second)) =
        (s', adjustScanPar s.scanPar s'.currentScanPar) ∧ s'.active = true ∧
      s'.waitForFirst = true ∧ s'.obsPar = s.obsPar ∧
      s'.maxMeasurementTimeInterval = s.maxMeasurementTimeInterval ∧
      s'.scanData.length = s.scanData.length + 1 := by
  rw [← zero_add (elapsed _ _)] at hlong
  rw [handle_markAt (s := countsFrom (markAt first) s) hactive hobs, countsFrom, countTimeMark,
    if_neg Bool.false_ne_true]
  simp only
  rw [if_pos (.inl hlong), scanParIteration, if_pos hactive]
  simp only
  rw [if_neg (not_lt.mpr hnext)]
  exact ⟨_, rfl, hactive, rfl, rfl, rfl, by simp⟩

/-- Two time marks complete a measurement, and the next point is not above the range. -/
theorem two_marks {interval : Nat} {start s : Form} {log : List Output}
    (h : Waiting interval start s log) (hstep : start.stepSize ≤ 0)
    (hrange : start.minRange + start.stepSize ≤ start.maxRange + epsilon) (n : Nat) :
    ∃ s' log', run scanStep (s, log) [.timeMark (markAt (n * (interval + 1) : Nat)),
        .timeMark (markAt ((n + 1) * (interval + 1) : Nat))] = some (s', log') ∧
      Waiting interval start s' log' ∧ s'.scanData.length = s.scanData.length + 1 := by
  have hlong : elapsed (markAt (n * (interval + 1) : Nat)).rising
      (markAt ((n + 1) * (interval + 1) : Nat)).rising > s.maxMeasurementTimeInterval := by
    rw [h.interval, elapsed_marks]
    exact lt_add_one _
  obtain ⟨s', hhandle, hactive, hwait, hobs, hinterval, hpoints⟩ :=
    second_mark h.inv.active h.obsPar hlong (next_inRange h hstep hrange)
  have hrun : run scanStep (s, log) [.timeMark (markAt (n * (interval + 1) : Nat)),
      .timeMark (markAt ((n + 1) * (interval + 1) : Nat))] =
        some (s', log ++ [] ++ adjustScanPar s.scanPar s'.currentScanPar) := by
    rw [run_cons_some]
    refine ⟨_, if_pos h.inv.active, run_cons_some.mpr ⟨_, ?_, rfl⟩⟩
    rw [first_mark h, scanStep, if_pos (by exact h.inv.active), hhandle]
  exact ⟨s', _, hrun, ⟨h.inv.run hrun hactive, hwait, hobs.trans h.obsPar,
    hinterval.trans h.interval⟩, hpoints⟩

/-- Where the step leads nowhere, any number of measurements is completed. -/
theorem endless_run {interval : Nat} {start : Form × List Output}
    (h : Waiting interval start.1 start.1 start.2) (hpoints : start.1.scanData = [])
    (hstep : start.1.stepSize ≤ 0)
    (hrange : start.1.minRange + start.1.stepSize ≤ start.1.maxRange + epsilon) (n : Nat) :
    ∃ s log, run scanStep start (marks interval (2 * n)) = some (s, log) ∧
      Waiting interval start.1 s log ∧ s.scanData.length = n := by
  induction n with
  | zero => exact ⟨start.1, start.2, rfl, h, by rw [hpoints]; rfl⟩
  | succ n ih =>
    obtain ⟨s, log, hrun, hwaiting, hn⟩ := ih
    obtain ⟨s', log', hpair, hwaiting', hlength⟩ := two_marks hwaiting hstep hrange (2 * n)
    refine ⟨s', log', ?_, hwaiting', by omega⟩
    rw [Nat.mul_succ, marks_succ_succ, run_append, hrun]
    exact hpair

/-! ## Which scans are lawful -/

theorem ends_of_lawful {ui : Inputs} {s₀ : Form} {start : Form × List Output}
    (h : Begun ui s₀ start) (htime : ui.scanPar ≠ .time) (hlawful : Lawful start) : ui.Ends := by
  obtain ⟨hmin, hmax, hstep⟩ := h.range htime
  by_contra hends
  rw [Inputs.Ends, not_or, not_lt, not_lt, ← hmin, ← hmax, ← hstep] at hends
  obtain ⟨n, hn⟩ := hlawful.bounded
  have hwaiting : Waiting ui.timeInterval start.1 start.1 start.2 :=
    ⟨h.inv, h.wait, h.obsPar, h.interval⟩
  obtain ⟨s, log, hrun, hwait, hpoints⟩ :=
    endless_run hwaiting h.points hends.1 hends.2 (n + 1)
  have hle := hn _ s log (validMarks_marks _ _) hrun hwait.inv.active
  omega

theorem validMarks_nil : ValidMarks [] where
  valid := by
    intro tm hmem
    cases hmem
  increasing := List.Pairwise.nil

theorem validMarks_click (ui : Inputs) : ValidMarks [.scanStartPushButtonClicked ui] where
  valid := by
    intro tm hmem
    cases List.mem_singleton.mp hmem
  increasing := List.Pairwise.nil

/-- The first value is driven whatever the range is. -/
theorem range_of_lawful {ui : Inputs} {s₀ : Form} {start : Form × List Output}
    (h : Begun ui s₀ start) (htime : ui.scanPar ≠ .time) (hlawful : Lawful start)
    (hdriven : ui.scanPar.isDriven = true) : ui.lower ≤ ui.upper + epsilon := by
  obtain ⟨hmin, hmax, -⟩ := h.range htime
  have hmem : ∃ channel, (channel, start.1.minRange) ∈ voltages start.2 := by
    rw [h.outputs, voltages_append, h.scanPar]
    cases hpar : ui.scanPar with
    | thr1 => exact ⟨0, by simp [voltages, adjustScanPar, Output.voltage?]⟩
    | thr2 => exact ⟨1, by simp [voltages, adjustScanPar, Output.voltage?]⟩
    | bias => exact ⟨2, by simp [voltages, adjustScanPar, Output.voltage?]⟩
    | void | dac4 | time =>
      rw [hpar] at hdriven
      cases hdriven
  obtain ⟨channel, hmem⟩ := hmem
  obtain ⟨k, -, -, hle⟩ :=
    hlawful.driven [] start.1 start.2 validMarks_nil rfl h.active _ hmem
  rwa [hmin, hmax] at hle

/-- The stop button reads behind the end of `fLastDacs`. -/
theorem not_lawful_of_time {ui : Inputs} {s₀ : Form} {start : Form × List Output}
    (h : Begun ui s₀ start) (htime : ui.scanPar = .time) : ¬ Lawful start := by
  intro hlawful
  have hstop : handle start.1 (.scanStartPushButtonClicked ui) = finishScan start.1 :=
    if_pos h.active
  have hreleased := hlawful.released [] (.scanStartPushButtonClicked ui) start.1 start.2
    (validMarks_click ui) rfl h.active (by rw [hstop]; rfl)
  refine hreleased.indexed 4 ?_
  rw [hstop, finishScan, h.scanPar, htime]
  exact List.mem_cons_self

/-- **The scans that end as they should.** They are those whose step leads out of a range
that is not empty (for DAC4, which drives nothing, any range), and never those of TIME. -/
theorem scan_lawful_iff (ui : Inputs) (s₀ : Form) (hidle : s₀.active = false)
    (h : (onScanStartPushButtonClicked ui s₀).1.active = true) :
    Lawful (onScanStartPushButtonClicked ui s₀) ↔ ui.scanPar ≠ .time ∧
      (ui.scanPar.isDriven = true → ui.lower ≤ ui.upper + epsilon) ∧
      (0 < ui.step ∨ ui.upper + epsilon < ui.lower + ui.step) := by
  have hbegun := begun_of_active hidle h
  constructor
  · intro hlawful
    have htime : ui.scanPar ≠ .time := fun htime => not_lawful_of_time hbegun htime hlawful
    exact ⟨htime, range_of_lawful hbegun htime hlawful, ends_of_lawful hbegun htime hlawful⟩
  · rintro ⟨htime, hrange, hends⟩
    exact lawful_of_ends hbegun htime hrange hends

/-- Inputs for a scan from 0.1 V to 0.3 V. -/
def scanOf (scanPar : ScanPar) (stepSize : ℚ) : Inputs where
  timeInterval := 10
  minRange := some (1 / 10)
  maxRange := some (3 / 10)
  activateNrMeasurements := false
  nrMeasurements := 1
  stepSize := some stepSize
  scanPar := scanPar
  observable := .ubxRate
  limitStatistics := false
  maxStatistics := 0

/-- A form that has started no scan yet. -/
def idleForm : Form where
  lastTM := markAt 0

theorem threshold_scan_lawful :
    Lawful (onScanStartPushButtonClicked (scanOf .thr1 (1 / 10)) idleForm) := by
  refine (scan_lawful_iff (scanOf .thr1 (1 / 10)) idleForm rfl rfl).mpr
    ⟨by decide, fun _ => ?_, .inl ?_⟩
  · norm_num [Inputs.lower, Inputs.upper, scanOf, epsilon]
  · norm_num [Inputs.step, stepOf, scanOf]

/-- A step of zero never ends, and the parameter TIME has no last readback. -/
theorem scans_not_lawful :
    ¬ Lawful (onScanStartPushButtonClicked (scanOf .thr1 0) idleForm) ∧
      ¬ Lawful (onScanStartPushButtonClicked (scanOf .time (1 / 10)) idleForm) := by
  constructor
  · intro hlawful
    have hends := ends_of_lawful (begun_of_active rfl rfl) (by decide) hlawful
    norm_num [Inputs.Ends, Inputs.step, Inputs.lower, Inputs.upper, stepOf, scanOf,
      epsilon] at hends
  · exact not_lawful_of_time (begun_of_active rfl rfl) rfl

end MuonDetector.Gui.ScanForm
