import MuonDetector.Library.Exact
import MuonDetector.Utility.KalmanGnssFilter
import Mathlib.Tactic.Positivity

/-!
# Runs of the Kalman filter

Over exact numbers the variance stays positive from the first measurement on, each
further measurement brings it below its own, and the position never leaves the range of
the measurements since the reset.
-/

namespace MuonDetector.Utility.KalmanGnssFilter

open MuonDetector.Library.Floats MuonDetector.Library.Exact

variable {K : Type}

/-! ## Calls -/

structure Measurement (K : Type) where
  lat : K
  lng : K
  alt : K
  accuracy : K
  now : Int
  deriving DecidableEq, Repr

inductive Call (K : Type) where
  | process (m : Measurement K)
  | reset
  deriving DecidableEq, Repr

/-- The measurements since the construction or the last reset. -/
def sinceReset (calls : List (Call K)) : List (Measurement K) :=
  calls.foldl (fun ms call =>
    match call with
    | .process m => ms ++ [m]
    | .reset => []) []

theorem sinceReset_snoc (calls : List (Call K)) (call : Call K) :
    sinceReset (calls ++ [call]) =
      match call with
      | .process m => sinceReset calls ++ [m]
      | .reset => [] := by
  rw [sinceReset, List.foldl_append]
  rfl

section

variable [Floating K]

def after (k : KalmanGnssFilter K) : Call K → KalmanGnssFilter K
  | .process m => k.process m.lat m.lng m.alt m.accuracy m.now
  | .reset => k.reset

def afterAll (k : KalmanGnssFilter K) (calls : List (Call K)) : KalmanGnssFilter K :=
  calls.foldl after k

theorem afterAll_snoc (k : KalmanGnssFilter K) (calls : List (Call K)) (call : Call K) :
    k.afterAll (calls ++ [call]) = (k.afterAll calls).after call := by
  rw [afterAll, List.foldl_append]
  rfl

/-- The accuracy that is taken for that of a measurement. -/
def localAccuracy (accuracy : K) : K := if accuracy < minAccuracy then minAccuracy else accuracy

/-- The variance of a measurement. -/
def measurementVariance (accuracy : K) : K := localAccuracy accuracy * localAccuracy accuracy

end

/-! ## One measurement -/

section Step

variable [LinearOrder K]

/-- Between the smallest and the largest of the measured values. -/
def InRange (value : Measurement K → K) (ms : List (Measurement K)) (x : K) : Prop :=
  (∃ m ∈ ms, value m ≤ x) ∧ ∃ m ∈ ms, x ≤ value m

theorem inRange_single (value : Measurement K → K) (m : Measurement K) :
    InRange value [m] (value m) :=
  ⟨⟨m, List.mem_cons_self, le_refl _⟩, ⟨m, List.mem_cons_self, le_refl _⟩⟩

variable [Field K] [IsStrictOrderedRing K]

/-- A step of the gain goes from the position towards the measurement, and not past it. -/
theorem between_step {gain x y low high : K} (hnonneg : 0 ≤ gain) (hle : gain ≤ 1)
    (hx : low ≤ x ∧ x ≤ high) (hy : low ≤ y ∧ y ≤ high) :
    low ≤ x + gain * (y - x) ∧ x + gain * (y - x) ≤ high := by
  have hsplit : x + gain * (y - x) = (1 - gain) * x + gain * y := by ring
  have hrest : 0 ≤ 1 - gain := sub_nonneg.mpr hle
  rw [hsplit]
  constructor
  · have hlow := add_le_add (mul_le_mul_of_nonneg_left hx.1 hrest)
      (mul_le_mul_of_nonneg_left hy.1 hnonneg)
    linarith
  · have hhigh := add_le_add (mul_le_mul_of_nonneg_left hx.2 hrest)
      (mul_le_mul_of_nonneg_left hy.2 hnonneg)
    linarith

theorem inRange_step {value : Measurement K → K} {ms : List (Measurement K)} {x gain : K}
    (h : InRange value ms x) (hnonneg : 0 ≤ gain) (hle : gain ≤ 1) (m : Measurement K) :
    InRange value (ms ++ [m]) (x + gain * (value m - x)) := by
  obtain ⟨⟨low, hlow, hlowle⟩, ⟨high, hhigh, hlehigh⟩⟩ := h
  have hnew : m ∈ ms ++ [m] := List.mem_append_right ms List.mem_cons_self
  obtain hup | hdown := le_total x (value m)
  · obtain ⟨hfrom, hto⟩ := between_step hnonneg hle ⟨le_refl x, hup⟩ ⟨hup, le_refl (value m)⟩
    exact ⟨⟨low, List.mem_append_left [m] hlow, hlowle.trans hfrom⟩, ⟨m, hnew, hto⟩⟩
  · obtain ⟨hto, hfrom⟩ := between_step hnonneg hle ⟨hdown, le_refl x⟩ ⟨le_refl (value m), hdown⟩
    exact ⟨⟨m, hnew, hto⟩, ⟨high, List.mem_append_left [m] hhigh, hfrom.trans hlehigh⟩⟩

/-- The gain is between zero and one, and what it leaves of the variance is positive, below the
variance of the measurement and no more than before. -/
theorem gain_bounds {variance measured : K} (hv : 0 < variance) (hm : 0 < measured) :
    0 ≤ variance / (variance + measured) ∧ variance / (variance + measured) ≤ 1 ∧
      0 < (1 - variance / (variance + measured)) * variance ∧
      (1 - variance / (variance + measured)) * variance < measured ∧
      (1 - variance / (variance + measured)) * variance ≤ variance := by
  have hsum : 0 < variance + measured := add_pos hv hm
  have hrest : (1 - variance / (variance + measured)) * variance =
      measured * (variance / (variance + measured)) := by
    field_simp
    ring
  have hgain : 0 < variance / (variance + measured) := div_pos hv hsum
  have hlt : variance / (variance + measured) < 1 := by
    rw [div_lt_one hsum]
    linarith
  refine ⟨hgain.le, hlt.le, ?_, ?_, ?_⟩
  · exact mul_pos (sub_pos.mpr hlt) hv
  · rw [hrest]
    exact mul_lt_of_lt_one_right hm hlt
  · exact mul_le_of_le_one_left hv.le (by linarith)

end Step

variable [Field K] [LinearOrder K] [FloorRing K] [LongOverflow K]

/-- Time does not move the position. -/
theorem propagate_position (k : KalmanGnssFilter K) (now : Int) :
    (k.propagate now).lat = k.lat ∧ (k.propagate now).lng = k.lng ∧
      (k.propagate now).alt = k.alt := by
  simp only [propagate]
  split
  · exact ⟨rfl, rfl, rfl⟩
  · exact ⟨rfl, rfl, rfl⟩

/-- Without a position the measurement becomes the position. -/
theorem process_first {k : KalmanGnssFilter K} (h : k.variance < 0) (m : Measurement K) :
    k.after (.process m) = k.setState m.lat m.lng m.alt (localAccuracy m.accuracy) m.now := by
  have hzero : (0.0 : K) = 0 := by norm_num
  exact if_pos (h.trans_eq hzero.symm)

theorem process_again {k : KalmanGnssFilter K} (h : 0 < k.variance) (m : Measurement K) :
    k.after (.process m) =
      (k.propagate m.now).correct m.lat m.lng m.alt (localAccuracy m.accuracy) := by
  have hzero : (0.0 : K) = 0 := by norm_num
  refine if_neg ?_
  show ¬ k.variance < (0.0 : K)
  rw [hzero]
  exact h.le.not_gt

variable [IsStrictOrderedRing K]

theorem measurementVariance_pos (accuracy : K) : 0 < measurementVariance accuracy := by
  have hone : (1 : K) ≤ localAccuracy accuracy := by
    have hmin : (minAccuracy : K) = 1 := by
      show (1.0 : K) = 1
      norm_num
    rw [localAccuracy, hmin]
    split
    · exact le_refl 1
    · next h => exact not_lt.mp h
  rw [measurementVariance]
  positivity

/-- Time makes the variance no smaller. -/
theorem le_propagate (k : KalmanGnssFilter K) (now : Int) :
    k.variance ≤ (k.propagate now).variance := by
  simp only [propagate]
  split
  · next h =>
    have hcast : (0 : K) ≤ (k.timeIncrement now : Int) := Int.cast_nonneg h.le
    show k.variance ≤ k.variance +
      ((k.timeIncrement now : Int) : K) * k.accuracyDecay * k.accuracyDecay / 1000.0
    have hgrow : (0 : K) ≤
        ((k.timeIncrement now : Int) : K) * k.accuracyDecay * k.accuracyDecay / 1000.0 := by
      rw [mul_assoc]
      exact div_nonneg (mul_nonneg hcast (mul_self_nonneg _)) (by norm_num)
    linarith
  · exact le_refl _

/-! ## The run -/

/-- A negative variance before the first measurement, a positive one from then on, and a
position in the range of the measurements. -/
structure Tracks (ms : List (Measurement K)) (k : KalmanGnssFilter K) : Prop where
  none_yet : ms = [] → k.variance < 0
  variance_pos : ms ≠ [] → 0 < k.variance
  lat_inRange : ms ≠ [] → InRange Measurement.lat ms k.lat
  lng_inRange : ms ≠ [] → InRange Measurement.lng ms k.lng
  alt_inRange : ms ≠ [] → InRange Measurement.alt ms k.alt

theorem tracks_reset (k : KalmanGnssFilter K) : Tracks [] k.reset := by
  constructor
  · intro _
    show ((-1 : Int) : K) < 0
    norm_num
  all_goals exact fun h => absurd rfl h

theorem tracks_process {ms : List (Measurement K)} {k : KalmanGnssFilter K} (h : Tracks ms k)
    (m : Measurement K) : Tracks (ms ++ [m]) (k.after (.process m)) := by
  have hne : ms ++ [m] ≠ [] := List.append_ne_nil_of_right_ne_nil ms (List.cons_ne_nil m [])
  have hmeasured := measurementVariance_pos m.accuracy
  by_cases hfirst : ms = []
  · rw [process_first (h.none_yet hfirst), hfirst]
    exact ⟨fun hnil => absurd hnil (List.cons_ne_nil m []), fun _ => hmeasured,
      fun _ => inRange_single Measurement.lat m, fun _ => inRange_single Measurement.lng m,
      fun _ => inRange_single Measurement.alt m⟩
  · have hpos := h.variance_pos hfirst
    obtain ⟨hlat, hlng, halt⟩ := propagate_position k m.now
    obtain ⟨hnonneg, hle, hnext, -, -⟩ :=
      gain_bounds (hpos.trans_le (le_propagate k m.now)) hmeasured
    rw [process_again hpos]
    refine ⟨fun hnil => absurd hnil hne, fun _ => ?_, fun _ => ?_, fun _ => ?_, fun _ => ?_⟩
    · have hone : (1.0 : K) = 1 := by norm_num
      rw [← hone] at hnext
      exact hnext
    · have hmove := inRange_step (h.lat_inRange hfirst) hnonneg hle m
      rw [← hlat] at hmove
      exact hmove
    · have hmove := inRange_step (h.lng_inRange hfirst) hnonneg hle m
      rw [← hlng] at hmove
      exact hmove
    · have hmove := inRange_step (h.alt_inRange hfirst) hnonneg hle m
      rw [← halt] at hmove
      exact hmove

theorem tracks_afterAll (accuracyDecay : K) (calls : List (Call K)) :
    Tracks (sinceReset calls) ((create accuracyDecay).afterAll calls) := by
  induction calls using List.reverseRecOn with
  | nil => exact tracks_reset (create accuracyDecay)
  | append_singleton calls call ih =>
    rw [afterAll_snoc, sinceReset_snoc]
    cases call with
    | process m => exact tracks_process ih m
    | reset => exact tracks_reset _

/-- The first measurement after a reset is taken over without a division. From then on the
variance is positive and the position in the range of the measurements, and every further
measurement divides by positive numbers and leaves a variance below its own and no larger than
the one that time has made. -/
theorem kalman_run (accuracyDecay : K) (calls : List (Call K)) :
    let k := (create accuracyDecay).afterAll calls
    let ms := sinceReset calls
    (ms = [] → ∀ m, k.after (.process m) =
      k.setState m.lat m.lng m.alt (localAccuracy m.accuracy) m.now) ∧
    (ms ≠ [] → 0 < k.variance ∧
      InRange Measurement.lat ms k.lat ∧ InRange Measurement.lng ms k.lng ∧
        InRange Measurement.alt ms k.alt ∧
      ∀ m : Measurement K,
        (0 : K) < 1000.0 ∧
        0 < (k.propagate m.now).variance + measurementVariance m.accuracy ∧
        (k.after (.process m)).variance < measurementVariance m.accuracy ∧
        (k.after (.process m)).variance ≤ (k.propagate m.now).variance) := by
  intro k ms
  have h : Tracks ms k := tracks_afterAll accuracyDecay calls
  refine ⟨fun hfirst => process_first (h.none_yet hfirst), ?_⟩
  intro hlater
  have hpos := h.variance_pos hlater
  refine ⟨hpos, h.lat_inRange hlater, h.lng_inRange hlater, h.alt_inRange hlater, ?_⟩
  intro m
  have hmeasured := measurementVariance_pos m.accuracy
  have hpropagated := hpos.trans_le (le_propagate k m.now)
  obtain ⟨-, -, -, hlt, hle⟩ := gain_bounds hpropagated hmeasured
  have hvariance : (k.after (.process m)).variance =
      (1 - (k.propagate m.now).variance /
        ((k.propagate m.now).variance + measurementVariance m.accuracy)) *
          (k.propagate m.now).variance := by
    have hone : (1.0 : K) = 1 := by norm_num
    rw [process_again hpos, ← hone]
    rfl
  rw [hvariance]
  exact ⟨by norm_num, add_pos hpropagated hmeasured, hlt, hle⟩

/-- Two measurements, one second apart. -/
theorem kalman_run_two :
    let first : Measurement ℚ := ⟨50, 8, 200, 4, 0⟩
    let second : Measurement ℚ := ⟨52, 9, 100, 2, 1000000000⟩
    let k := (create (3 : ℚ)).afterAll [.process first]
    0 < k.variance ∧ (k.after (.process second)).variance < 4 := by
  intro first second k
  obtain ⟨hpos, -, -, -, hnext⟩ := (kalman_run (3 : ℚ) [.process first]).2 (List.cons_ne_nil _ _)
  obtain ⟨-, -, hlt, -⟩ := hnext second
  have hmeasured : measurementVariance second.accuracy = 4 := by decide +kernel
  rw [hmeasured] at hlt
  exact ⟨hpos, hlt⟩

end MuonDetector.Utility.KalmanGnssFilter
