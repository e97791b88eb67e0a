import MuonDetector.Library.Rounding
import MuonDetector.Utility.GeoPosManager

/-!
# The errors of a position without a fix

Without a 2D fix `fill_from_gps` takes the time that the module reports as its accuracy, at
0.3 m for each nanosecond, as the error of the position. The product is made in `double` and
stored into 32 bits in millimeters, which 14.3 ms are already too long for.
-/

namespace MuonDetector.Utility.TimeAccuracy

open MuonDetector.Library MuonDetector.Library.Messages MuonDetector.Library.Floats
open MuonDetector.Utility.GeoPosManager
open MuonDetector.Ublox.Events (GnssPosStruct)

/-- There is no 2D fix, and the time accuracy is not a minute old. -/
def NoFix (s : GeoPosManager) (now : Int) : Prop :=
  s.fixStatus.value < 2 ∧ s.timePrecision.age now < 60000000

instance noFixDecidable (s : GeoPosManager) (now : Int) : Decidable (NoFix s now) :=
  inferInstanceAs (Decidable (_ ∧ _))

/-- The error that is computed, in millimeters. -/
def computed (s : GeoPosManager) : Binary64 := 0.3 * ofUInt32 s.timePrecision.value * 1e3

/-- The error that the time accuracy means, in millimeters. -/
def meant (s : GeoPosManager) : ℚ := 300 * s.timePrecision.value.toNat

/-- The errors are stored as they are computed, and what the filters get of them is the error
that is meant. A position with a fix keeps the errors that it was reported with. -/
structure Kept (overflows : Overflows) (s : GeoPosManager) (event : GnssPosStruct) (now : Int) :
    Prop where
  horizontal : NoFix s now → (number64 (computed s)).whole? =
    some ((correctErrors overflows s event now).hAcc.toNat : Int)
  vertical : NoFix s now → (number64 (computed s)).whole? =
    some ((correctErrors overflows s event now).vAcc.toNat : Int)
  horError : NoFix s now → ∃ v, (number64 (gpsPosition overflows s event now).horError).Stands v ∧
    |v - meant s / 1000| ≤ 2 / 1000
  vertError : NoFix s now → ∃ v, (number64 (gpsPosition overflows s event now).vertError).Stands v ∧
    |v - meant s / 1000| ≤ 2 / 1000
  reported : ¬ NoFix s now → correctErrors overflows s event now = event

/-! ## The product -/

theorem toNat_le (i : UInt32) : (i.toNat : ℚ) ≤ 2 ^ 32 := by
  exact_mod_cast i.toNat_lt.le

theorem stands_ofUInt32 (i : UInt32) :
    ∃ v, (number64 (ofUInt32 i)).Stands v ∧ |v - i.toNat| ≤ 1 / 2 ^ 21 := by
  obtain ⟨v, hv, herror⟩ := stands_ofInt (lt_bound64 (toNat_le i) (by decide))
  have hulp := ulp64_le (toNat_le i)
  exact ⟨v, hv, herror.trans (by linarith)⟩

theorem stands_third : (number64 0.3).Stands (5404319552844595 / 2 ^ 54) :=
  ⟨5404319552844595, -54, by decide +kernel, by norm_num⟩

theorem stands_thousand : (number64 1e3).Stands 1000 :=
  ⟨8796093022208000, -43, by decide +kernel, by norm_num⟩

theorem stands_thousandth : (number64 1e-3).Stands (1152921504606847 / 2 ^ 60) :=
  ⟨4611686018427388, -62, by decide +kernel, by norm_num⟩

/-- **The computed error** is the one that is meant, but for a thousandth. -/
theorem computed_stands (s : GeoPosManager) :
    ∃ v, (number64 (computed s)).Stands v ∧ |v - meant s| ≤ 1 / 1000 := by
  obtain ⟨a, ha, hconverted⟩ := stands_ofUInt32 s.timePrecision.value
  have htime := toNat_le s.timePrecision.value
  obtain ⟨hlow, hhigh⟩ := abs_le.mp hconverted
  have hnat : (0 : ℚ) ≤ s.timePrecision.value.toNat := Nat.cast_nonneg _
  have hmeters : 5404319552844595 / 2 ^ 54 * a ≤ 2 ^ 31 := by linarith
  obtain ⟨b, hb, hproduct⟩ := stands_third.mul ha (lt_bound64 hmeters (by decide))
  obtain ⟨hlow', hhigh'⟩ := abs_le.mp (hproduct.trans (by linarith [ulp64_le hmeters] :
    _ ≤ (2 : ℚ) ^ 31 / 2 ^ 52 / 2))
  have hmillimeters : b * 1000 ≤ 2 ^ 41 := by linarith
  obtain ⟨v, hv, hlast⟩ := hb.mul stands_thousand (lt_bound64 hmillimeters (by decide))
  obtain ⟨hlow'', hhigh''⟩ := abs_le.mp (hlast.trans (by linarith [ulp64_le hmillimeters] :
    _ ≤ (2 : ℚ) ^ 41 / 2 ^ 52 / 2))
  refine ⟨v, hv, ?_⟩
  rw [abs_le, meant]
  constructor
  · linarith
  · linarith

/-- An error in millimeters is passed on in meters. -/
theorem reported_stands (i : UInt32) :
    ∃ v, (number64 (1e-3 * ofUInt32 i)).Stands v ∧ |v - i.toNat / 1000| ≤ 1 / 1000000 := by
  obtain ⟨a, ha, hconverted⟩ := stands_ofUInt32 i
  have hbound := toNat_le i
  obtain ⟨hlow, hhigh⟩ := abs_le.mp hconverted
  have hnat : (0 : ℚ) ≤ i.toNat := Nat.cast_nonneg _
  have hmeters : 1152921504606847 / 2 ^ 60 * a ≤ 2 ^ 23 := by linarith
  obtain ⟨v, hv, hproduct⟩ := stands_thousandth.mul ha (lt_bound64 hmeters (by decide))
  obtain ⟨hlow', hhigh'⟩ := abs_le.mp (hproduct.trans (by linarith [ulp64_le hmeters] :
    _ ≤ (2 : ℚ) ^ 23 / 2 ^ 52 / 2))
  refine ⟨v, hv, ?_⟩
  rw [abs_le]
  constructor
  · linarith
  · linarith

/-! ## What is stored -/

variable (overflows : Overflows)

theorem correctErrors_noFix {s : GeoPosManager} {now : Int} (h : NoFix s now)
    (event : GnssPosStruct) : correctErrors overflows s event now =
      { event with
        hAcc := toUInt32 overflows (computed s)
        vAcc := toUInt32 overflows (computed s) } :=
  if_pos h

/-- The computed error fits in 32 bits as long as the one that is meant does. -/
theorem stored_iff (s : GeoPosManager) :
    (number64 (computed s)).whole? = some ((toUInt32 overflows (computed s)).toNat : Int) ↔
      s.timePrecision.value ≤ 14316557 := by
  obtain ⟨v, hv, herror⟩ := computed_stands s
  obtain ⟨hlow, hhigh⟩ := abs_le.mp herror
  rw [hv.whole_eq_toUInt32_iff, UInt32.le_iff_toNat_le, meant] at *
  constructor
  · intro hfits
    by_contra hlong
    have hlong' : (14316558 : ℚ) ≤ s.timePrecision.value.toNat := by
      exact_mod_cast not_le.mp hlong
    linarith
  · intro hshort
    have hshort' : (s.timePrecision.value.toNat : ℚ) ≤ 14316557 := by exact_mod_cast hshort
    linarith

/-- A stored error reaches the filters as the error that is meant. -/
theorem stored_stands {s : GeoPosManager} (h : s.timePrecision.value ≤ 14316557) :
    ∃ v, (number64 (1e-3 * ofUInt32 (toUInt32 overflows (computed s)))).Stands v ∧
      |v - meant s / 1000| ≤ 2 / 1000 := by
  obtain ⟨w, hw, hcomputed⟩ := computed_stands s
  have hstored := (stored_iff overflows s).mpr h
  rw [hw.whole, Option.some.injEq] at hstored
  generalize toUInt32 overflows (computed s) = i at hstored ⊢
  have hfloor : (i.toNat : ℚ) = ⌊w⌋ := by exact_mod_cast hstored.symm
  have hfloor_le := Int.floor_le w
  have hlt_floor := Int.lt_floor_add_one w
  obtain ⟨v, hv, hreported⟩ := reported_stands i
  refine ⟨v, hv, ?_⟩
  rw [abs_le] at hcomputed hreported ⊢
  rw [hfloor] at hreported
  constructor
  · linarith
  · linarith

/-- **The errors of a position without a fix** are kept exactly up to a time accuracy of
14316557 ns. -/
theorem kept_iff (s : GeoPosManager) (event : GnssPosStruct) (now : Int) :
    Kept overflows s event now ↔ (NoFix s now → s.timePrecision.value ≤ 14316557) := by
  constructor
  · intro hkept hfix
    have hhorizontal := hkept.horizontal hfix
    rw [correctErrors_noFix overflows hfix] at hhorizontal
    exact (stored_iff overflows s).mp hhorizontal
  · intro hshort
    refine ⟨?_, ?_, ?_, ?_, fun hfix => if_neg hfix⟩ <;> intro hfix
    · rw [correctErrors_noFix overflows hfix]
      exact (stored_iff overflows s).mpr (hshort hfix)
    · rw [correctErrors_noFix overflows hfix]
      exact (stored_iff overflows s).mpr (hshort hfix)
    · rw [gpsPosition, correctErrors_noFix overflows hfix]
      exact stored_stands overflows (hshort hfix)
    · rw [gpsPosition, correctErrors_noFix overflows hfix]
      exact stored_stands overflows (hshort hfix)

/-- The conversions as a processor makes them that keeps the lower 32 bits. -/
def lowerBits : Overflows where
  int32 x := Int32.ofInt (number64 x).trunc
  uint32 x := UInt32.ofInt (number64 x).trunc

/-- A time accuracy of 14.3 ms without a fix becomes an error of 103 mm. -/
theorem long_time_small_error :
    let s : GeoPosManager := { timePrecision := ⟨14316558, 0⟩ }
    let event : GnssPosStruct := ⟨0, 0, 0, 0, 0, 4294967295, 4294967295⟩
    NoFix s 1000 ∧ (correctErrors lowerBits s event 1000).hAcc = 103 ∧
      ¬ Kept lowerBits s event 1000 := by
  intro s event
  have hfix : NoFix s 1000 := by decide
  refine ⟨hfix, by decide +kernel, ?_⟩
  intro hkept
  have hhorizontal := hkept.horizontal hfix
  revert hhorizontal
  decide +kernel

end MuonDetector.Utility.TimeAccuracy
