import MuonDetector.Library.Floats
import Mathlib.Algebra.Order.Floor.Ring
import Mathlib.Data.Rat.Floor
import Mathlib.Data.Rat.Cast.OfScientific
import Mathlib.Tactic.Linarith
import Mathlib.Tactic.NormNum.OfScientific

/-!
# Calculating exactly

The operations of a floating point type on an ordered field, where nothing is rounded
but what is rounded to an integer.
-/

namespace MuonDetector.Library.Exact

open MuonDetector.Library.Floats

/-- What `lround` gives for a number that a `long` has no room for, which the language
leaves open. -/
class LongOverflow (K : Type) where
  beyond : K → Int

/-- On x86-64 it is the smallest `long`. -/
instance longOverflowRat : LongOverflow ℚ := ⟨fun _ => -2 ^ 63⟩

/-- The numeral two has this instance in every definition. -/
instance atLeastTwo : Nat.AtLeastTwo 2 := ⟨le_refl 2⟩

variable {K : Type} [Field K] [LinearOrder K] [FloorRing K]

/-- The nearest integer, and of two the one farther from zero. -/
def roundAway (x : K) : Int := if 0 ≤ x then ⌊x + 1 / 2⌋ else -⌊-x + 1 / 2⌋

/-- Without its fraction. -/
def truncate (x : K) : Int := if 0 ≤ x then ⌊x⌋ else ⌈x⌉

def inLong (i : Int) : Prop := -2 ^ 63 ≤ i ∧ i < 2 ^ 63

instance (i : Int) : Decidable (inLong i) := inferInstanceAs (Decidable (_ ∧ _))

section

variable [LongOverflow K]

def lround (x : K) : Int := if inLong (roundAway x) then roundAway x else LongOverflow.beyond x

/-- An ordered field has the operations of a floating point type. -/
instance floating : Floating K where
  toAdd := inferInstance
  toSub := inferInstance
  toMul := inferInstance
  toDiv := inferInstance
  toLT := inferInstance
  toLE := inferInstance
  toBEq := instBEqOfDecidableEq
  toOfScientific := inferInstance
  decLt := inferInstance
  decLe := inferInstance
  ofInt i := i
  lround := lround
  trunc := truncate

end

/-! ## Rounding -/

variable [IsStrictOrderedRing K]

/-- From one half below a positive integer on it is reached. -/
theorem le_roundAway {x : K} {k : Int} (hk : 0 < k) : k ≤ roundAway x ↔ (k : K) - 1 / 2 ≤ x := by
  have hk' : (1 : K) ≤ k := by exact_mod_cast hk
  rw [roundAway]
  split
  · rw [Int.le_floor]
    constructor <;> intro h <;> linarith
  · next hx =>
    rw [not_le] at hx
    have hfloor : 0 ≤ ⌊-x + 1 / 2⌋ := Int.floor_nonneg.mpr (by linarith)
    constructor
    · intro h
      omega
    · intro h
      linarith

theorem roundAway_neg {x : K} : roundAway x < 0 ↔ x ≤ -1 / 2 := by
  rw [roundAway]
  split
  · next hx =>
    have hfloor : 0 ≤ ⌊x + 1 / 2⌋ := Int.floor_nonneg.mpr (by linarith)
    constructor
    · intro h
      omega
    · intro h
      linarith
  · next hx =>
    have hfloor : 0 < ⌊-x + 1 / 2⌋ ↔ (1 : Int) ≤ ⌊-x + 1 / 2⌋ := Iff.rfl
    rw [Int.neg_neg_iff_pos, hfloor, Int.le_floor, Int.cast_one]
    constructor <;> intro h <;> linarith

/-- The rounded number is not farther than one half. -/
theorem abs_sub_roundAway (x : K) : |x - roundAway x| ≤ 1 / 2 := by
  rw [roundAway, abs_le]
  split
  · have hle := Int.floor_le (x + 1 / 2)
    have hlt := Int.lt_floor_add_one (x + 1 / 2)
    constructor <;> linarith
  · have hle := Int.floor_le (-x + 1 / 2)
    have hlt := Int.lt_floor_add_one (-x + 1 / 2)
    push_cast
    constructor <;> linarith

/-- The number that is rounded to is the nearest of all. -/
theorem abs_sub_roundAway_le (x : K) (other : Int) : |x - roundAway x| ≤ |x - other| := by
  have hnear := abs_sub_roundAway x
  by_cases hsame : roundAway x = other
  · rw [hsame]
  · have hapart : (1 : K) ≤ |(roundAway x : K) - other| := by
      have hint : 1 ≤ |roundAway x - other| := Int.one_le_abs (sub_ne_zero.mpr hsame)
      exact_mod_cast hint
    have htriangle := abs_sub_le (roundAway x : K) x other
    rw [abs_sub_comm (roundAway x : K) x] at htriangle
    linarith

end MuonDetector.Library.Exact
