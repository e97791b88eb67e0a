import MuonDetector.Library.Floats
import Mathlib.Algebra.Order.Floor.Ring
import Mathlib.Data.Rat.Floor
import Mathlib.Tactic.Linarith
import Mathlib.Tactic.FieldSimp
import Mathlib.Tactic.Positivity
import Mathlib.Tactic.NormNum

/-!
# How far a rounded result is from the exact one

The binary formats round the exact result of an operation to the nearest number. Over the
rationals the two differ by half a unit in the last place at most, for every result that is
not negative and within the range of the format.
-/

namespace MuonDetector.Library.Floats

open MuonDetector.Library.Messages

/-- The number is finite and not negative, and it is `v`. -/
def Number.Stands (x : Number) (v : ℚ) : Prop :=
  ∃ (m : Nat) (e : Int), x = .finite false m e ∧ (m : ℚ) * 2 ^ e = v

namespace Number.Stands

theorem nonneg {x : Number} {v : ℚ} (h : x.Stands v) : 0 ≤ v := by
  obtain ⟨m, e, -, rfl⟩ := h
  exact mul_nonneg m.cast_nonneg (zpow_nonneg two_pos.le e)

end Number.Stands

/-- A power of two as a quotient of whole numbers. -/
theorem two_zpow_eq_div (z : Int) : (2 : ℚ) ^ z = 2 ^ z.toNat / 2 ^ (-z).toNat := by
  rcases le_total 0 z with h | h
  · obtain ⟨k, rfl⟩ := Int.eq_ofNat_of_zero_le h
    simp
  · obtain ⟨k, hk⟩ := Int.eq_ofNat_of_zero_le (Int.neg_nonneg_of_nonpos h)
    obtain rfl : z = -(k : Int) := by omega
    simp

/-- The fraction of a number is cut off. -/
theorem Number.Stands.whole {x : Number} {v : ℚ} (h : x.Stands v) : x.whole? = some ⌊v⌋ := by
  obtain ⟨m, e, rfl, rfl⟩ := h
  have hfloor : ⌊(m : ℚ) * 2 ^ e⌋ = (m : Int) * 2 ^ e.toNat / 2 ^ (-e).toNat := by
    have hquotient : (m : ℚ) * 2 ^ e =
        (((m : Int) * 2 ^ e.toNat : Int) : ℚ) / ((2 ^ (-e).toNat : Nat) : ℚ) := by
      rw [two_zpow_eq_div]
      push_cast
      ring
    rw [hquotient, Rat.floor_intCast_div_natCast]
    push_cast
    rfl
  rw [hfloor]
  rfl

/-! ## The nearest whole number -/

theorem divNearest_error (n : Nat) {d : Nat} (hd : 0 < d) :
    |(divNearest n d : ℚ) - n / d| ≤ 1 / 2 := by
  have hbounds : 2 * (d * divNearest n d) ≤ 2 * n + d ∧ 2 * n ≤ 2 * (d * divNearest n d) + d := by
    have hdiv := Nat.div_add_mod n d
    have hparity : n / d % 2 = 0 ∨ n / d % 2 = 1 := by omega
    unfold divNearest
    simp only []
    split_ifs with hlow hhigh
    · omega
    · have := Nat.mod_lt n hd
      rw [Nat.mul_add]
      omega
    · rw [Nat.mul_add]
      rcases hparity with h | h <;> rw [h] <;> omega
  obtain ⟨hupper, hlower⟩ := hbounds
  have hd' : (0 : ℚ) < d := by exact_mod_cast hd
  have hupper' : (2 : ℚ) * (d * divNearest n d) ≤ 2 * n + d := by exact_mod_cast hupper
  have hlower' : (2 : ℚ) * n ≤ 2 * (d * divNearest n d) + d := by exact_mod_cast hlower
  rw [abs_le]
  constructor
  · rw [neg_le_sub_iff_le_add, div_le_iff₀ hd']
    linarith
  · rw [sub_le_iff_le_add, ← sub_le_iff_le_add', le_div_iff₀ hd']
    linarith

theorem divNearest_le {n d k : Nat} (hd : 0 < d) (h : n < k * d) : divNearest n d ≤ k := by
  have hq : n / d < k := (Nat.div_lt_iff_lt_mul hd).mpr h
  unfold divNearest
  simp only []
  split_ifs <;> omega

theorem le_divNearest {n d k : Nat} (hd : 0 < d) (h : k * d ≤ n) : k ≤ divNearest n d := by
  have hq : k ≤ n / d := (Nat.le_div_iff_mul_le hd).mpr h
  unfold divNearest
  simp only []
  split_ifs <;> omega

/-! ## The nearest number of a format -/

namespace Format

variable (f : Format)

/-- A bound of the distance between two numbers of the format that are next to `v`. -/
def ulp (v : ℚ) : ℚ := max (2 ^ f.minExponent) (v / 2 ^ f.fraction)

/-- Below this the nearest number is finite. -/
def bound : ℚ := 2 ^ ((2 : Int) ^ (f.exponent - 1) - 1)

/-- The exponent of the unit that `nearest` rounds to. -/
def unit (n d : Nat) (e : Int) : Int :=
  let low := max f.minExponent ((n.log2 : Int) - d.log2 + e - 1 - f.fraction)
  if 2 ^ (f.fraction + 1) ≤ n * 2 ^ (e - low).toNat / (d * 2 ^ (low - e).toNat) then low + 1
  else low

/-- The significand in this unit. -/
def significand (n d : Nat) (e : Int) : Nat :=
  divNearest (n * 2 ^ (e - f.unit n d e).toNat) (d * 2 ^ (f.unit n d e - e).toNat)

theorem nearest_eq {n : Nat} (hn : n ≠ 0) (d : Nat) (e : Int) :
    f.nearest n d e = min f.infinity
      ((f.unit n d e - f.minExponent).toNat * 2 ^ f.fraction + f.significand n d e) := by
  rw [nearest, if_neg hn]
  rfl

/-- The fraction that `nearest` divides is the exact number in units of `2 ^ u`. -/
theorem scaled_eq (n d : Nat) (e u : Int) :
    ((n * 2 ^ (e - u).toNat : Nat) : ℚ) / ((d * 2 ^ (u - e).toNat : Nat) : ℚ) =
      n / d * 2 ^ e / 2 ^ u := by
  rw [mul_div_assoc (n / d : ℚ), ← zpow_sub₀ (two_ne_zero' ℚ), two_zpow_eq_div, Int.neg_sub]
  push_cast
  exact mul_div_mul_comm _ _ _ _

theorem scaled_lt_iff {n d : Nat} (hd : 0 < d) (e u : Int) (k : Nat) :
    n * 2 ^ (e - u).toNat < k * (d * 2 ^ (u - e).toNat) ↔ (n : ℚ) / d * 2 ^ e < k * 2 ^ u := by
  have hden : (0 : ℚ) < ((d * 2 ^ (u - e).toNat : Nat) : ℚ) := by exact_mod_cast by positivity
  rw [← div_lt_iff₀ (zpow_pos two_pos u), ← scaled_eq, div_lt_iff₀ hden]
  exact_mod_cast Iff.rfl

theorem value_bounds {n d : Nat} (hn : n ≠ 0) (hd : d ≠ 0) (e : Int) :
    (2 : ℚ) ^ ((n.log2 : Int) - d.log2 + e - 1) < n / d * 2 ^ e ∧
      (n : ℚ) / d * 2 ^ e < 2 ^ ((n.log2 : Int) - d.log2 + e + 1) := by
  have hn₁ : ((2 : ℚ) ^ n.log2) ≤ n := by exact_mod_cast Nat.log2_self_le hn
  have hn₂ : (n : ℚ) < 2 ^ (n.log2 + 1) := by exact_mod_cast Nat.lt_log2_self
  have hd₁ : ((2 : ℚ) ^ d.log2) ≤ d := by exact_mod_cast Nat.log2_self_le hd
  have hd₂ : (d : ℚ) < 2 ^ (d.log2 + 1) := by exact_mod_cast Nat.lt_log2_self
  have hd₀ : (0 : ℚ) < d := by exact_mod_cast Nat.pos_of_ne_zero hd
  have he : (0 : ℚ) < 2 ^ e := zpow_pos two_pos e
  constructor
  · have hsplit : (2 : ℚ) ^ ((n.log2 : Int) - d.log2 + e - 1) =
        2 ^ n.log2 / 2 ^ (d.log2 + 1) * 2 ^ e := by
      rw [← zpow_natCast, ← zpow_natCast, ← zpow_sub₀ (two_ne_zero' ℚ),
        ← zpow_add₀ (two_ne_zero' ℚ)]
      congr 1
      push_cast
      ring
    rw [hsplit]
    refine mul_lt_mul_of_pos_right ?_ he
    rw [div_lt_div_iff₀ (by positivity) hd₀]
    calc (2 : ℚ) ^ n.log2 * d < 2 ^ n.log2 * 2 ^ (d.log2 + 1) := by gcongr
      _ ≤ n * 2 ^ (d.log2 + 1) := by gcongr
  · have hsplit : (2 : ℚ) ^ ((n.log2 : Int) - d.log2 + e + 1) =
        2 ^ (n.log2 + 1) / 2 ^ d.log2 * 2 ^ e := by
      rw [← zpow_natCast, ← zpow_natCast, ← zpow_sub₀ (two_ne_zero' ℚ),
        ← zpow_add₀ (two_ne_zero' ℚ)]
      congr 1
      push_cast
      ring
    rw [hsplit]
    refine mul_lt_mul_of_pos_right ?_ he
    rw [div_lt_div_iff₀ hd₀ (by positivity)]
    calc (n : ℚ) * 2 ^ d.log2 < 2 ^ (n.log2 + 1) * 2 ^ d.log2 := by gcongr
      _ ≤ 2 ^ (n.log2 + 1) * d := by gcongr

/-- In its unit the number has as many digits as the format, or fewer in the smallest one. -/
theorem unit_spec {n d : Nat} (hn : n ≠ 0) (hd : d ≠ 0) (e : Int) :
    f.minExponent ≤ f.unit n d e ∧
    (n : ℚ) / d * 2 ^ e < (2 ^ (f.fraction + 1) : Nat) * 2 ^ f.unit n d e ∧
    (f.unit n d e = f.minExponent ∨
      ((2 ^ f.fraction : Nat) : ℚ) * 2 ^ f.unit n d e ≤ n / d * 2 ^ e) := by
  obtain ⟨hlower, hupper⟩ := value_bounds hn hd e
  have hd₀ := Nat.pos_of_ne_zero hd
  -- all bounds are powers of two, compared by their exponents
  have hpow (k : Nat) (u : Int) : ((2 ^ k : Nat) : ℚ) * 2 ^ u = 2 ^ (k + u) := by
    rw [zpow_add₀ (two_ne_zero' ℚ)]
    push_cast
    rw [zpow_natCast]
  have hmono {u w : Int} (h : u ≤ w) : (2 : ℚ) ^ u ≤ 2 ^ w := zpow_le_zpow_right₀ one_le_two h
  unfold unit
  simp only []
  generalize hlow : max f.minExponent ((n.log2 : Int) - d.log2 + e - 1 - f.fraction) = low
  have hmin : f.minExponent ≤ low := by omega
  split_ifs with hfits
  · rw [Nat.le_div_iff_mul_le (by positivity), ← not_lt, scaled_lt_iff hd₀, not_lt] at hfits
    refine ⟨by omega, ?_, .inr ?_⟩
    · rw [hpow]
      exact hupper.trans_le (hmono (by push_cast; omega))
    · refine le_trans (le_of_eq ?_) hfits
      rw [hpow, hpow]
      congr 1
      push_cast
      ring
  · rw [Nat.le_div_iff_mul_le (by positivity), ← not_lt, not_not, scaled_lt_iff hd₀] at hfits
    refine ⟨hmin, hfits, ?_⟩
    rcases eq_or_ne low f.minExponent with h | h
    · exact .inl h
    · refine .inr ?_
      rw [hpow]
      exact (hmono (by omega)).trans hlower.le

/-- The bits of a significand in the unit `2 ^ (f.minExponent + k)` stand for the number, also
where the rounding has carried into the next power of two. -/
theorem decode_assembled {k m : Nat} (hnormal : k = 0 ∨ 2 ^ f.fraction ≤ m)
    (hm : m ≤ 2 ^ (f.fraction + 1)) (hk : k + 3 < 2 ^ f.exponent) :
    (f.decode (k * 2 ^ f.fraction + m)).Stands (m * 2 ^ (f.minExponent + k)) := by
  have hp : 0 < 2 ^ f.fraction := by positivity
  -- the field of the exponent and the fraction
  have hfields {j r : Nat} (hr : r < 2 ^ f.fraction) (hj : j + 1 < 2 ^ f.exponent)
      (hbits : k * 2 ^ f.fraction + m = j * 2 ^ f.fraction + r) :
      f.decode (k * 2 ^ f.fraction + m) = if j = 0 then .finite false r f.minExponent
        else .finite false (2 ^ f.fraction + r) (f.minExponent + j - 1) := by
    have hmod : (j * 2 ^ f.fraction + r) % 2 ^ f.fraction = r := by
      rw [Nat.add_comm, Nat.add_mul_mod_self_right, Nat.mod_eq_of_lt hr]
    have hdiv : (j * 2 ^ f.fraction + r) / 2 ^ f.fraction = j := by
      rw [Nat.add_comm, Nat.add_mul_div_right _ _ hp, Nat.div_eq_of_lt hr, Nat.zero_add]
    rw [hbits, decode, pow_add, ← Nat.div_div_eq_div_mul, hmod, hdiv, Nat.mod_eq_of_lt (by omega),
      Nat.div_eq_of_lt (by omega), if_neg (by omega)]
    rfl
  have hdouble : 2 ^ (f.fraction + 1) = 2 * 2 ^ f.fraction := by rw [pow_succ, Nat.mul_comm]
  rcases Nat.lt_or_ge m (2 ^ f.fraction) with hlow | hlow
  · obtain rfl : k = 0 := hnormal.resolve_right (by omega)
    rw [hfields hlow (by omega) rfl, if_pos rfl]
    exact ⟨m, f.minExponent, rfl, by simp⟩
  obtain ⟨r, rfl⟩ := Nat.exists_eq_add_of_le hlow
  rcases Nat.lt_or_ge r (2 ^ f.fraction) with hr | hr
  · rw [hfields (j := k + 1) hr (by omega) (by ring), if_neg (Nat.succ_ne_zero k)]
    refine ⟨_, _, rfl, ?_⟩
    congr 2
    push_cast
    ring
  · obtain rfl : r = 2 ^ f.fraction := by omega
    rw [hfields (j := k + 2) (r := 0) hp (by omega) (by ring), if_neg (Nat.succ_ne_zero _)]
    refine ⟨_, _, rfl, ?_⟩
    have hcarry : f.minExponent + ((k + 2 : Nat) : Int) - 1 = (f.minExponent + k) + 1 := by
      push_cast
      ring
    rw [hcarry, zpow_add_one₀ (two_ne_zero' ℚ)]
    push_cast
    ring

theorem ulp_nonneg (v : ℚ) : 0 ≤ f.ulp v :=
  le_max_of_le_left (zpow_nonneg two_pos.le _)

theorem unit_le_ulp {n d : Nat} (hn : n ≠ 0) (hd : d ≠ 0) (e : Int) :
    2 ^ f.unit n d e ≤ f.ulp (n / d * 2 ^ e) := by
  rcases (f.unit_spec hn hd e).2.2 with hmin | hfull
  · rw [hmin]
    exact le_max_left _ _
  · refine le_max_of_le_right ?_
    rw [le_div_iff₀ (by positivity), mul_comm]
    exact_mod_cast hfull

theorem significand_bounds {n d : Nat} (hn : n ≠ 0) (hd : d ≠ 0) (e : Int) :
    f.significand n d e ≤ 2 ^ (f.fraction + 1) ∧
      (f.unit n d e = f.minExponent ∨ 2 ^ f.fraction ≤ f.significand n d e) := by
  obtain ⟨-, hupper, hlower⟩ := f.unit_spec hn hd e
  have hd₀ := Nat.pos_of_ne_zero hd
  have hden : 0 < d * 2 ^ (f.unit n d e - e).toNat := by positivity
  refine ⟨divNearest_le hden ((scaled_lt_iff hd₀ e _ _).mpr hupper), hlower.imp_right ?_⟩
  intro hfull
  exact le_divNearest hden (not_lt.mp fun h => hfull.not_gt ((scaled_lt_iff hd₀ e _ _).mp h))

theorem significand_error {n d : Nat} (hd : d ≠ 0) (e : Int) :
    |(f.significand n d e : ℚ) * 2 ^ f.unit n d e - n / d * 2 ^ e| ≤ 2 ^ f.unit n d e / 2 := by
  have hunit : (0 : ℚ) < 2 ^ f.unit n d e := zpow_pos two_pos _
  have hden : 0 < d * 2 ^ (f.unit n d e - e).toNat :=
    Nat.mul_pos (Nat.pos_of_ne_zero hd) (by positivity)
  have herror := divNearest_error (n * 2 ^ (e - f.unit n d e).toNat) hden
  rw [scaled_eq] at herror
  calc |(f.significand n d e : ℚ) * 2 ^ f.unit n d e - n / d * 2 ^ e|
      = |(f.significand n d e : ℚ) - n / d * 2 ^ e / 2 ^ f.unit n d e| * 2 ^ f.unit n d e := by
        rw [← abs_of_pos hunit, ← abs_mul, abs_of_pos hunit, sub_mul, div_mul_cancel₀ _ hunit.ne']
    _ ≤ 1 / 2 * 2 ^ f.unit n d e := mul_le_mul_of_nonneg_right herror hunit.le
    _ = 2 ^ f.unit n d e / 2 := by ring

theorem encode_positive (n d : Nat) (e : Int) : f.encode false n d e = f.nearest n d e := by
  rw [encode, signed, if_neg Bool.false_ne_true]

/-- **The nearest number** is no further from the exact one than half a unit. -/
theorem nearest_spec {n d : Nat} (hd : d ≠ 0) {e : Int} (hexponent : 2 ≤ f.exponent)
    (hbound : (n : ℚ) / d * 2 ^ e < f.bound) :
    f.nearest n d e ≤ f.infinity ∧ ∃ v, (f.decode (f.nearest n d e)).Stands v ∧
      |v - n / d * 2 ^ e| ≤ f.ulp (n / d * 2 ^ e) / 2 := by
  have hfour : 4 ≤ 2 ^ f.exponent := Nat.pow_le_pow_right (by omega : 0 < 2) hexponent
  rcases eq_or_ne n 0 with rfl | hn
  · refine ⟨Nat.zero_le _, 0, ?_, ?_⟩
    · simpa [nearest] using
        f.decode_assembled (k := 0) (m := 0) (.inl rfl) (Nat.zero_le _) (by omega)
    · simpa using div_nonneg (f.ulp_nonneg 0) two_pos.le
  obtain ⟨hmin, -, hfull⟩ := f.unit_spec hn hd e
  obtain ⟨hupper, hnormal⟩ := f.significand_bounds hn hd e
  obtain ⟨k, hk⟩ := Int.eq_ofNat_of_zero_le (Int.sub_nonneg_of_le hmin)
  have hunit : f.unit n d e = f.minExponent + k := by omega
  have hrange : k + 3 < 2 ^ f.exponent := by
    have htwice : 2 ^ f.exponent = 2 * 2 ^ (f.exponent - 1) := by
      rw [← pow_succ']
      congr 1
      omega
    rcases hfull with h | h
    · omega
    · have hlt := h.trans_lt hbound
      rw [Nat.cast_pow, Nat.cast_two, ← zpow_natCast, ← zpow_add₀ (two_ne_zero' ℚ), bound,
        zpow_lt_zpow_iff_right₀ one_lt_two] at hlt
      have hminimum : f.minExponent = 2 - ((2 ^ (f.exponent - 1) : Nat) : Int) - f.fraction := by
        rw [minExponent]
        push_cast
        rfl
      have hlt' : (f.fraction : Int) + f.unit n d e < ((2 ^ (f.exponent - 1) : Nat) : Int) - 1 := by
        exact_mod_cast hlt
      omega
  have hfinite : k * 2 ^ f.fraction + f.significand n d e ≤ f.infinity := by
    calc k * 2 ^ f.fraction + f.significand n d e
        ≤ k * 2 ^ f.fraction + 2 ^ (f.fraction + 1) := Nat.add_le_add_left hupper _
      _ = (k + 2) * 2 ^ f.fraction := by ring
      _ ≤ (2 ^ f.exponent - 1) * 2 ^ f.fraction := Nat.mul_le_mul_right _ (by omega)
  have hnearest : f.nearest n d e = k * 2 ^ f.fraction + f.significand n d e := by
    rw [nearest_eq f hn, hk, Int.toNat_natCast, min_eq_right hfinite]
  rw [hnearest]
  refine ⟨hfinite, _, f.decode_assembled (hnormal.imp_left (by omega)) hupper hrange, ?_⟩
  rw [← hunit]
  exact (f.significand_error hd e).trans
    (div_le_div_of_nonneg_right (f.unit_le_ulp hn hd e) two_pos.le)

end Format

/-! ## The operations of `double` -/

theorem ulp64_le {v : ℚ} {k : Nat} (h : v ≤ 2 ^ k) : binary64.ulp v ≤ 2 ^ k / 2 ^ 52 := by
  refine max_le ?_ (div_le_div_of_nonneg_right h (by positivity))
  rw [← zpow_natCast, ← zpow_natCast, ← zpow_sub₀ (two_ne_zero' ℚ)]
  refine zpow_le_zpow_right₀ one_le_two ?_
  show (-1074 : Int) ≤ _
  omega

theorem lt_bound64 {v : ℚ} {k : Nat} (h : v ≤ 2 ^ k) (hk : k < 1023) :
    v < binary64.bound := by
  refine h.trans_lt ?_
  rw [← zpow_natCast, Format.bound]
  refine zpow_lt_zpow_right₀ one_lt_two ?_
  show (k : Int) < 1023
  omega

theorem infinity64_lt : binary64.infinity < UInt64.size := by decide +kernel

theorem number64_ofBits64 {bits : Nat} (h : bits ≤ binary64.infinity) :
    number64 (ofBits64 bits) = binary64.decode bits := by
  have hlt : bits < UInt64.size := Nat.lt_of_le_of_lt h infinity64_lt
  have hbits : (UInt64.ofNat bits).toNat = bits := UInt64.toNat_ofNat_of_lt' hlt
  exact congrArg binary64.decode hbits

theorem stands_encode {n : Nat} {e : Int} (h : (n : ℚ) * 2 ^ e < binary64.bound) :
    ∃ v, (number64 (ofBits64 (binary64.encode false n 1 e))).Stands v ∧
      |v - n * 2 ^ e| ≤ binary64.ulp (n * 2 ^ e) / 2 := by
  obtain ⟨hfinite, v, hv, herror⟩ := binary64.nearest_spec (n := n) one_ne_zero (by decide)
    (e := e) (by simpa using h)
  refine ⟨v, ?_, by simpa using herror⟩
  rw [Format.encode_positive, number64_ofBits64 hfinite]
  exact hv

/-- **A product** is the exact one but for half a unit. -/
theorem Number.Stands.mul {x y : Binary64} {v w : ℚ} (hx : (number64 x).Stands v)
    (hy : (number64 y).Stands w) (h : v * w < binary64.bound) :
    ∃ u, (number64 (x * y)).Stands u ∧ |u - v * w| ≤ binary64.ulp (v * w) / 2 := by
  obtain ⟨m, e, hx, rfl⟩ := hx
  obtain ⟨n, e', hy, rfl⟩ := hy
  have hproduct : (m : ℚ) * 2 ^ e * (n * 2 ^ e') = ((m * n : Nat) : ℚ) * 2 ^ (e + e') := by
    rw [zpow_add₀ (two_ne_zero' ℚ)]
    push_cast
    ring
  have hbits : x * y = ofBits64 (binary64.encode false (m * n) 1 (e + e')) := by
    show ofBits64 ((number64 x).mul binary64 (number64 y)) = _
    rw [hx, hy]
    rfl
  rw [hproduct] at h ⊢
  rw [hbits]
  exact stands_encode h

/-- **A whole number** is converted but for half a unit. -/
theorem stands_ofInt {n : Nat} (h : (n : ℚ) < binary64.bound) :
    ∃ v, (number64 (Floating.ofInt n)).Stands v ∧ |v - n| ≤ binary64.ulp n / 2 := by
  rcases eq_or_ne n 0 with rfl | hn
  · exact ⟨0, ⟨0, binary64.minExponent, by decide, by simp⟩,
      by simpa using div_nonneg (binary64.ulp_nonneg 0) two_pos.le⟩
  · obtain ⟨v, hv, herror⟩ := stands_encode (n := n) (e := 0) (by simpa using h)
    refine ⟨v, ?_, by simpa using herror⟩
    have hbits : (Floating.ofInt (n : Int) : Binary64) =
        ofBits64 (binary64.encode false n 1 0) := by
      show ofBits64 (if (n : Int) = 0 then 0 else _) = _
      rw [if_neg (by exact_mod_cast hn), Int.natAbs_natCast]
      congr 2
    rw [hbits]
    exact hv

/-- **A conversion** to 32 bits keeps the whole part of exactly the numbers that fit. -/
theorem Number.Stands.whole_eq_toUInt32_iff {x : Binary64} {v : ℚ} (h : (number64 x).Stands v)
    (overflows : Overflows) :
    (number64 x).whole? = some ((toUInt32 overflows x).toNat : Int) ↔ v < 2 ^ 32 := by
  have hfloor : ⌊v⌋ < 2 ^ 32 ↔ v < 2 ^ 32 := by
    rw [Int.floor_lt]
    norm_num
  rw [h.whole, Option.some.injEq, ← hfloor]
  constructor
  · intro heq
    rw [heq]
    exact_mod_cast (toUInt32 overflows x).toNat_lt
  · intro hlt
    have hnonneg : 0 ≤ ⌊v⌋ := Int.floor_nonneg.mpr h.nonneg
    rw [toUInt32, h.whole]
    simp only []
    rw [if_pos ⟨hnonneg, hlt⟩]
    obtain ⟨k, hk⟩ := Int.eq_ofNat_of_zero_le hnonneg
    rw [hk] at hlt hnonneg ⊢
    have hsmall : k < UInt32.size := by exact_mod_cast hlt
    rw [UInt32.ofInt, Int.emod_eq_of_lt hnonneg hlt, Int.toNat_natCast,
      UInt32.toNat_ofNat_of_lt' hsmall]

end MuonDetector.Library.Floats
