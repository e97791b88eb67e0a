import Mathlib.Data.Int.ModEq
import Mathlib.Data.List.Basic
import Mathlib.Tactic.Ring

/-!
# Bytes, positional values and byte sums

Shift-and-or assembly of bytes is addition of their positional values, and a
masked shift of a word is one digit of it to base 256. Both are stated on naturals,
where `omega` closes the round trips of a word through its bytes. For words of any
length, `littleBytes` and `littleValue` are inverse up to the width. The 8-bit
Fletcher checksum is a fold, so it can be taken along one byte at a time.
-/

namespace MuonDetector.Library.Bytes

/-- The value of a `char` whose byte is `ch`, for either choice of the platform. -/
def charValue (signedChar : Bool) (ch : UInt8) : Int :=
  if signedChar then ch.toInt8.toInt else ch.toNat

/-- A shifted value and a value below the shift do not overlap. -/
theorem mul_or_eq_add {b i : Nat} (hb : b < 2 ^ i) (a : Nat) :
    a * 2 ^ i ||| b = a * 2 ^ i + b := by
  rw [Nat.mul_comm, Nat.two_pow_add_eq_or_of_lt hb]

theorem or_bytes_two {a b : Nat} (hb : b < 2 ^ 8) : a * 2 ^ 8 ||| b = a * 2 ^ 8 + b :=
  mul_or_eq_add hb a

theorem or_bytes_four {a b c d : Nat} (hb : b < 2 ^ 8) (hc : c < 2 ^ 8) (hd : d < 2 ^ 8) :
    a * 2 ^ 24 ||| b * 2 ^ 16 ||| c * 2 ^ 8 ||| d =
      a * 2 ^ 24 + b * 2 ^ 16 + c * 2 ^ 8 + d := by
  have h1 : a * 2 ^ 24 ||| b * 2 ^ 16 = (a * 2 ^ 8 + b) * 2 ^ 16 := by
    rw [mul_or_eq_add (by omega)]
    omega
  have h2 : (a * 2 ^ 8 + b) * 2 ^ 16 ||| c * 2 ^ 8 = ((a * 2 ^ 8 + b) * 2 ^ 8 + c) * 2 ^ 8 := by
    rw [mul_or_eq_add (by omega)]
    omega
  rw [h1, h2, mul_or_eq_add hd]
  omega

theorem and_byte (x : Nat) : x &&& 255 = x % 256 := Nat.and_two_pow_sub_one_eq_mod x 8

theorem and_high_byte {n : Nat} (h : n < 2 ^ 16) : n &&& 0xff00 = n / 2 ^ 8 * 2 ^ 8 := by
  have hmask : (0xff00 : Nat) = (2 ^ 8 - 1) * 2 ^ 8 := rfl
  apply Nat.eq_of_testBit_eq
  intro i
  rw [hmask, Nat.testBit_and, Nat.testBit_mul_two_pow, Nat.testBit_mul_two_pow,
    Nat.testBit_two_pow_sub_one, Nat.testBit_div_two_pow]
  by_cases hi : 8 ≤ i
  · have hback : i - 8 + 8 = i := by omega
    by_cases h16 : i < 16
    · have hmasked : i - 8 < 8 := by omega
      simp [hi, hmasked, hback]
    · have hlt : n < 2 ^ i := Nat.lt_of_lt_of_le h (Nat.pow_le_pow_right (by omega) (by omega))
      rw [hback, Nat.testBit_lt_two_pow hlt]
      simp
  · simp [hi]

/-! ## Words of any length -/

/-- The value of bytes in little-endian order. -/
def littleValue : List UInt8 → Nat
  | [] => 0
  | b :: bs => b.toNat + 256 * littleValue bs

/-- The `n` low bytes of `v` in little-endian order. -/
def littleBytes : Nat → Int → List UInt8
  | 0, _ => []
  | n + 1, v => UInt8.ofInt v :: littleBytes n (v / 256)

@[simp] theorem littleBytes_length (n : Nat) (v : Int) : (littleBytes n v).length = n := by
  induction n generalizing v with
  | zero => rfl
  | succ n ih => rw [littleBytes, List.length_cons, ih]

theorem toNat_ofInt (v : Int) : ((UInt8.ofInt v).toNat : Int) = v % 256 := by
  simp [UInt8.ofInt]
  omega

/-- **The bytes of a word have its value, modulo the width.** -/
theorem littleValue_littleBytes (n : Nat) (v : Int) :
    (littleValue (littleBytes n v) : Int) = v % 256 ^ n := by
  induction n generalizing v with
  | zero => simp [littleBytes, littleValue]
  | succ n ih =>
    have hstep : (littleValue (littleBytes (n + 1) v) : Int) =
        v % 256 + 256 * (v / 256 % 256 ^ n) := by
      rw [littleBytes, littleValue, Int.natCast_add, Int.natCast_mul, ih, toNat_ofInt]
      rfl
    rw [hstep, Int.pow_succ, Int.mul_comm (256 ^ n), Int.emod_def, Int.emod_def, Int.emod_def,
      ← Int.ediv_ediv_of_nonneg (by omega)]
    ring

/-- The last of the bytes is the highest. -/
theorem littleBytes_succ (n : Nat) (v : Int) :
    littleBytes (n + 1) v = littleBytes n v ++ [UInt8.ofInt (v / 256 ^ n)] := by
  induction n generalizing v with
  | zero => simp [littleBytes]
  | succ n ih =>
    have hlast : v / 256 / 256 ^ n = v / 256 ^ (n + 1) := by
      rw [Int.ediv_ediv_of_nonneg (by omega), Int.pow_succ, Int.mul_comm]
    rw [littleBytes, ih, hlast, littleBytes, List.cons_append]

theorem littleValue_lt (bs : List UInt8) : littleValue bs < 256 ^ bs.length := by
  induction bs with
  | nil => decide
  | cons b bs ih =>
    have hb := b.toNat_lt
    rw [littleValue, List.length_cons, Nat.pow_succ]
    omega

/-- Bytes of one length are told apart by their value. -/
theorem littleValue_inj {xs ys : List UInt8} (hlen : xs.length = ys.length)
    (h : littleValue xs = littleValue ys) : xs = ys := by
  induction xs generalizing ys with
  | nil => exact (List.length_eq_zero_iff.mp hlen.symm).symm
  | cons x xs ih =>
    cases ys with
    | nil => cases hlen
    | cons y ys =>
      have hx := x.toNat_lt
      have hy := y.toNat_lt
      rw [littleValue, littleValue] at h
      have hhead : x = y := UInt8.toNat_inj.mp (by omega)
      have htail : xs = ys := ih (Nat.succ.inj hlen) (by omega)
      rw [hhead, htail]

/-! ## Words of characters -/

/-- The value of characters in little-endian order, for either choice of the platform. -/
def charsValue (signedChar : Bool) : List UInt8 → Int
  | [] => 0
  | ch :: chs => charValue signedChar ch + 256 * charsValue signedChar chs

theorem charsValue_unsigned (bs : List UInt8) : charsValue false bs = littleValue bs := by
  induction bs with
  | nil => rfl
  | cons b bs ih =>
    rw [charsValue, ih, littleValue, Int.natCast_add, Int.natCast_mul]
    rfl

theorem charsValue_append (c : Bool) (xs ys : List UInt8) :
    charsValue c (xs ++ ys) = charsValue c xs + 256 ^ xs.length * charsValue c ys := by
  induction xs with
  | nil => simp [charsValue]
  | cons x xs ih =>
    rw [List.cons_append, charsValue, ih, charsValue, List.length_cons, Int.pow_succ]
    ring

/-- What a word loses when its characters are signed: each high bit, taken for a sign. -/
def signs : List UInt8 → Nat
  | [] => 0
  | b :: bs => 256 * ((if b < 0x80 then 0 else 1) + signs bs)

theorem charValue_signed (b : UInt8) :
    charValue true b = (b.toNat : Int) - 256 * (if b < 0x80 then 0 else 1) := by
  have hbmod : charValue true b = (b.toNat : Int).bmod 256 := by
    rw [charValue, if_pos rfl, Int8.toInt, BitVec.toInt_eq_toNat_bmod]
    rfl
  have hb := b.toNat_lt
  rw [hbmod, Int.bmod_def]
  by_cases hlow : b < 0x80
  · have hnat : b.toNat < 128 := hlow
    rw [if_pos hlow, if_pos (by omega)]
    omega
  · have hnat : 128 ≤ b.toNat := Nat.le_of_not_lt hlow
    rw [if_neg hlow, if_neg (by omega)]
    omega

theorem charsValue_signed (bs : List UInt8) :
    charsValue true bs = littleValue bs - signs bs := by
  induction bs with
  | nil => rfl
  | cons b bs ih =>
    rw [charsValue, ih, charValue_signed, littleValue, signs]
    split <;> push_cast <;> ring

theorem signs_append (xs ys : List UInt8) :
    signs (xs ++ ys) = signs xs + 256 ^ xs.length * signs ys := by
  induction xs with
  | nil => simp [signs]
  | cons x xs ih =>
    rw [List.cons_append, signs, ih, signs, List.length_cons, Nat.pow_succ]
    ring

theorem signs_le (bs : List UInt8) : signs bs + 256 ≤ 256 ^ (bs.length + 1) := by
  induction bs with
  | nil => decide
  | cons b bs ih =>
    rw [signs, List.length_cons, Nat.pow_succ]
    split <;> omega

theorem signs_eq_zero {bs : List UInt8} : signs bs = 0 ↔ ∀ b ∈ bs, b < 0x80 := by
  induction bs with
  | nil => simp [signs]
  | cons b bs ih =>
    rw [signs, List.forall_mem_cons, ← ih]
    by_cases hb : b < 0x80
    · simp [hb]
    · simp [hb]

/-- Signed characters give the same word as bytes exactly when no character below the highest
has its high bit set. -/
theorem charsValue_modEq_iff {n : Nat} {bs : List UInt8} (hlen : bs.length = n) :
    Int.ModEq (256 ^ n) (charsValue true bs) (littleValue bs) ↔ ∀ b ∈ bs.dropLast, b < 0x80 := by
  have hmod : Int.ModEq (256 ^ n) (charsValue true bs) (littleValue bs) ↔
      256 ^ n ∣ signs bs := by
    rw [charsValue_signed, Int.modEq_iff_dvd, sub_sub_cancel]
    exact_mod_cast Iff.rfl
  rw [hmod, ← signs_eq_zero]
  rcases List.eq_nil_or_concat bs with rfl | ⟨lower, top, rfl⟩
  · subst hlen
    simp [signs]
  · rw [List.concat_eq_append, List.dropLast_concat]
    rw [List.concat_eq_append, List.length_append, List.length_singleton] at hlen
    have htop : 256 ^ n ∣ 256 ^ lower.length * signs [top] := by
      rw [← hlen, Nat.pow_succ]
      exact Nat.mul_dvd_mul_left _ ⟨_, rfl⟩
    rw [signs_append, Nat.dvd_add_iff_left htop |>.symm]
    have hle := signs_le lower
    rw [hlen] at hle
    constructor
    · intro hdvd
      exact Nat.eq_zero_of_dvd_of_lt hdvd (by omega)
    · intro hzero
      rw [hzero]
      exact Nat.dvd_zero _

/-- Two bytes or-ed into a word, the lower one first. -/
theorem toNat_or_shiftLeft_eight (lo hi : UInt8) :
    (lo.toUInt16 ||| hi.toUInt16 <<< 8).toNat = lo.toNat + 256 * hi.toNat := by
  have hlo := lo.toNat_lt
  have hhi := hi.toNat_lt
  have h8 : UInt16.toNat 8 % 16 = 8 := rfl
  simp only [UInt16.toNat_or, UInt16.toNat_shiftLeft, Nat.shiftLeft_eq, UInt8.toNat_toUInt16, h8]
  rw [Nat.mod_eq_of_lt (by omega), Nat.or_comm, or_bytes_two hlo]
  omega

/-- Writing behind the bytes of a buffer that are in use makes one more of them so. -/
theorem take_succ_set {v : List UInt8} {i : Nat} (hi : i < v.length) (b : UInt8) :
    (v.set i b).take (i + 1) = v.take i ++ [b] := by
  rw [List.take_add_one, List.take_set_of_le (Nat.le_refl i), List.getElem?_set_self hi]
  rfl

/-! ## The sum of bytes modulo 256 -/

def byteSum (data : List UInt8) : UInt8 := UInt8.ofNat (data.map UInt8.toNat).sum

@[simp] theorem byteSum_nil : byteSum [] = 0 := rfl

@[simp] theorem byteSum_concat (data : List UInt8) (b : UInt8) :
    byteSum (data ++ [b]) = byteSum data + b := by
  have hsum : ((data ++ [b]).map UInt8.toNat).sum = (data.map UInt8.toNat).sum + b.toNat := by
    simp
  rw [byteSum, hsum, UInt8.ofNat_add, UInt8.ofNat_toNat]
  rfl

/-! ## The 8-bit Fletcher checksum -/

def fletcherStep (chk : UInt8 × UInt8) (b : UInt8) : UInt8 × UInt8 :=
  (chk.1 + b, chk.2 + (chk.1 + b))

def fletcher (data : List UInt8) : UInt8 × UInt8 := data.foldl fletcherStep (0, 0)

@[simp] theorem fletcher_concat (data : List UInt8) (b : UInt8) :
    fletcher (data ++ [b]) = fletcherStep (fletcher data) b := by
  rw [fletcher, List.foldl_append]
  rfl

end MuonDetector.Library.Bytes
