import MuonDetector.Library.Reader
import MuonDetector.Library.Bytes
import MuonDetector.Library.Fields
import Mathlib.Data.Int.ModEq

/-!
# Reading and writing integers in a byte buffer

The templates `get` and `put`. Their type parameter is an integral C++ type: a size
in bytes with a value of every element and the conversion from the integers, which
is taken modulo the width. Arithmetic before the last conversion is at least as wide,
so it is integer arithmetic here.
-/

namespace MuonDetector.Utility.HelperFunctions

open MuonDetector.Library MuonDetector.Library.Bytes MuonDetector.Library.Fields

inductive Endian where
  | big
  | little
  deriving DecidableEq, Repr

/-- An integral type. -/
class Integral (T : Type) where
  size : Nat
  toInt : T → Int
  ofInt : Int → T
  ofInt_toInt : ∀ x, ofInt (toInt x) = x
  toInt_ofInt : ∀ i, toInt (ofInt i) % 256 ^ size = i % 256 ^ size
  ofInt_congr : ∀ i j, i % 256 ^ size = j % 256 ^ size → ofInt i = ofInt j

theorem bmod_congr {i j : Int} {n : Nat} (h : i % n = j % n) : i.bmod n = j.bmod n := by
  rw [← Int.emod_bmod, h, Int.emod_bmod]

instance : Integral UInt8 where
  size := 1
  toInt x := x.toNat
  ofInt := UInt8.ofInt
  ofInt_toInt x := by
    apply UInt8.toNat_inj.mp
    have h := x.toNat_lt
    simp [UInt8.ofInt]
    omega
  toInt_ofInt i := by
    simp [UInt8.ofInt]
    omega
  ofInt_congr i j h := by
    simp only [UInt8.ofInt]
    congr 2

instance : Integral UInt16 where
  size := 2
  toInt x := x.toNat
  ofInt := UInt16.ofInt
  ofInt_toInt x := by
    apply UInt16.toNat_inj.mp
    have h := x.toNat_lt
    simp [UInt16.ofInt]
    omega
  toInt_ofInt i := by
    simp [UInt16.ofInt]
    omega
  ofInt_congr i j h := by
    simp only [UInt16.ofInt]
    congr 2

instance : Integral UInt32 where
  size := 4
  toInt x := x.toNat
  ofInt := UInt32.ofInt
  ofInt_toInt x := by
    apply UInt32.toNat_inj.mp
    have h := x.toNat_lt
    simp [UInt32.ofInt]
    omega
  toInt_ofInt i := by
    simp [UInt32.ofInt]
    omega
  ofInt_congr i j h := by
    simp only [UInt32.ofInt]
    congr 2

instance : Integral Int8 where
  size := 1
  toInt := Int8.toInt
  ofInt := Int8.ofInt
  ofInt_toInt := Int8.ofInt_toInt
  toInt_ofInt i := by
    rw [Int8.toInt_ofInt]
    exact Int.bmod_emod
  ofInt_congr i j h := by
    apply Int8.toInt_inj.mp
    rw [Int8.toInt_ofInt, Int8.toInt_ofInt]
    exact bmod_congr h

instance : Integral Int16 where
  size := 2
  toInt := Int16.toInt
  ofInt := Int16.ofInt
  ofInt_toInt := Int16.ofInt_toInt
  toInt_ofInt i := by
    rw [Int16.toInt_ofInt]
    exact Int.bmod_emod
  ofInt_congr i j h := by
    apply Int16.toInt_inj.mp
    rw [Int16.toInt_ofInt, Int16.toInt_ofInt]
    exact bmod_congr h

instance : Integral Int32 where
  size := 4
  toInt := Int32.toInt
  ofInt := Int32.ofInt
  ofInt_toInt := Int32.ofInt_toInt
  toInt_ofInt i := by
    rw [Int32.toInt_ofInt]
    exact Int.bmod_emod
  ofInt_congr i j h := by
    apply Int32.toInt_inj.mp
    rw [Int32.toInt_ofInt, Int32.toInt_ofInt]
    exact bmod_congr h

@[simp] theorem size_uint8 : Integral.size UInt8 = 1 := rfl
@[simp] theorem size_uint16 : Integral.size UInt16 = 2 := rfl
@[simp] theorem size_uint32 : Integral.size UInt32 = 4 := rfl
@[simp] theorem size_int8 : Integral.size Int8 = 1 := rfl
@[simp] theorem size_int16 : Integral.size Int16 = 2 := rfl
@[simp] theorem size_int32 : Integral.size Int32 = 4 := rfl

/-- The conversion from one integral type to another. -/
def convert (U : Type) {T : Type} [Integral T] [Integral U] (x : T) : U :=
  Integral.ofInt (Integral.toInt x)

/-- `static_cast<T>(ch)` of a plain `char`. -/
def castChar (T : Type) [Integral T] (signedChar : Bool) (ch : UInt8) : T :=
  Integral.ofInt (charValue signedChar ch)

/-- The loop of `get` over the bytes of a value. -/
def accumulate (T : Type) [Integral T] (e : Endian) (signedChar : Bool) :
    Nat → T → List UInt8 → T
  | _, value, [] => value
  | shift, value, b :: bs =>
    let term := Integral.toInt (castChar T signedChar b) * 2 ^ shift
    let shift := match e with
      | .little => shift + 8
      | .big => shift - 8
    accumulate T e signedChar shift (Integral.ofInt (Integral.toInt value + term)) bs

def startShift (T : Type) [Integral T] : Endian → Nat
  | .little => 0
  | .big => (Integral.size T - 1) * 8

def getFrom (T : Type) [Integral T] (e : Endian) (signedChar : Bool) (bytes : List UInt8) : T :=
  accumulate T e signedChar (startShift T e) (Integral.ofInt 0) bytes

/-- `get<T, e>(msg.begin() + off)`. -/
def getEndian (T : Type) [Integral T] (e : Endian) (signedChar : Bool) (off : Nat) :
    Reader UInt8 T := do
  let bytes ← Reader.slice off (Integral.size T)
  pure (getFrom T e signedChar bytes)

/-- `get<T>(msg.begin() + off)`. -/
def get (T : Type) [Integral T] (signedChar : Bool) (off : Nat) : Reader UInt8 T :=
  getEndian T .little signedChar off

/-- The loop of `put`. -/
def putBytes (e : Endian) (value : Int) : Nat → Nat → List UInt8
  | _, 0 => []
  | shift, n + 1 =>
    let rest := match e with
      | .little => shift + 8
      | .big => shift - 8
    UInt8.ofInt (value >>> shift % 256) :: putBytes e value rest n

/-- The bytes that `put<T, e>` writes. -/
def put {T : Type} [Integral T] (e : Endian) (value : T) : List UInt8 :=
  putBytes e (Integral.toInt value) (startShift T e) (Integral.size T)

/-- `put<T, e>(buf.begin() + off, value)`. -/
def putAt {T : Type} [Integral T] (e : Endian) (off : Nat) (value : T) (buf : List UInt8) :
    List UInt8 :=
  overwrite buf off (put e value)

/-! ## Where `get` reads -/

theorem inRange_getEndian {T : Type} [Integral T] {e : Endian} {signedChar : Bool} {off : Nat}
    {buf : List UInt8} (h : off + Integral.size T ≤ buf.length) :
    Reader.InRange buf (getEndian T e signedChar off) :=
  (Reader.InRange.slice h).bind fun _ => Reader.InRange.pure buf _

theorem gives_getEndian {T : Type} [Integral T] (e : Endian) (signedChar : Bool) {off : Nat}
    {buf : List UInt8} (h : off + Integral.size T ≤ buf.length) :
    Reader.Gives buf (getEndian T e signedChar off)
      (getFrom T e signedChar (bytesAt buf off (Integral.size T))) :=
  (Reader.Gives.slice h).bind (Reader.Gives.pure buf _)

/-! ## Single bytes -/

/-- A byte is a `char` of itself, for either sign of `char`. -/
theorem castChar_byte (c : Bool) (b : UInt8) : castChar UInt8 c b = b := by
  cases c with
  | false => exact Integral.ofInt_toInt b
  | true =>
    have hvalue : b.toInt8.toInt = (b.toNat : Int).bmod 256 := by
      rw [Int8.toInt, BitVec.toInt_eq_toNat_bmod]
      rfl
    have hmod : b.toInt8.toInt % 256 ^ Integral.size UInt8 =
        Integral.toInt b % 256 ^ Integral.size UInt8 := by
      rw [hvalue]
      exact Int.bmod_emod
    exact (Integral.ofInt_congr (T := UInt8) _ _ hmod).trans (Integral.ofInt_toInt b)

theorem getFrom_byte (c : Bool) (b : UInt8) : getFrom UInt8 .little c [b] = b := by
  show (Integral.ofInt (Integral.toInt (Integral.ofInt 0 : UInt8) +
    Integral.toInt (castChar UInt8 c b) * 2 ^ 0) : UInt8) = b
  have hzero : Integral.toInt (Integral.ofInt 0 : UInt8) = 0 := rfl
  rw [castChar_byte, hzero, Int.zero_add, Int.pow_zero, Int.mul_one]
  exact Integral.ofInt_toInt b

/-! ## The value that is read -/

variable {T : Type} [Integral T]

/-- The value so far and one more term, both taken modulo the width. -/
theorem toInt_add_term (c : Bool) (value : T) (b : UInt8) (shift : Nat) :
    Int.ModEq (256 ^ Integral.size T)
      (Integral.toInt (Integral.ofInt (Integral.toInt value +
        Integral.toInt (castChar T c b) * 2 ^ shift) : T))
      (Integral.toInt value + charValue c b * 2 ^ shift) := by
  have hb : Int.ModEq (256 ^ Integral.size T) (Integral.toInt (castChar T c b))
      (charValue c b) := Integral.toInt_ofInt (T := T) _
  exact Int.ModEq.trans (Integral.toInt_ofInt (T := T) _)
    ((Int.ModEq.refl _).add (hb.mul_right _))

theorem accumulate_little_chars (c : Bool) (bytes : List UInt8) (shift : Nat) (value : T) :
    Int.ModEq (256 ^ Integral.size T)
      (Integral.toInt (accumulate T .little c shift value bytes))
      (Integral.toInt value + charsValue c bytes * 2 ^ shift) := by
  induction bytes generalizing shift value with
  | nil => simp [accumulate, charsValue, Int.ModEq]
  | cons b bs ih =>
    have hval : Integral.toInt value + charsValue c (b :: bs) * 2 ^ shift =
        (Integral.toInt value + charValue c b * 2 ^ shift) + charsValue c bs * 2 ^ (shift + 8) := by
      rw [charsValue]
      ring
    rw [hval]
    exact (ih (shift + 8) _).trans ((toInt_add_term c value b shift).add_right _)

theorem accumulate_big_chars (c : Bool) (bytes : List UInt8) (value : T) :
    Int.ModEq (256 ^ Integral.size T)
      (Integral.toInt (accumulate T .big c ((bytes.length - 1) * 8) value bytes))
      (Integral.toInt value + charsValue c bytes.reverse) := by
  induction bytes generalizing value with
  | nil => simp [accumulate, charsValue, Int.ModEq]
  | cons b bs ih =>
    have hshift : ((b :: bs).length - 1) * 8 = bs.length * 8 := by simp
    have hnext : bs.length * 8 - 8 = (bs.length - 1) * 8 := by omega
    have hpow : (2 : Int) ^ (bs.length * 8) = 256 ^ bs.length := by
      rw [Nat.mul_comm, Int.pow_mul]
      rfl
    have hval : Integral.toInt value + charsValue c (b :: bs).reverse =
        (Integral.toInt value + charValue c b * 2 ^ (bs.length * 8)) +
          charsValue c bs.reverse := by
      rw [List.reverse_cons, charsValue_append, List.length_reverse, hpow]
      simp only [charsValue]
      ring
    rw [hshift, hval, accumulate, hnext]
    exact (ih _).trans ((toInt_add_term c value b _).add_right _)

/-! ## Round trips, for an unsigned `char` -/

theorem accumulate_little (bytes : List UInt8) (shift : Nat) (value : T) :
    Int.ModEq (256 ^ Integral.size T)
      (Integral.toInt (accumulate T .little false shift value bytes))
      (Integral.toInt value + littleValue bytes * 2 ^ shift) := by
  rw [← charsValue_unsigned]
  exact accumulate_little_chars false bytes shift value

theorem accumulate_big (bytes : List UInt8) (value : T) :
    Int.ModEq (256 ^ Integral.size T)
      (Integral.toInt (accumulate T .big false ((bytes.length - 1) * 8) value bytes))
      (Integral.toInt value + littleValue bytes.reverse) := by
  rw [← charsValue_unsigned]
  exact accumulate_big_chars false bytes value

theorem eq_of_toInt_modEq {x y : T}
    (h : Int.ModEq (256 ^ Integral.size T) (Integral.toInt x) (Integral.toInt y)) : x = y := by
  rw [← Integral.ofInt_toInt x, ← Integral.ofInt_toInt y]
  exact Integral.ofInt_congr _ _ h

theorem byte_of_shift (value : Int) (shift : Nat) :
    UInt8.ofInt (value >>> shift % 256) = UInt8.ofInt (value / 2 ^ shift) := by
  rw [Int.shiftRight_eq_div_pow]
  simp [UInt8.ofInt]

theorem putBytes_little (value : Int) (shift n : Nat) :
    putBytes .little value shift n = littleBytes n (value / 2 ^ shift) := by
  induction n generalizing shift with
  | zero => rfl
  | succ n ih =>
    have hnext : value / 2 ^ (shift + 8) = value / 2 ^ shift / 256 := by
      rw [Int.ediv_ediv_of_nonneg (Int.pow_nonneg (by omega)), Int.pow_add]
      rfl
    rw [putBytes, ih, hnext, byte_of_shift, littleBytes]

theorem putBytes_big (value : Int) (n : Nat) :
    putBytes .big value ((n - 1) * 8) n = (littleBytes n value).reverse := by
  induction n with
  | zero => rfl
  | succ n ih =>
    have hshift : (n + 1 - 1) * 8 = n * 8 := by omega
    have hnext : n * 8 - 8 = (n - 1) * 8 := by omega
    have hpow : (2 : Int) ^ (n * 8) = 256 ^ n := by
      rw [Nat.mul_comm, Int.pow_mul]
      rfl
    rw [hshift, putBytes, hnext, ih, byte_of_shift, hpow, littleBytes_succ, List.reverse_append]
    rfl

/-- What is read back from the bytes of a value, maybe of another type of its size. -/
theorem getFrom_put_modEq {U : Type} [Integral U] (e : Endian) (y : U)
    (hsize : Integral.size U = Integral.size T) :
    Int.ModEq (256 ^ Integral.size T) (Integral.toInt (getFrom T e false (put e y)))
      (Integral.toInt y) := by
  have hzero : Int.ModEq (256 ^ Integral.size T) (Integral.toInt (Integral.ofInt 0 : T)) 0 :=
    Integral.toInt_ofInt (T := T) 0
  have hbytes : Int.ModEq (256 ^ Integral.size T)
      (littleValue (littleBytes (Integral.size T) (Integral.toInt y))) (Integral.toInt y) := by
    rw [littleValue_littleBytes]
    exact Int.mod_modEq _ _
  cases e with
  | little =>
    rw [getFrom, put, startShift, startShift, putBytes_little, hsize]
    refine (accumulate_little _ 0 _).trans ?_
    simpa using hzero.add hbytes
  | big =>
    rw [getFrom, put, startShift, startShift, putBytes_big, hsize]
    have hlen : (littleBytes (Integral.size T) (Integral.toInt y)).reverse.length =
        Integral.size T := by simp
    have hread := accumulate_big (littleBytes (Integral.size T) (Integral.toInt y)).reverse
      (Integral.ofInt 0 : T)
    rw [hlen, List.reverse_reverse] at hread
    refine hread.trans ?_
    simpa using hzero.add hbytes

/-- **`get` after `put` is the value**, in both byte orders. -/
theorem getFrom_put (e : Endian) (value : T) : getFrom T e false (put e value) = value :=
  eq_of_toInt_modEq (getFrom_put_modEq e value rfl)

/-- A value written as one of another type of its size is read back as itself. -/
theorem getFrom_put_convert {U : Type} [Integral U] (e : Endian) (value : T)
    (hsize : Integral.size U = Integral.size T) :
    getFrom T e false (put e (convert U value)) = value := by
  apply eq_of_toInt_modEq
  have hconvert : Int.ModEq (256 ^ Integral.size T) (Integral.toInt (convert U value))
      (Integral.toInt value) := by
    rw [← hsize]
    exact Integral.toInt_ofInt (T := U) _
  exact (getFrom_put_modEq e (convert U value) hsize).trans hconvert

@[simp] theorem put_length (e : Endian) (value : T) : (put e value).length = Integral.size T := by
  cases e with
  | little => rw [put, startShift, putBytes_little, littleBytes_length]
  | big => rw [put, startShift, putBytes_big, List.length_reverse, littleBytes_length]

/-! ## Fields written and read -/

section PutAt

variable {T : Type} [Integral T] {e : Endian} {off : Nat} {value : T} {buf : List UInt8}

@[simp] theorem putAt_length : (putAt e off value buf).length =
    min off buf.length + Integral.size T + (buf.length - (off + Integral.size T)) := by
  simp [putAt, overwrite, Nat.add_assoc]

theorem bytesAt_putAt {n : Nat} (hoff : off ≤ buf.length) (hn : n = Integral.size T) :
    bytesAt (putAt e off value buf) off n = put e value := by
  have hsame := bytesAt_overwrite (put e value) hoff
  rwa [put_length, ← hn] at hsame

theorem bytesAt_putAt_of_disjoint {off' n : Nat} (hoff : off ≤ buf.length)
    (h : off' + n ≤ off ∨ off + Integral.size T ≤ off') :
    bytesAt (putAt e off value buf) off' n = bytesAt buf off' n := by
  rcases h with h | h
  · exact bytesAt_overwrite_before hoff h
  · exact bytesAt_overwrite_after hoff (by rwa [put_length])

end PutAt

section Gives

variable {T : Type} [Integral T] {e : Endian} {off : Nat} {value : T} {buf : List UInt8}

/-- A field with the bytes of a value. -/
theorem gives_of_put (h : bytesAt buf off (Integral.size T) = put e value)
    (hoff : off + Integral.size T ≤ buf.length) : Reader.Gives buf (getEndian T e false off) value := by
  have hread := gives_getEndian e false hoff
  rwa [h, getFrom_put] at hread

/-- A field with the bytes of a value converted to another type of its size. -/
theorem gives_of_put_convert {U : Type} [Integral U]
    (h : bytesAt buf off (Integral.size T) = put e (convert U value))
    (hsize : Integral.size U = Integral.size T) (hoff : off + Integral.size T ≤ buf.length) :
    Reader.Gives buf (getEndian T e false off) value := by
  have hread := gives_getEndian e false hoff
  rwa [h, getFrom_put_convert e value hsize] at hread

end Gives

/-! ## Bytes written by hand -/

theorem byte_of_nat_shift (n shift : Nat) :
    UInt8.ofInt ((n : Int) >>> shift % 256) = UInt8.ofNat (n >>> shift) := by
  have hshift : (n : Int) >>> shift = ((n >>> shift : Nat) : Int) := rfl
  rw [hshift]
  apply UInt8.toNat_inj.mp
  simp [UInt8.ofInt]
  omega

theorem put_uint8 (e : Endian) (b : UInt8) : put e b = [b] := by
  cases e <;> exact congrArg (fun x => [x]) ((byte_of_nat_shift b.toNat 0).trans (by simp))

theorem put_big_uint16 (x : UInt16) :
    put .big x = [(x >>> 8 &&& 0xff).toUInt8, (x &&& 0xff).toUInt8] := by
  have hbytes : put .big x = [UInt8.ofNat (x.toNat >>> 8), UInt8.ofNat (x.toNat >>> 0)] := by
    rw [← byte_of_nat_shift, ← byte_of_nat_shift]
    rfl
  rw [hbytes]
  simp [← UInt8.toNat_inj, Nat.shiftRight_eq_div_pow, and_byte]

theorem put_little_uint32 (x : UInt32) :
    put .little x = [(x &&& 0xff).toUInt8, (x >>> 8 &&& 0xff).toUInt8,
      (x >>> 16 &&& 0xff).toUInt8, (x >>> 24 &&& 0xff).toUInt8] := by
  have hbytes : put .little x = [UInt8.ofNat (x.toNat >>> 0), UInt8.ofNat (x.toNat >>> 8),
      UInt8.ofNat (x.toNat >>> 16), UInt8.ofNat (x.toNat >>> 24)] := by
    simp only [← byte_of_nat_shift]
    rfl
  rw [hbytes]
  simp [← UInt8.toNat_inj, Nat.shiftRight_eq_div_pow, and_byte]

end MuonDetector.Utility.HelperFunctions
