import MuonDetector.Utility.HelperFunctions

/-!
# Integers in arrays and in strings

`get` is used on arrays of bytes and on strings, whose characters are signed on some
platforms. An element is converted to the type of the integer before it is shifted, so
that a signed character with its high bit set brings its sign along. That does no harm in
the highest byte alone.
-/

namespace MuonDetector.Utility.PlainChar

open MuonDetector.Library.Bytes MuonDetector.Utility.HelperFunctions

/-- What an iterator runs over. -/
inductive Elements where
  | uint8Array
  | string
  deriving DecidableEq, Repr

/-- The elements are signed, on a platform whose plain `char` is signed or not. -/
def Elements.signed (charSigned : Bool) : Elements → Bool
  | .uint8Array => false
  | .string => charSigned

/-- The bytes from the lowest one on. -/
def fromLowest : Endian → List UInt8 → List UInt8
  | .little, bytes => bytes
  | .big, bytes => bytes.reverse

/-- The positional value of the bytes, modulo the width of the type. -/
def positional (T : Type) [Integral T] (e : Endian) (bytes : List UInt8) : T :=
  Integral.ofInt (littleValue (fromLowest e bytes))

/-- No byte below the highest one has its high bit set. -/
def LowBytes (e : Endian) (bytes : List UInt8) : Prop :=
  ∀ b ∈ (fromLowest e bytes).dropLast, b < 0x80

instance lowBytesDecidable (e : Endian) (bytes : List UInt8) : Decidable (LowBytes e bytes) :=
  inferInstanceAs (Decidable (∀ b ∈ _, b < 0x80))

variable {T : Type} [Integral T]

theorem getFrom_modEq (e : Endian) (c : Bool) {bytes : List UInt8}
    (hlen : bytes.length = Integral.size T) :
    Int.ModEq (256 ^ Integral.size T) (Integral.toInt (getFrom T e c bytes))
      (charsValue c (fromLowest e bytes)) := by
  have hzero : Int.ModEq (256 ^ Integral.size T) (Integral.toInt (Integral.ofInt 0 : T)) 0 :=
    Integral.toInt_ofInt (T := T) 0
  cases e with
  | little =>
    have hread := accumulate_little_chars c bytes 0 (Integral.ofInt 0 : T)
    have hsum := hzero.add_right (charsValue c bytes)
    rw [Int.pow_zero, Int.mul_one] at hread
    rw [Int.zero_add] at hsum
    exact hread.trans hsum
  | big =>
    have hread := accumulate_big_chars c bytes (Integral.ofInt 0 : T)
    have hsum := hzero.add_right (charsValue c bytes.reverse)
    rw [hlen] at hread
    rw [Int.zero_add] at hsum
    exact hread.trans hsum

theorem toInt_positional (e : Endian) (bytes : List UInt8) :
    Int.ModEq (256 ^ Integral.size T) (Integral.toInt (positional T e bytes))
      (littleValue (fromLowest e bytes)) := Integral.toInt_ofInt (T := T) _

theorem fromLowest_length (e : Endian) (bytes : List UInt8) :
    (fromLowest e bytes).length = bytes.length := by
  cases e with
  | little => rfl
  | big => exact List.length_reverse

theorem getFrom_eq_positional_iff (e : Endian) (c : Bool) {bytes : List UInt8}
    (hlen : bytes.length = Integral.size T) :
    getFrom T e c bytes = positional T e bytes ↔ (c = true → LowBytes e bytes) := by
  have hread := getFrom_modEq (T := T) e c hlen
  have hvalue := toInt_positional (T := T) e bytes
  have hsame : getFrom T e c bytes = positional T e bytes ↔
      Int.ModEq (256 ^ Integral.size T) (charsValue c (fromLowest e bytes))
        (littleValue (fromLowest e bytes)) := by
    constructor
    · intro heq
      rw [heq] at hread
      exact hread.symm.trans hvalue
    · intro hmod
      exact eq_of_toInt_modEq ((hread.trans hmod).trans hvalue.symm)
  rw [hsame]
  cases c with
  | false =>
    rw [charsValue_unsigned]
    exact iff_of_true (Int.ModEq.refl _) (fun h => nomatch h)
  | true =>
    rw [charsValue_modEq_iff ((fromLowest_length e bytes).trans hlen), LowBytes,
      forall_prop_of_true rfl]

/-- The bytes that `put` writes have the value. -/
theorem positional_put (e : Endian) (value : T) : positional T e (put e value) = value := by
  have hunsigned := (getFrom_eq_positional_iff e false (put_length e value)).mpr (nomatch ·)
  rw [← hunsigned, getFrom_put]

/-- **The integer codec.** Bytes are read as their positional value, and a value that was
written as itself, exactly when no byte below the highest has its high bit set or the elements
are not signed. -/
theorem integer_codec_iff (T : Type) [Integral T] (e : Endian) (elements : Elements)
    (charSigned : Bool) :
    (∀ bytes : List UInt8, bytes.length = Integral.size T →
      (getFrom T e (elements.signed charSigned) bytes = positional T e bytes ↔
        (elements = .string → charSigned = true → LowBytes e bytes))) ∧
    (∀ value : T, getFrom T e (elements.signed charSigned) (put e value) = value ↔
      (elements = .string → charSigned = true → LowBytes e (put e value))) := by
  have hsigned : ∀ p : Prop, (elements.signed charSigned = true → p) ↔
      (elements = .string → charSigned = true → p) := by
    intro p
    cases elements <;> simp [Elements.signed]
  constructor
  · intro bytes hlen
    rw [getFrom_eq_positional_iff e _ hlen, hsigned]
  · intro value
    have hiff := getFrom_eq_positional_iff e (elements.signed charSigned) (put_length e value)
    rw [positional_put, hsigned] at hiff
    exact hiff

/-- A number of four bytes in a string, with its high bit set, where `char` is signed. -/
theorem integer_codec_string :
    getFrom Int32 .little true [0x01, 0x02, 0x03, 0xff] =
      positional Int32 .little [0x01, 0x02, 0x03, 0xff] :=
  ((integer_codec_iff Int32 .little .string true).1 [0x01, 0x02, 0x03, 0xff] rfl).mpr
    fun _ _ => by decide +kernel

/-- The bytes `80 00` in a string are 128 where `char` is unsigned and 65408 where it is
signed. -/
theorem codec_depends_on_char :
    getFrom UInt16 .little (Elements.string.signed false) [0x80, 0x00] = 0x0080 ∧
      getFrom UInt16 .little (Elements.string.signed true) [0x80, 0x00] = 0xff80 ∧
      getFrom UInt16 .little (Elements.string.signed true) (put .little (0x0080 : UInt16)) ≠
        0x0080 := by
  decide

end MuonDetector.Utility.PlainChar
