import MuonDetector.Library.Messages
import Mathlib.Data.Nat.Sqrt
import Mathlib.Tactic.Ring

/-!
# Calculating with floating point numbers

`Floating` lists the operations that code makes on a floating point type, so that the
code can be read over the binary formats and over exact numbers alike. The two binary
formats calculate on their bits: the exact result is rounded to the nearest number of
the format, and to the even one of two.
-/

namespace MuonDetector.Library.Floats

open MuonDetector.Library.Messages

/-- The operations on a floating point type. `lround` rounds halves away from zero, and
`trunc` cuts the fraction off. -/
class Floating (F : Type) extends Add F, Sub F, Mul F, Div F, LT F, LE F, BEq F,
    OfScientific F where
  decLt : DecidableLT F
  decLe : DecidableLE F
  ofInt : Int → F
  lround : F → Int
  trunc : F → Int

attribute [reducible, instance] Floating.decLt Floating.decLe

-- a type with operations of its own keeps them
attribute [instance (100)] Floating.toAdd Floating.toSub Floating.toMul Floating.toDiv
attribute [instance (100)] Floating.toLT Floating.toLE Floating.toBEq Floating.toOfScientific

class SquareRoot (F : Type) where
  sqrt : F → F

/-! ## Binary formats -/

/-- The widths of the fraction and of the exponent. -/
structure Format where
  fraction : Nat
  exponent : Nat

def binary32 : Format := ⟨23, 8⟩

def binary64 : Format := ⟨52, 11⟩

/-- What the bits stand for. A finite number is its significand times a power of two. -/
inductive Number where
  | nan
  | infinite (negative : Bool)
  | finite (negative : Bool) (significand : Nat) (exponent : Int)
  deriving DecidableEq, Repr

namespace Format

variable (f : Format)

/-- The exponent of the smallest positive number. -/
def minExponent : Int := 2 - 2 ^ (f.exponent - 1) - f.fraction

def infinity : Nat := (2 ^ f.exponent - 1) * 2 ^ f.fraction

def nan : Nat := f.infinity + 2 ^ (f.fraction - 1)

def signed (negative : Bool) (magnitude : Nat) : Nat :=
  if negative then 2 ^ (f.fraction + f.exponent) + magnitude else magnitude

def decode (bits : Nat) : Number :=
  let fraction := bits % 2 ^ f.fraction
  let exponent := bits / 2 ^ f.fraction % 2 ^ f.exponent
  let negative : Bool := bits / 2 ^ (f.fraction + f.exponent) % 2 = 1
  if exponent = 2 ^ f.exponent - 1 then
    if fraction = 0 then .infinite negative else .nan
  else if exponent = 0 then .finite negative fraction f.minExponent
  else .finite negative (2 ^ f.fraction + fraction) (f.minExponent + exponent - 1)

end Format

/-- The quotient rounded to the nearest number, and to the even one of two. -/
def divNearest (n d : Nat) : Nat :=
  let q := n / d
  if 2 * (n % d) < d then q else if d < 2 * (n % d) then q + 1 else q + q % 2

namespace Format

variable (f : Format)

/-- The bits of the nearest number to `n / d * 2 ^ e`. The unit in the last place is such
that the significand fits, and no smaller than that of the smallest numbers. -/
def nearest (n d : Nat) (e : Int) : Nat :=
  if n = 0 then 0
  else
    let numerator (u : Int) : Nat := n * 2 ^ (e - u).toNat
    let denominator (u : Int) : Nat := d * 2 ^ (u - e).toNat
    let low := max f.minExponent ((n.log2 : Int) - d.log2 + e - 1 - f.fraction)
    let unit := if 2 ^ (f.fraction + 1) ≤ numerator low / denominator low then low + 1 else low
    min f.infinity ((unit - f.minExponent).toNat * 2 ^ f.fraction +
      divNearest (numerator unit) (denominator unit))

def encode (negative : Bool) (n d : Nat) (e : Int) : Nat := f.signed negative (f.nearest n d e)

/-- The sum of two finite numbers, exact, at the smaller of their exponents. -/
def sum (negative₁ : Bool) (m₁ : Nat) (e₁ : Int) (negative₂ : Bool) (m₂ : Nat) (e₂ : Int) :
    Int × Int :=
  let e := min e₁ e₂
  let part (negative : Bool) (m : Nat) (e' : Int) : Int :=
    if negative then -(m * 2 ^ (e' - e).toNat) else m * 2 ^ (e' - e).toNat
  (part negative₁ m₁ e₁ + part negative₂ m₂ e₂, e)

end Format

namespace Number

def neg : Number → Number
  | .nan => .nan
  | .infinite negative => .infinite !negative
  | .finite negative m e => .finite (!negative) m e

def add (f : Format) : Number → Number → Nat
  | .nan, _ => f.nan
  | _, .nan => f.nan
  | .infinite s, .infinite t => if s = t then f.signed s f.infinity else f.nan
  | .infinite s, .finite _ _ _ => f.signed s f.infinity
  | .finite _ _ _, .infinite t => f.signed t f.infinity
  | .finite s m e, .finite t n e' =>
    let (total, unit) := Format.sum s m e t n e'
    if total = 0 then f.signed (s && t) 0 else f.encode (total < 0) total.natAbs 1 unit

def mul (f : Format) : Number → Number → Nat
  | .nan, _ => f.nan
  | _, .nan => f.nan
  | .infinite s, .infinite t => f.signed (s ^^ t) f.infinity
  | .infinite s, .finite t n _ => if n = 0 then f.nan else f.signed (s ^^ t) f.infinity
  | .finite s m _, .infinite t => if m = 0 then f.nan else f.signed (s ^^ t) f.infinity
  | .finite s m e, .finite t n e' => f.encode (s ^^ t) (m * n) 1 (e + e')

def div (f : Format) : Number → Number → Nat
  | .nan, _ => f.nan
  | _, .nan => f.nan
  | .infinite _, .infinite _ => f.nan
  | .infinite s, .finite t _ _ => f.signed (s ^^ t) f.infinity
  | .finite s _ _, .infinite t => f.signed (s ^^ t) 0
  | .finite s m e, .finite t n e' =>
    if n = 0 then if m = 0 then f.nan else f.signed (s ^^ t) f.infinity
    else f.encode (s ^^ t) m n (e - e')

/-- The root of the significand is taken with two more bits than the format has, and with
one more bit that tells whether anything was cut off. -/
def sqrt (f : Format) : Number → Nat
  | .nan => f.nan
  | .infinite negative => if negative then f.nan else f.infinity
  | .finite negative m e =>
    if m = 0 then f.signed negative 0
    else if negative then f.nan
    else
      let odd := e % 2
      let square := m * 2 ^ odd.toNat * 4 ^ (f.fraction + 2)
      let root := square.sqrt
      f.encode false (2 * root + if root * root = square then 0 else 1) 1
        ((e - odd) / 2 - (f.fraction + 2) - 1)

/-- The sign of the difference, and none for a NaN. -/
def compare : Number → Number → Option Ordering
  | .nan, _ => none
  | _, .nan => none
  | .infinite s, .infinite t => some (Ord.compare t.toNat s.toNat)
  | .infinite s, .finite _ _ _ => some (if s then .lt else .gt)
  | .finite _ _ _, .infinite t => some (if t then .gt else .lt)
  | .finite s m e, .finite t n e' => some (Ord.compare (Format.sum s m e (!t) n e').1 0)

/-- Without its fraction, and rounded. What the standard leaves open is 0. -/
def trunc : Number → Int
  | .nan => 0
  | .infinite _ => 0
  | .finite negative m e =>
    let magnitude : Int := m * 2 ^ e.toNat / 2 ^ (-e).toNat
    if negative then -magnitude else magnitude

def lround : Number → Int
  | .nan => 0
  | .infinite _ => 0
  | .finite negative m e =>
    let magnitude : Int := (2 * m * 2 ^ e.toNat + 2 ^ (-e).toNat) / (2 * 2 ^ (-e).toNat)
    if negative then -magnitude else magnitude

end Number

namespace Format

variable (f : Format)

def ofInt (i : Int) : Nat := if i = 0 then 0 else f.encode (i < 0) i.natAbs 1 0

/-- The number that a decimal literal is read as. -/
def ofScientific (m : Nat) (negativeExponent : Bool) (e : Nat) : Nat :=
  if negativeExponent then f.nearest m (10 ^ e) 0 else f.nearest (m * 10 ^ e) 1 0

end Format

/-! ## `float` and `double` -/

def number32 (x : Binary32) : Number := binary32.decode x.bits.toNat

def number64 (x : Binary64) : Number := binary64.decode x.bits.toNat

def ofBits32 (bits : Nat) : Binary32 := ⟨UInt32.ofNat bits⟩

def ofBits64 (bits : Nat) : Binary64 := ⟨UInt64.ofNat bits⟩

instance floatingBinary32 : Floating Binary32 where
  add x y := ofBits32 ((number32 x).add binary32 (number32 y))
  sub x y := ofBits32 ((number32 x).add binary32 (number32 y).neg)
  mul x y := ofBits32 ((number32 x).mul binary32 (number32 y))
  div x y := ofBits32 ((number32 x).div binary32 (number32 y))
  lt x y := (number32 x).compare (number32 y) = some .lt
  le x y := (number32 x).compare (number32 y) = some .lt ∨
    (number32 x).compare (number32 y) = some .eq
  beq x y := (number32 x).compare (number32 y) = some .eq
  ofScientific m s e := ofBits32 (binary32.ofScientific m s e)
  decLt _ _ := inferInstanceAs (Decidable (_ = _))
  decLe _ _ := inferInstanceAs (Decidable (_ ∨ _))
  ofInt i := ofBits32 (binary32.ofInt i)
  lround x := (number32 x).lround
  trunc x := (number32 x).trunc

instance floatingBinary64 : Floating Binary64 where
  add x y := ofBits64 ((number64 x).add binary64 (number64 y))
  sub x y := ofBits64 ((number64 x).add binary64 (number64 y).neg)
  mul x y := ofBits64 ((number64 x).mul binary64 (number64 y))
  div x y := ofBits64 ((number64 x).div binary64 (number64 y))
  lt x y := (number64 x).compare (number64 y) = some .lt
  le x y := (number64 x).compare (number64 y) = some .lt ∨
    (number64 x).compare (number64 y) = some .eq
  beq x y := (number64 x).compare (number64 y) = some .eq
  ofScientific m s e := ofBits64 (binary64.ofScientific m s e)
  decLt _ _ := inferInstanceAs (Decidable (_ = _))
  decLe _ _ := inferInstanceAs (Decidable (_ ∨ _))
  ofInt i := ofBits64 (binary64.ofInt i)
  lround x := (number64 x).lround
  trunc x := (number64 x).trunc

instance squareRootBinary64 : SquareRoot Binary64 where
  sqrt x := ofBits64 ((number64 x).sqrt binary64)

/-! ## Conversions to integers -/

/-- What a conversion gives for a number outside of the integer type, which the language
leaves open. -/
structure Overflows where
  int32 : Binary64 → Int32
  uint32 : Binary64 → UInt32

def Number.whole? : Number → Option Int
  | .nan => none
  | .infinite _ => none
  | .finite negative m e => some (Number.finite negative m e).trunc

/-- `static_cast<std::int32_t>` -/
def toInt32 (overflows : Overflows) (x : Binary64) : Int32 :=
  match (number64 x).whole? with
  | some i => if -2 ^ 31 ≤ i ∧ i < 2 ^ 31 then Int32.ofInt i else overflows.int32 x
  | none => overflows.int32 x

/-- `static_cast<std::uint32_t>` -/
def toUInt32 (overflows : Overflows) (x : Binary64) : UInt32 :=
  match (number64 x).whole? with
  | some i => if 0 ≤ i ∧ i < 2 ^ 32 then UInt32.ofInt i else overflows.uint32 x
  | none => overflows.uint32 x

end MuonDetector.Library.Floats
