import Mathlib.Data.List.DropRight
import MuonDetector.Library.Texts

/-!
# Numbers in texts

`std::stoi` and `std::stoul` to base ten: white space, a sign, and digits, up to the first
character that is none. What is behind it is not looked at.
-/

namespace MuonDetector.Library.Conversions

/-- The exceptions of a conversion. -/
inductive Failure
  | invalidArgument
  | outOfRange
  deriving DecidableEq, Repr

def isNegative (text : List Char) : Bool := text.head? = some '-'

def unsigned (text : List Char) : List Char :=
  if text.head? = some '-' ∨ text.head? = some '+' then text.tail else text

/-- The number at the front of the text, of any size, and what is behind it. -/
def readInteger (text : List Char) : Option (Int × List Char) :=
  let text := text.dropWhile Texts.isBlank
  let digits := (unsigned text).takeWhile Char.isDigit
  let magnitude : Int := Nat.ofDigitChars 10 digits 0
  if digits = [] then none
  else some (if isNegative text then -magnitude else magnitude,
    (unsigned text).dropWhile Char.isDigit)

def stoi (text : List Char) : Except Failure Int :=
  match readInteger text with
  | none => .error .invalidArgument
  | some (n, _) => if -2147483648 ≤ n ∧ n ≤ 2147483647 then .ok n else .error .outOfRange

/-- For an `unsigned long` of `w` bits. A number with a minus is taken modulo `2 ^ w`. -/
def stoul (w : Nat) (text : List Char) : Except Failure (BitVec w) :=
  match readInteger text with
  | none => .error .invalidArgument
  | some (n, _) => if n.natAbs < 2 ^ w then .ok (BitVec.ofInt w n) else .error .outOfRange

theorem readInteger_dropWhile (text : List Char) :
    readInteger (text.dropWhile Texts.isBlank) = readInteger text := by
  rw [readInteger, readInteger, List.dropWhile_idempotent]

theorem unsigned_suffix (text : List Char) : unsigned text <:+ text := by
  rw [unsigned]
  split
  · exact List.tail_suffix text
  · exact List.suffix_refl text

/-- What is read begins with white space and a sign, and has a digit. -/
theorem readInteger_eq_some {text rest : List Char} {n : Int}
    (h : readInteger text = some (n, rest)) :
    ∃ c ∈ text, c.isDigit = true ∧ rest <:+ text ∧ rest.length < text.length := by
  simp only [readInteger] at h
  split at h
  · cases h
  · next hdigits =>
    obtain ⟨-, rfl⟩ := Prod.mk.inj (Option.some.inj h)
    have htail := (unsigned_suffix (text.dropWhile Texts.isBlank)).trans
      (List.dropWhile_suffix Texts.isBlank)
    obtain ⟨c, hc⟩ := List.exists_mem_of_ne_nil _ hdigits
    have hmem := htail.subset ((List.takeWhile_prefix _).subset hc)
    refine ⟨c, hmem, List.mem_takeWhile_imp hc, (List.dropWhile_suffix _).trans htail, ?_⟩
    have hlength := congrArg List.length
      (List.takeWhile_append_dropWhile (p := Char.isDigit)
        (l := unsigned (text.dropWhile Texts.isBlank)))
    rw [List.length_append] at hlength
    have hpos := List.length_pos_iff.mpr hdigits
    have hle := htail.length_le
    omega

theorem readInteger_no_digit {text : List Char} (h : ∀ c ∈ text, c.isDigit = false) :
    readInteger text = none := by
  cases hread : readInteger text with
  | none => rfl
  | some r =>
    obtain ⟨c, hc, hdigit, -⟩ := readInteger_eq_some hread
    rw [h c hc] at hdigit
    cases hdigit

theorem stoi_eq_ok {text : List Char} {n : Int} :
    stoi text = .ok n ↔
      ∃ rest, readInteger text = some (n, rest) ∧ -2147483648 ≤ n ∧ n ≤ 2147483647 := by
  rw [stoi]
  cases readInteger text with
  | none => simp
  | some r =>
    obtain ⟨m, rest⟩ := r
    show (if -2147483648 ≤ m ∧ m ≤ 2147483647 then _ else _) = _ ↔ _
    by_cases hm : -2147483648 ≤ m ∧ m ≤ 2147483647
    · rw [if_pos hm]
      constructor
      · intro h
        obtain rfl := Except.ok.inj h
        exact ⟨rest, rfl, hm⟩
      · rintro ⟨_, h, -⟩
        exact congrArg Except.ok (Prod.mk.inj (Option.some.inj h)).1
    · rw [if_neg hm]
      refine iff_of_false nofun ?_
      rintro ⟨_, h, hn⟩
      obtain ⟨rfl, -⟩ := Prod.mk.inj (Option.some.inj h)
      exact hm hn

theorem stoul_eq_ok {w : Nat} {text : List Char} {x : BitVec w} :
    stoul w text = .ok x ↔ ∃ n rest, readInteger text = some (n, rest) ∧ n.natAbs < 2 ^ w ∧
      BitVec.ofInt w n = x := by
  rw [stoul]
  cases readInteger text with
  | none => simp
  | some r =>
    obtain ⟨m, rest⟩ := r
    show (if m.natAbs < 2 ^ w then _ else _) = _ ↔ _
    by_cases hm : m.natAbs < 2 ^ w
    · rw [if_pos hm]
      constructor
      · intro h
        exact ⟨m, rest, rfl, hm, Except.ok.inj h⟩
      · rintro ⟨_, _, h, -, hx⟩
        obtain ⟨rfl, -⟩ := Prod.mk.inj (Option.some.inj h)
        exact congrArg Except.ok hx
    · rw [if_neg hm]
      refine iff_of_false nofun ?_
      rintro ⟨_, _, h, hn, -⟩
      obtain ⟨rfl, -⟩ := Prod.mk.inj (Option.some.inj h)
      exact hm hn

/-- The low bits of a number do not depend on the width that it was cut to. -/
theorem toNat_setWidth_ofInt {v w : Nat} (h : v ≤ w) (n : Int) :
    (((BitVec.ofInt w n).setWidth v).toNat : Int) = n % 2 ^ v := by
  have hdvd : ((2 ^ v : Nat) : Int) ∣ ((2 ^ w : Nat) : Int) :=
    Int.natCast_dvd_natCast.mpr (Nat.pow_dvd_pow 2 h)
  have hpos : (0 : Int) ≤ n % ((2 ^ w : Nat) : Int) :=
    Int.emod_nonneg _ (Int.natCast_ne_zero.mpr (Nat.two_pow_pos w).ne')
  rw [BitVec.toNat_setWidth, BitVec.toNat_ofInt, Int.natCast_mod, Int.toNat_of_nonneg hpos,
    Int.emod_emod_of_dvd n hdvd, Nat.cast_pow, Nat.cast_ofNat]

/-- The text is the number, with nothing behind it. -/
def IsNumber (text : List Char) (n : Int) : Prop := readInteger text = some (n, [])

instance (text : List Char) (n : Int) : Decidable (IsNumber text n) :=
  inferInstanceAs (Decidable (_ = _))

end MuonDetector.Library.Conversions
