import MuonDetector.Library.Conversions

/-!
# Numbers written by a stream

An integer as a stream writes it, plain or padded to a width, and how it is found again in
front of any text that does not go on with a digit.
-/

namespace MuonDetector.Library.Decimals

open MuonDetector.Library.Conversions

def integerText (n : Int) : List Char :=
  if n < 0 then '-' :: Nat.toDigits 10 n.natAbs else Nat.toDigits 10 n.natAbs

/-- `std::setw` with `std::setfill`, adjusted to the right. -/
def padded (width : Nat) (fill : Char) (text : List Char) : List Char :=
  List.replicate (width - text.length) fill ++ text

/-- The text does not go on with a digit. -/
def NoDigit (rest : List Char) : Prop := ∀ c ∈ rest.head?, c.isDigit = false

theorem isDigit_of_mem {n : Nat} {c : Char} (h : c ∈ Nat.toDigits 10 n) : c.isDigit = true :=
  Nat.isDigit_of_mem_toDigits (by decide) (by decide) h

/-- The digits at the front end where the rest begins. -/
theorem split_digits {digits rest : List Char} (hdigits : ∀ c ∈ digits, c.isDigit = true)
    (hrest : NoDigit rest) : (digits ++ rest).takeWhile Char.isDigit = digits ∧
      (digits ++ rest).dropWhile Char.isDigit = rest := by
  rw [List.takeWhile_append_of_pos hdigits, List.dropWhile_append_of_pos hdigits]
  cases rest with
  | nil => exact ⟨List.append_nil _, rfl⟩
  | cons c rest =>
    have hc : c.isDigit = false := hrest c rfl
    simp [hc]

/-- The front of a written number. -/
theorem head_digits (n : Nat) (rest : List Char) :
    ∃ c tail, Nat.toDigits 10 n ++ rest = c :: tail ∧ c.isDigit = true := by
  obtain ⟨c, tail, hcons⟩ := List.exists_cons_of_ne_nil (Nat.toDigits_ne_nil (n := n) (b := 10))
  refine ⟨c, tail ++ rest, by rw [hcons, List.cons_append], ?_⟩
  exact isDigit_of_mem (hcons ▸ List.mem_cons_self)

theorem readInteger_integerText (n : Int) {rest : List Char} (hrest : NoDigit rest) :
    readInteger (integerText n ++ rest) = some (n, rest) := by
  have hdigits : ∀ c ∈ Nat.toDigits 10 n.natAbs, c.isDigit = true := fun _ hc =>
    isDigit_of_mem hc
  obtain ⟨htake, hdrop⟩ := split_digits hdigits hrest
  by_cases hn : n < 0
  · have htext : integerText n ++ rest = '-' :: (Nat.toDigits 10 n.natAbs ++ rest) := by
      rw [integerText, if_pos hn, List.cons_append]
    have hblank : ('-' :: (Nat.toDigits 10 n.natAbs ++ rest)).dropWhile Texts.isBlank =
        '-' :: (Nat.toDigits 10 n.natAbs ++ rest) := rfl
    have hvalue : -((n.natAbs : Nat) : Int) = n := by omega
    simp only [readInteger, htext, hblank, unsigned, isNegative, List.head?_cons, List.tail_cons,
      true_or, if_true, htake, hdrop, Nat.toDigits_ne_nil, if_false, Nat.ofDigitChars_ten_toDigits,
      decide_true, hvalue]
  · obtain ⟨c, tail, hcons, hc⟩ := head_digits n.natAbs rest
    have htext : integerText n ++ rest = Nat.toDigits 10 n.natAbs ++ rest := by
      rw [integerText, if_neg hn]
    have hblank : (Nat.toDigits 10 n.natAbs ++ rest).dropWhile Texts.isBlank =
        Nat.toDigits 10 n.natAbs ++ rest := by
      rw [hcons, List.dropWhile_cons_of_neg]
      simp [Texts.isBlank_of_isDigit hc]
    have hsigns : c ≠ '-' ∧ c ≠ '+' := by
      constructor <;> rintro rfl <;> exact absurd hc (by decide)
    have hhead : (Nat.toDigits 10 n.natAbs ++ rest).head? = some c := by rw [hcons]; rfl
    have hvalue : ((n.natAbs : Nat) : Int) = n := by omega
    simp only [readInteger, htext, hblank, unsigned, isNegative, hhead, Option.some.injEq, hsigns.1,
      hsigns.2, or_self, if_false, htake, hdrop, Nat.toDigits_ne_nil, Nat.ofDigitChars_ten_toDigits,
      decide_false, Bool.false_eq_true, hvalue]

/-- A number that fits the width, padded with zeros, has the width and keeps its value. -/
theorem padded_zero {width n : Nat} (hwidth : 0 < width) (h : n < 10 ^ width) :
    (padded width '0' (integerText n)).length = width ∧
      (padded width '0' (integerText n)).all Char.isDigit = true ∧
      Nat.ofDigitChars 10 (padded width '0' (integerText n)) 0 = n := by
  have htext : integerText n = Nat.toDigits 10 n := by
    rw [integerText, if_neg (by omega), Int.natAbs_natCast]
  have hlength : (Nat.toDigits 10 n).length ≤ width :=
    (Nat.length_toDigits_le_iff (by decide) hwidth).mpr h
  rw [htext, padded]
  refine ⟨?_, ?_, ?_⟩
  · rw [List.length_append, List.length_replicate]
    omega
  · rw [List.all_append, Bool.and_eq_true, List.all_eq_true, List.all_eq_true]
    refine ⟨fun c hc => ?_, fun _ hc => isDigit_of_mem hc⟩
    rw [List.eq_of_mem_replicate hc]
    rfl
  · rw [Nat.ofDigitChars_append, Nat.ofDigitChars_replicate_zero, Nat.mul_zero,
      Nat.ofDigitChars_ten_toDigits]

end MuonDetector.Library.Decimals
