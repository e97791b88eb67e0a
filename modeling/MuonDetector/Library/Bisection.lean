import MuonDetector.Library.Exact
import Mathlib.Tactic.Ring

/-!
# Bisection on two axes in turn

A point in a rectangle is found by halving the first and the second side in turn, and the
halves that are taken make a list of bits. Each step halves the side whose turn it is and
then the two sides change places.
-/

namespace MuonDetector.Library.Bisection

variable {K : Type} [Field K]

structure Bounds (K : Type) where
  low : K
  high : K
  deriving DecidableEq, Repr

namespace Bounds

def mid (i : Bounds K) : K := (i.low + i.high) / 2

def width (i : Bounds K) : K := i.high - i.low

def half (i : Bounds K) (upper : Bool) : Bounds K :=
  if upper then ⟨i.mid, i.high⟩ else ⟨i.low, i.mid⟩

/-- The upper end belongs to the interval only if it is the top of all. -/
def Contains [LinearOrder K] (i : Bounds K) (top x : K) : Prop :=
  i.low ≤ x ∧ (x < i.high ∨ x = top ∧ i.high = top)

instance [LinearOrder K] (i : Bounds K) (top x : K) : Decidable (i.Contains top x) :=
  inferInstanceAs (Decidable (_ ∧ (_ ∨ _ ∧ _)))

end Bounds

/-- The cell that the bits lead to. -/
def decode : Bounds K → Bounds K → List Bool → Bounds K × Bounds K
  | a, b, [] => (a, b)
  | a, b, bit :: bits => (decode b (a.half bit) bits).swap

/-- The bits of as many steps towards the point. -/
def encode [LinearOrder K] : Nat → Bounds K → Bounds K → K → K → List Bool
  | 0, _, _, _, _ => []
  | n + 1, a, b, x, y => (a.mid ≤ x) :: encode n b (a.half (a.mid ≤ x)) y x

section

variable [LinearOrder K]

@[simp] theorem encode_length (n : Nat) (a b : Bounds K) (x y : K) :
    (encode n a b x y).length = n := by
  induction n generalizing a b x y with
  | zero => rfl
  | succ n ih => exact congrArg Nat.succ (ih ..)

/-- More steps only add bits. -/
theorem encode_extends {m n : Nat} (h : m ≤ n) (a b : Bounds K) (x y : K) :
    ∃ more, encode n a b x y = encode m a b x y ++ more := by
  induction m generalizing n a b x y with
  | zero => exact ⟨encode n a b x y, rfl⟩
  | succ m ih =>
    obtain ⟨n, rfl⟩ := Nat.exists_eq_add_of_le' (Nat.lt_of_lt_of_le (Nat.zero_lt_succ m) h)
    obtain ⟨more, hmore⟩ := ih (Nat.le_of_succ_le_succ h) b (a.half (a.mid ≤ x)) y x
    refine ⟨more, ?_⟩
    rw [encode, encode, hmore]
    rfl

/-- The half that is taken contains the point. -/
theorem Bounds.Contains.half {i : Bounds K} {top x : K} (h : i.Contains top x) :
    (i.half (i.mid ≤ x)).Contains top x := by
  obtain ⟨hlow, hhigh⟩ := h
  by_cases hmid : i.mid ≤ x
  · rw [decide_eq_true hmid]
    exact ⟨hmid, hhigh⟩
  · rw [decide_eq_false hmid]
    exact ⟨hlow, .inl (not_le.mp hmid)⟩

/-- The cell that the bits of a point lead to contains it. -/
theorem decode_encode_contains (n : Nat) {a b : Bounds K} {top top' x y : K}
    (ha : a.Contains top x) (hb : b.Contains top' y) :
    (decode a b (encode n a b x y)).1.Contains top x ∧
      (decode a b (encode n a b x y)).2.Contains top' y := by
  induction n generalizing a b top top' x y with
  | zero => exact ⟨ha, hb⟩
  | succ n ih =>
    obtain ⟨hfirst, hsecond⟩ := ih hb ha.half
    exact ⟨hsecond, hfirst⟩

end

theorem Bounds.half_width [CharZero K] (i : Bounds K) (upper : Bool) :
    (i.half upper).width = i.width / 2 := by
  cases upper with
  | false =>
    show (i.low + i.high) / 2 - i.low = (i.high - i.low) / 2
    ring
  | true =>
    show i.high - (i.low + i.high) / 2 = (i.high - i.low) / 2
    ring

/-- The first side is halved at every second bit from the first on, the other side at the
rest. -/
theorem decode_width [CharZero K] (a b : Bounds K) (bits : List Bool) :
    (decode a b bits).1.width = a.width / 2 ^ ((bits.length + 1) / 2) ∧
      (decode a b bits).2.width = b.width / 2 ^ (bits.length / 2) := by
  induction bits generalizing a b with
  | nil =>
    rw [decode]
    simp
  | cons bit bits ih =>
    obtain ⟨hfirst, hsecond⟩ := ih b (a.half bit)
    rw [List.length_cons, decode]
    have htwo : (bits.length + 1 + 1) / 2 = bits.length / 2 + 1 := by omega
    refine ⟨?_, hfirst⟩
    rw [Prod.fst_swap, hsecond, a.half_width, htwo, pow_succ', div_div]

end MuonDetector.Library.Bisection
