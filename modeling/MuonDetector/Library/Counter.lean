import Mathlib.Data.List.Nodup
import Mathlib.Data.Nat.ModEq

/-!
# Identifiers from a counter

A counter of `w` bits that starts at one hands out a value for each request. The values
differ until it has come round.
-/

namespace MuonDetector.Library.Counter

variable {w : Nat}

/-- What the counter hands out for the request of this number. -/
def ident (k : Nat) : BitVec w := BitVec.ofNat w (k + 1)

theorem ident_inj {i j : Nat} (hi : i < 2 ^ w) (hj : j < 2 ^ w)
    (h : (ident i : BitVec w) = ident j) : i = j := by
  have hmod : i + 1 ≡ j + 1 [MOD 2 ^ w] := by
    have hnat := congrArg BitVec.toNat h
    rwa [ident, ident, BitVec.toNat_ofNat, BitVec.toNat_ofNat] at hnat
  exact (Nat.ModEq.add_right_cancel' 1 hmod).eq_of_lt_of_lt hi hj

theorem idents_nodup {n : Nat} (hn : n ≤ 2 ^ w) :
    ((List.range n).map (ident : Nat → BitVec w)).Nodup := by
  refine List.Nodup.map_on ?_ List.nodup_range
  intro i hi j hj h
  rw [List.mem_range] at hi hj
  exact ident_inj (by omega) (by omega) h

theorem ident_succ (k : Nat) : (ident (k + 1) : BitVec w) = ident k + 1 :=
  BitVec.ofNat_add (k + 1) 1

theorem ident_round : (ident (2 ^ w) : BitVec w) = ident 0 := by
  apply BitVec.eq_of_toNat_eq
  rw [ident, ident, BitVec.toNat_ofNat, BitVec.toNat_ofNat, Nat.add_mod_left, Nat.zero_add]

end MuonDetector.Library.Counter
