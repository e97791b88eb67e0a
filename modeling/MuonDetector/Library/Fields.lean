import Mathlib.Data.List.Basic

/-!
# Fields of a buffer

A field is a place in a buffer with a length. Writing one field does not change what
the others hold, a field of a field is a field, and a buffer made of blocks of one
length has a block at every multiple of it.
-/

namespace MuonDetector.Library.Fields

variable {α : Type*}

/-- The `n` elements from `off` on. -/
def bytesAt (buf : List α) (off n : Nat) : List α := (buf.drop off).take n

/-- The buffer with `xs` written from `off` on. -/
def overwrite (buf : List α) (off : Nat) (xs : List α) : List α :=
  buf.take off ++ xs ++ buf.drop (off + xs.length)

/-- What was written is there. -/
theorem bytesAt_overwrite {buf : List α} {off : Nat} (xs : List α) (h : off ≤ buf.length) :
    bytesAt (overwrite buf off xs) off xs.length = xs := by
  have hlen : (buf.take off).length = off := by
    rw [List.length_take]
    omega
  rw [bytesAt, overwrite, List.append_assoc, List.drop_append_of_le_length (by omega),
    List.drop_of_length_le (by omega), List.nil_append, List.take_left]

/-- A field that ends before what was written is as it was. -/
theorem bytesAt_overwrite_before {buf : List α} {off off' n : Nat} {xs : List α}
    (hoff : off ≤ buf.length) (h : off' + n ≤ off) :
    bytesAt (overwrite buf off xs) off' n = bytesAt buf off' n := by
  have hlen : (buf.take off).length = off := by
    rw [List.length_take]
    omega
  have htake : n ≤ ((buf.take off).drop off').length := by
    rw [List.length_drop]
    omega
  rw [bytesAt, overwrite, List.append_assoc, List.drop_append_of_le_length (by omega),
    List.take_append_of_le_length htake, List.drop_take, List.take_take, bytesAt]
  congr 1
  omega

/-- A field that begins after what was written is as it was. -/
theorem bytesAt_overwrite_after {buf : List α} {off off' n : Nat} {xs : List α}
    (hoff : off ≤ buf.length) (h : off + xs.length ≤ off') :
    bytesAt (overwrite buf off xs) off' n = bytesAt buf off' n := by
  have hlen : (buf.take off ++ xs).length = off + xs.length := by
    rw [List.length_append, List.length_take]
    omega
  rw [bytesAt, overwrite, List.drop_append, List.drop_of_length_le (by omega), List.nil_append,
    List.drop_drop, hlen, bytesAt]
  congr 2
  omega

theorem bytesAt_bytesAt {buf : List α} {off n off' n' : Nat} (h : off' + n' ≤ n) :
    bytesAt (bytesAt buf off n) off' n' = bytesAt buf (off + off') n' := by
  rw [bytesAt, bytesAt, List.drop_take, List.drop_drop, List.take_take, bytesAt]
  congr 1
  omega

/-- Skipping `pre` moves every field by its length. -/
theorem bytesAt_append (pre buf : List α) (off n : Nat) :
    bytesAt (pre ++ buf) (pre.length + off) n = bytesAt buf off n := by
  rw [bytesAt, ← List.drop_drop, List.drop_left, bytesAt]

theorem set_append {pre buf : List α} {k : Nat} (x : α) :
    (pre ++ buf).set (pre.length + k) x = pre ++ buf.set k x := by
  rw [List.set_append_right _ _ (Nat.le_add_right _ _), Nat.add_sub_cancel_left]

theorem length_flatten_blocks {blocks : List (List α)} {n : Nat} (h : ∀ b ∈ blocks, b.length = n) :
    blocks.flatten.length = n * blocks.length := by
  induction blocks with
  | nil => rfl
  | cons b blocks ih =>
    have hrest := ih fun b' hb' => h b' (List.mem_cons_of_mem _ hb')
    rw [List.flatten_cons, List.length_append, hrest, h b List.mem_cons_self, List.length_cons,
      Nat.mul_succ, Nat.add_comm]

/-- The blocks of one length `n` stand at the multiples of `n`. -/
theorem bytesAt_flatten {blocks : List (List α)} {n : Nat} (h : ∀ b ∈ blocks, b.length = n)
    {k : Nat} (hk : k < blocks.length) : bytesAt blocks.flatten (n * k) n = blocks[k] := by
  induction blocks generalizing k with
  | nil => cases hk
  | cons b blocks ih =>
    obtain rfl := h b List.mem_cons_self
    rw [List.flatten_cons]
    cases k with
    | zero => simp [bytesAt]
    | succ k =>
      have hrest := ih (fun b' hb' => h b' (List.mem_cons_of_mem _ hb')) (Nat.lt_of_succ_lt_succ hk)
      have hoff : b.length * (k + 1) = b.length + b.length * k := by
        rw [Nat.mul_succ, Nat.add_comm]
      rw [hoff, bytesAt_append, hrest]
      rfl

end MuonDetector.Library.Fields
