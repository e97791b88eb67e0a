import Mathlib.Data.List.Basic

/-!
# Loops that try again

A loop makes an attempt until one is done or its retries are used up. What the
attempts would give if all were made is a sequence of its own, `resultAt`; the loop
takes the beginning of it up to the first attempt that is done.
-/

namespace MuonDetector.Library.Attempts

variable {σ α : Type*}

/-- The attempts of a loop: those that were not the last, the last, and the state after it. -/
structure Tries (σ α : Type*) where
  earlier : List α
  last : α
  state : σ

/-- `while ((x = attempt()) is not done && ctr++ < n)`. -/
def attempts (attempt : σ → α × σ) (done : α → Bool) : Nat → σ → Tries σ α
  | 0, s =>
    let r := attempt s
    ⟨[], r.1, r.2⟩
  | n + 1, s =>
    let r := attempt s
    if done r.1 then ⟨[], r.1, r.2⟩
    else
      let t := attempts attempt done n r.2
      { t with earlier := r.1 :: t.earlier }

/-- The result of the attempt of index `k`, were all of them made. -/
def resultAt (attempt : σ → α × σ) : σ → Nat → α
  | s, 0 => (attempt s).1
  | s, k + 1 => resultAt attempt (attempt s).2 k

/-- The number of attempts. -/
def Tries.count (t : Tries σ α) : Nat := t.earlier.length + 1

variable {attempt : σ → α × σ} {done : α → Bool}

/-- The loop stops at `m`: before it no attempt is done, and it is done there or out of retries. -/
structure StopsAt (done : α → Bool) (r : Nat → α) (n m : Nat) : Prop where
  bound : m ≤ n
  before : ∀ k < m, done (r k) = false
  stop : done (r m) = true ∨ m = n

/-- **What a loop with `n` retries does.** -/
theorem attempts_eq (n : Nat) (s : σ) :
    ∃ m, StopsAt done (resultAt attempt s) n m ∧
      (attempts attempt done n s).last = resultAt attempt s m ∧
      (attempts attempt done n s).earlier = (List.range m).map (resultAt attempt s) := by
  induction n generalizing s with
  | zero => exact ⟨0, ⟨Nat.le_refl 0, by simp, Or.inr rfl⟩, rfl, rfl⟩
  | succ n ih =>
    by_cases hd : done (attempt s).1
    · refine ⟨0, ⟨Nat.zero_le _, by simp, Or.inl hd⟩, ?_, ?_⟩
      · simp [attempts, hd, resultAt]
      · simp [attempts, hd]
    · obtain ⟨m, hstop, hlast, hearlier⟩ := ih (attempt s).2
      refine ⟨m + 1, ⟨by have := hstop.bound; omega, ?_, ?_⟩, ?_, ?_⟩
      · intro k hk
        cases k with
        | zero => simpa [resultAt] using hd
        | succ k => exact hstop.before k (by omega)
      · exact hstop.stop.imp_right (congrArg (· + 1))
      · simp only [attempts, hd, Bool.false_eq_true, if_false]
        exact hlast
      · simp only [attempts, hd, Bool.false_eq_true, if_false]
        rw [List.range_succ_eq_map, List.map_cons, List.map_map, hearlier]
        rfl

/-- What the last attempt gives is done exactly if one of the first `n + 1` is. -/
theorem StopsAt.done_iff {r : Nat → α} {n m : Nat} (h : StopsAt done r n m) :
    done (r m) = true ↔ ∃ k ≤ n, done (r k) = true := by
  constructor
  · exact fun hd => ⟨m, h.bound, hd⟩
  · rintro ⟨k, hk, hd⟩
    rcases h.stop with hm | rfl
    · exact hm
    · have hge : ¬ k < m := fun hlt => by simp [h.before k hlt] at hd
      obtain rfl : k = m := by omega
      exact hd

/-- A loop that gives up gives what the last attempt gives. -/
theorem StopsAt.eq_of_not_done {r : Nat → α} {n m : Nat} (h : StopsAt done r n m)
    (hd : ¬ done (r m) = true) : m = n :=
  h.stop.resolve_left hd

end MuonDetector.Library.Attempts
