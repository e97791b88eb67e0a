import Mathlib.Data.List.Basic

/-!
# Queues that drop their old end

A queue in the order of time from which everything too old is dropped at the front. Where
what is before an old element is old as well, dropping from the front is as good as
looking at every element.
-/

namespace MuonDetector.Library.Windows

variable {α : Type*} {old : α → Bool}

/-- Whatever stands before an old element is old. -/
def OldFirst (old : α → Bool) (xs : List α) : Prop :=
  xs.Pairwise fun x y => old y = true → old x = true

theorem dropWhile_eq_filter {xs : List α} (h : OldFirst old xs) :
    xs.dropWhile old = xs.filter fun x => !old x := by
  induction xs with
  | nil => rfl
  | cons x xs ih =>
    obtain ⟨hfirst, hrest⟩ := List.pairwise_cons.mp h
    cases hx : old x with
    | true => rw [List.dropWhile_cons_of_pos hx, ih hrest, List.filter_cons_of_neg (by simp [hx])]
    | false =>
      have hnone : ∀ y ∈ x :: xs, (!old y) = true := by
        intro y hy
        obtain rfl | hy := List.mem_cons.mp hy
        · rw [hx, Bool.not_false]
        · cases hold : old y with
          | false => rfl
          | true => exact absurd (hfirst y hy hold) (by simp [hx])
      rw [List.dropWhile_cons_of_neg (by simp [hx]), List.filter_eq_self.mpr hnone]

/-- Where nothing is old nothing is dropped. -/
theorem dropWhile_eq_self {xs : List α} (h : ∀ x ∈ xs, old x = false) : xs.dropWhile old = xs := by
  cases xs with
  | nil => rfl
  | cons x xs => exact List.dropWhile_cons_of_neg (by simp [h x List.mem_cons_self])

/-- The new end stays where anything does. -/
theorem getLastD_dropWhile {xs : List α} (d : α) (h : xs.dropWhile old ≠ []) :
    (xs.dropWhile old).getLastD d = xs.getLastD d := by
  obtain ⟨front, hfront⟩ := List.dropWhile_suffix (l := xs) old
  have hlast := List.getLast?_eq_some_getLast h
  have hboth : xs.getLast? = some ((xs.dropWhile old).getLast h) := by
    conv_lhs => rw [← hfront, List.getLast?_append, hlast]
    rfl
  rw [List.getLastD_eq_getLast?, List.getLastD_eq_getLast?, hlast, hboth]

end MuonDetector.Library.Windows
