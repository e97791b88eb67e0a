import Mathlib.Data.List.Induction

/-!
# Choosing from a list element by element

An element is judged by all elements before it, or by those before it that were kept.
-/

namespace MuonDetector.Library.Selection

variable {α : Type*}

/-- The elements that `p` holds of, given the elements before them. -/
def passingFrom (p : List α → α → Bool) : List α → List α → List α
  | _, [] => []
  | before, x :: xs =>
    if p before x then x :: passingFrom p (before ++ [x]) xs
    else passingFrom p (before ++ [x]) xs

def passing (p : List α → α → Bool) (xs : List α) : List α := passingFrom p [] xs

theorem passingFrom_snoc (p : List α → α → Bool) (before xs : List α) (x : α) :
    passingFrom p before (xs ++ [x]) =
      passingFrom p before xs ++ if p (before ++ xs) x then [x] else [] := by
  induction xs generalizing before with
  | nil => simp [passingFrom]
  | cons y ys ih =>
    rw [List.cons_append, passingFrom, passingFrom, ih, List.append_assoc, List.singleton_append]
    split <;> rfl

@[simp] theorem passing_nil (p : List α → α → Bool) : passing p [] = [] := rfl

theorem passing_snoc (p : List α → α → Bool) (xs : List α) (x : α) :
    passing p (xs ++ [x]) = passing p xs ++ if p xs x then [x] else [] :=
  passingFrom_snoc p [] xs x

theorem passing_sublist (p : List α → α → Bool) (xs : List α) : (passing p xs).Sublist xs := by
  induction xs using List.reverseRecOn with
  | nil => exact List.Sublist.refl []
  | append_singleton xs x ih =>
    rw [passing_snoc]
    split
    · exact ih.append (List.Sublist.refl [x])
    · exact ih.append (List.nil_sublist [x])

/-- The elements that `p` holds of, given the elements kept before them. -/
def greedyFrom (p : List α → α → Bool) : List α → List α → List α
  | kept, [] => kept
  | kept, x :: xs => greedyFrom p (if p kept x then kept ++ [x] else kept) xs

def greedy (p : List α → α → Bool) (xs : List α) : List α := greedyFrom p [] xs

theorem greedyFrom_append (p : List α → α → Bool) (kept xs ys : List α) :
    greedyFrom p kept (xs ++ ys) = greedyFrom p (greedyFrom p kept xs) ys := by
  induction xs generalizing kept with
  | nil => rfl
  | cons x xs ih => exact ih _

@[simp] theorem greedy_nil (p : List α → α → Bool) : greedy p [] = [] := rfl

theorem greedy_snoc (p : List α → α → Bool) (xs : List α) (x : α) :
    greedy p (xs ++ [x]) = greedy p xs ++ if p (greedy p xs) x then [x] else [] := by
  rw [greedy, greedyFrom_append, greedyFrom, greedyFrom, ← greedy]
  split
  · rfl
  · exact (List.append_nil _).symm

theorem greedy_sublist (p : List α → α → Bool) (xs : List α) : (greedy p xs).Sublist xs := by
  induction xs using List.reverseRecOn with
  | nil => exact List.Sublist.refl []
  | append_singleton xs x ih =>
    rw [greedy_snoc]
    split
    · exact ih.append (List.Sublist.refl [x])
    · exact ih.append (List.nil_sublist [x])

end MuonDetector.Library.Selection
