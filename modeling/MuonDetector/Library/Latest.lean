import Mathlib.Data.List.Basic

/-!
# The latest value

What a reader of a queue knows in the end: the value of the last element that has one, or what
it knew before.
-/

namespace MuonDetector.Library.Latest

variable {α β : Type}

def latest (f : α → Option β) : List α → Option β → Option β
  | [], old => old
  | x :: xs, old => latest f xs ((f x).or old)

variable {f : α → Option β} {xs ys : List α} {old : Option β}

@[simp] theorem latest_nil : latest f [] old = old := rfl

theorem latest_cons (x : α) : latest f (x :: xs) old = latest f xs ((f x).or old) := rfl

theorem latest_append : latest f (xs ++ ys) old = latest f ys (latest f xs old) := by
  induction xs generalizing old with
  | nil => rfl
  | cons x xs ih => exact ih

theorem latest_concat (x : α) : latest f (xs ++ [x]) old = (f x).or (latest f xs old) :=
  latest_append

/-- Elements without a value change nothing. -/
theorem latest_of_none (h : ∀ x ∈ xs, f x = none) : latest f xs old = old := by
  induction xs generalizing old with
  | nil => rfl
  | cons x xs ih =>
    have hx : f x = none := h x (by simp)
    rw [latest, hx, Option.none_or]
    exact ih fun y hy => h y (by simp [hy])

/-- A value that comes from the queue does not depend on what was known before. -/
theorem latest_of_some {v : β} (h : latest f xs none = some v) : latest f xs old = some v := by
  induction xs generalizing old with
  | nil => cases h
  | cons x xs ih =>
    rw [latest] at h ⊢
    cases hx : f x with
    | none =>
      rw [hx] at h
      exact ih h
    | some w =>
      rw [hx] at h
      exact h

theorem latest_some_ne_none {v : β} : latest f xs (some v) ≠ none := by
  induction xs generalizing v with
  | nil => exact fun h => by cases h
  | cons x xs ih =>
    rw [latest]
    cases f x <;> exact ih

/-- One element with a value is enough. -/
theorem latest_ne_none {x : α} (hmem : x ∈ xs) (hx : f x ≠ none) : latest f xs old ≠ none := by
  obtain ⟨front, back, rfl⟩ := List.append_of_mem hmem
  obtain ⟨v, hv⟩ := Option.ne_none_iff_exists'.mp hx
  rw [latest_append, latest_cons, hv, Option.some_or]
  exact latest_some_ne_none

theorem exists_of_latest_ne_none (h : latest f xs none ≠ none) : ∃ x ∈ xs, f x ≠ none := by
  by_contra hnone
  exact h (latest_of_none fun x hx => by_contra fun hfx => hnone ⟨x, hx, hfx⟩)

/-- Where the queue has no value, what was known before stays. -/
theorem latest_of_eq_none (h : latest f xs none = none) : latest f xs old = old :=
  latest_of_none fun _ hx => by_contra fun hfx => latest_ne_none hx hfx h

end MuonDetector.Library.Latest
