import Mathlib.Data.List.Induction
import Mathlib.Order.Lattice

/-!
# Maps as sorted lists

A map whose entries are listed by growing keys. Writing to a key keeps the order, and
writing the listed entries one after another makes the list again.
-/

namespace MuonDetector.Library.SortedMaps

variable {K V : Type} [LinearOrder K]

def Ordered (entries : List (K × V)) : Prop := entries.Pairwise fun entry later => entry.1 < later.1

/-- Writes to the place of the key what `f` makes of its value, or of its absence. -/
def alter (key : K) (f : Option V → V) : List (K × V) → List (K × V)
  | [] => [(key, f none)]
  | (k, v) :: rest =>
    if key < k then (key, f none) :: (k, v) :: rest
    else if key = k then (k, f (some v)) :: rest
    else (k, v) :: alter key f rest

variable {key : K} {f : Option V → V} {entries : List (K × V)}

/-- An entry under another key was there before. -/
theorem mem_alter {entry : K × V} (h : entry ∈ alter key f entries) :
    entry.1 = key ∨ entry ∈ entries := by
  induction entries with
  | nil =>
    obtain rfl := List.mem_singleton.mp h
    exact .inl rfl
  | cons first rest ih =>
    obtain ⟨k, v⟩ := first
    rw [alter] at h
    by_cases hlt : key < k
    · rw [if_pos hlt] at h
      rcases List.mem_cons.mp h with rfl | h
      · exact .inl rfl
      · exact .inr h
    · rw [if_neg hlt] at h
      by_cases heq : key = k
      · rw [if_pos heq] at h
        rcases List.mem_cons.mp h with rfl | h
        · exact .inl heq.symm
        · exact .inr (List.mem_cons_of_mem _ h)
      · rw [if_neg heq] at h
        rcases List.mem_cons.mp h with rfl | h
        · exact .inr List.mem_cons_self
        · exact (ih h).imp_right (List.mem_cons_of_mem _)

theorem ordered_alter (h : Ordered entries) : Ordered (alter key f entries) := by
  induction entries with
  | nil => exact List.pairwise_singleton _ _
  | cons first rest ih =>
    obtain ⟨k, v⟩ := first
    obtain ⟨hfirst, hrest⟩ := List.pairwise_cons.mp h
    rw [alter]
    by_cases hlt : key < k
    · rw [if_pos hlt]
      refine List.pairwise_cons.mpr ⟨?_, h⟩
      intro entry hentry
      rcases List.mem_cons.mp hentry with rfl | hentry
      · exact hlt
      · exact lt_trans hlt (hfirst entry hentry)
    · rw [if_neg hlt]
      by_cases heq : key = k
      · rw [if_pos heq]
        exact List.pairwise_cons.mpr ⟨hfirst, hrest⟩
      · rw [if_neg heq]
        refine List.pairwise_cons.mpr ⟨?_, ih hrest⟩
        intro entry hentry
        rcases mem_alter hentry with hkey | hentry
        · rw [hkey]
          exact lt_of_le_of_ne (not_lt.mp hlt) fun h => heq h.symm
        · exact hfirst entry hentry

/-- A key behind all others gets the last place. -/
theorem alter_last (h : ∀ entry ∈ entries, entry.1 < key) :
    alter key f entries = entries ++ [(key, f none)] := by
  induction entries with
  | nil => rfl
  | cons first rest ih =>
    obtain ⟨k, v⟩ := first
    have hk : k < key := h (k, v) List.mem_cons_self
    rw [alter, if_neg (not_lt_of_gt hk), if_neg (ne_of_gt hk), ih fun entry hentry =>
      h entry (List.mem_cons_of_mem _ hentry), List.cons_append]

/-- The map is made again of its entries. -/
theorem foldl_alter (h : Ordered entries) :
    entries.foldl (fun made entry => alter entry.1 (fun _ => entry.2) made) [] = entries := by
  induction entries using List.reverseRecOn with
  | nil => rfl
  | append_singleton entries last ih =>
    obtain ⟨hentries, -, hlast⟩ := List.pairwise_append.mp h
    rw [List.foldl_append, ih hentries]
    exact alter_last fun entry hentry => hlast entry hentry last List.mem_cons_self

end MuonDetector.Library.SortedMaps
