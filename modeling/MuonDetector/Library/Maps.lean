import Mathlib.Data.Fintype.EquivFin
import Mathlib.Data.List.Nodup
import Mathlib.Logic.Function.Basic

/-!
# Maps gone through entry by entry

A map is what it gives for each key. Going through it lists its entries in an order of its
own, and setting the listed entries one after another makes the map again.
-/

namespace MuonDetector.Library.Maps

variable {K V : Type}

/-- The order in which maps are gone through: each entry comes up, and each key once. -/
structure IterationOrder (K V : Type) where
  entries : (K → Option V) → List (K × V)
  mem_entries : ∀ {m k v}, (k, v) ∈ entries m ↔ m k = some v
  nodup_keys : ∀ m, ((entries m).map Prod.fst).Nodup

/-- Sets entries one after another. -/
def assign [DecidableEq K] (m : K → Option V) (entries : List (K × V)) : K → Option V :=
  entries.foldl (fun m entry => Function.update m entry.1 (some entry.2)) m

theorem assign_of_notMem [DecidableEq K] {k : K} {entries : List (K × V)}
    (h : k ∉ entries.map Prod.fst) (m : K → Option V) : assign m entries k = m k := by
  induction entries generalizing m with
  | nil => rfl
  | cons entry entries ih =>
    rw [List.map_cons, List.mem_cons, not_or] at h
    calc assign m (entry :: entries) k
        = assign (Function.update m entry.1 (some entry.2)) entries k := rfl
      _ = Function.update m entry.1 (some entry.2) k := ih h.2 _
      _ = m k := Function.update_of_ne h.1 _ _

theorem assign_of_mem [DecidableEq K] {k : K} {v : V} {entries : List (K × V)}
    (hnodup : (entries.map Prod.fst).Nodup) (h : (k, v) ∈ entries) (m : K → Option V) :
    assign m entries k = some v := by
  induction entries generalizing m with
  | nil => cases h
  | cons entry entries ih =>
    rw [List.map_cons, List.nodup_cons] at hnodup
    rcases List.mem_cons.mp h with rfl | h
    · calc assign m ((k, v) :: entries) k
          = assign (Function.update m k (some v)) entries k := rfl
        _ = Function.update m k (some v) k := assign_of_notMem hnodup.1 _
        _ = some v := Function.update_self _ _ _
    · exact ih hnodup.2 h _

namespace IterationOrder

/-- **A map is made again of its entries, in whatever order they come.** -/
theorem assign_entries [DecidableEq K] (order : IterationOrder K V) (m : K → Option V) :
    assign (fun _ => none) (order.entries m) = m := by
  funext k
  cases hk : m k with
  | some v => exact assign_of_mem (order.nodup_keys m) (order.mem_entries.mpr hk) _
  | none =>
    apply assign_of_notMem
    intro hmem
    obtain ⟨⟨k', v⟩, hentry, rfl⟩ := List.mem_map.mp hmem
    rw [order.mem_entries.mp hentry] at hk
    cases hk

/-- Over finitely many keys there is such an order. -/
theorem nonempty [Finite K] : Nonempty (IterationOrder K V) := by
  obtain ⟨_⟩ := nonempty_fintype K
  have hkey : ∀ (m : K → Option V) (k : K) (e : K × V),
      e ∈ (m k).map (Prod.mk k) ↔ e.1 = k ∧ m k = some e.2 := by
    rintro m k ⟨k', v⟩
    constructor
    · intro h
      obtain ⟨v', hv, heq⟩ := Option.map_eq_some_iff.mp h
      cases heq
      exact ⟨rfl, hv⟩
    · rintro ⟨rfl, hv⟩
      exact Option.map_eq_some_iff.mpr ⟨v, hv, rfl⟩
  exact ⟨{
    entries := fun m => Finset.univ.toList.filterMap fun k => (m k).map (Prod.mk k)
    mem_entries := by
      intro m k v
      rw [List.mem_filterMap]
      constructor
      · rintro ⟨k', -, h⟩
        obtain ⟨rfl, hv⟩ := (hkey m k' (k, v)).mp h
        exact hv
      · intro hv
        exact ⟨k, Finset.mem_toList.mpr (Finset.mem_univ k), (hkey m k (k, v)).mpr ⟨rfl, hv⟩⟩
    nodup_keys := by
      intro m
      rw [List.Nodup, List.pairwise_map, List.pairwise_filterMap]
      apply (Finset.nodup_toList _).imp
      intro k k' hne e he e' he' heq
      rw [((hkey m k e).mp he).1, ((hkey m k' e').mp he').1] at heq
      exact hne heq }⟩

end IterationOrder

end MuonDetector.Library.Maps
