import Mathlib.Data.List.Pairwise
import Mathlib.Logic.Function.Basic

/-!
# Journals in pieces

What is handed to a writer goes to the piece that is current. From time to time the current piece
is closed and another one begun at a new place, and pieces may go. A write that fails leaves a
tail in the piece, behind which nothing more is written. A store keeps a journal when it has the
text of every piece at its place.
-/

namespace MuonDetector.Library

variable {ρ α τ : Type}

/-- A piece, with its place, if it begins with a header, what was written to it, and what a
failed write has left at its end. -/
structure Piece (ρ α τ : Type) where
  place : ρ
  header : Bool
  entries : List α := []
  tail : Option τ := none
  there : Bool := true

structure Journal (ρ α τ : Type) where
  closed : List (Piece ρ α τ) := []
  current : Option (Piece ρ α τ) := none

namespace Journal

def pieces (j : Journal ρ α τ) : List (Piece ρ α τ) := j.closed ++ j.current.toList

/-- Everything that was written, in order. -/
def entries (j : Journal ρ α τ) : List α := j.pieces.flatMap (·.entries)

/-- The next entry of a piece. -/
def added (x : α) (p : Piece ρ α τ) : Piece ρ α τ := { p with entries := p.entries ++ [x] }

/-- A piece after a write that failed. -/
def torn (t : τ) (p : Piece ρ α τ) : Piece ρ α τ := { p with tail := some t }

/-- The current piece changes. -/
def change (f : Piece ρ α τ → Piece ρ α τ) (j : Journal ρ α τ) : Journal ρ α τ :=
  { j with current := j.current.map f }

/-- What is left of a piece when places go. -/
def remaining (kept : ρ → Bool) (p : Piece ρ α τ) : Piece ρ α τ :=
  { p with there := p.there && kept p.place }

/-- The current piece is closed, places go, and the next piece begins. -/
def turn (kept : ρ → Bool) (next : Option (Piece ρ α τ)) (j : Journal ρ α τ) : Journal ρ α τ where
  closed := j.pieces.map (remaining kept)
  current := next

variable {j : Journal ρ α τ}

theorem mem_pieces {p : Piece ρ α τ} : p ∈ j.pieces ↔ p ∈ j.closed ∨ j.current = some p := by
  rw [pieces, List.mem_append, Option.mem_toList]

theorem pieces_turn (kept : ρ → Bool) (next : Option (Piece ρ α τ)) :
    (j.turn kept next).pieces = j.pieces.map (remaining kept) ++ next.toList := rfl

theorem pieces_change {p : Piece ρ α τ} (h : j.current = some p) (f : Piece ρ α τ → Piece ρ α τ) :
    (j.change f).pieces = j.closed ++ [f p] := by
  rw [pieces, change, h]
  rfl

/-- What is written is the last entry. -/
theorem entries_added {p : Piece ρ α τ} (h : j.current = some p) (x : α) :
    (j.change (added x)).entries = j.entries ++ [x] := by
  rw [entries, entries, pieces_change h, pieces, h]
  simp [added]

/-- A change of the current piece that is no entry, such as a failed write. -/
theorem entries_change {p : Piece ρ α τ} (h : j.current = some p) {f : Piece ρ α τ → Piece ρ α τ}
    (hf : (f p).entries = p.entries) : (j.change f).entries = j.entries := by
  rw [entries, entries, pieces_change h, pieces, h]
  simp [hf]

/-- A new piece that is empty changes nothing of what was written. -/
theorem entries_turn (kept : ρ → Bool) {next : Option (Piece ρ α τ)}
    (h : ∀ p ∈ next, p.entries = []) : (j.turn kept next).entries = j.entries := by
  have hnext : next.toList.flatMap (·.entries) = [] := by
    cases next with
    | none => rfl
    | some p => simp [h p rfl]
  rw [entries, pieces_turn, List.flatMap_append, hnext, List.append_nil, List.flatMap_map]
  rfl

/-! ## Stores -/

/-- The places of the pieces that are there are different, and the store has their texts. -/
structure Kept (text : Piece ρ α τ → τ) (store : ρ → τ) (j : Journal ρ α τ) : Prop where
  texts : ∀ p ∈ j.pieces, p.there = true → store p.place = text p
  apart : j.pieces.Pairwise fun p q => p.there = true → q.there = true → p.place ≠ q.place
  current : ∀ p ∈ j.current, p.there = true

variable {text : Piece ρ α τ → τ} {store store' : ρ → τ}

/-- A store that differs at other places only. -/
theorem Kept.congr (h : Kept text store j)
    (hsame : ∀ p ∈ j.pieces, p.there = true → store' p.place = store p.place) :
    Kept text store' j where
  texts p hp hthere := (hsame p hp hthere).trans (h.texts p hp hthere)
  apart := h.apart
  current := h.current

/-- The text of the current piece changes, at its place. -/
theorem Kept.change [DecidableEq ρ] (h : Kept text store j) {p : Piece ρ α τ}
    (hp : j.current = some p) {f : Piece ρ α τ → Piece ρ α τ} (hplace : (f p).place = p.place)
    (hstays : (f p).there = p.there) :
    Kept text (Function.update store p.place (text (f p))) (j.change f) := by
  have hthere : p.there = true := h.current p hp
  have hsplit := h.apart
  rw [pieces, hp, Option.toList_some, List.pairwise_append] at hsplit
  obtain ⟨hclosed, -, hlast⟩ := hsplit
  refine ⟨fun q hq hq' => ?_, ?_, fun q hq => ?_⟩
  · rw [pieces_change hp, List.mem_append, List.mem_singleton] at hq
    rcases hq with hq | rfl
    · have hne : q.place ≠ p.place := hlast q hq p (List.mem_singleton_self p) hq' hthere
      rw [Function.update_of_ne hne]
      exact h.texts q (mem_pieces.mpr (.inl hq)) hq'
    · rw [hplace, Function.update_self]
  · rw [pieces_change hp, List.pairwise_append]
    refine ⟨hclosed, List.pairwise_singleton .., fun q hq r hr hq' _ => ?_⟩
    rw [List.mem_singleton.mp hr, hplace]
    exact hlast q hq p (List.mem_singleton_self p) hq' hthere
  · rw [Journal.change, hp, Option.map_some] at hq
    obtain rfl := Option.some.inj hq
    exact hstays.trans hthere

/-- The next piece begins at a place where nothing is that stays. -/
theorem Kept.turn (h : Kept text store j) {kept : ρ → Bool} {next : Option (Piece ρ α τ)}
    (hsame : ∀ p ∈ j.pieces, p.there = true → kept p.place = true →
      store' p.place = store p.place)
    (hfresh : ∀ p ∈ next, p.there = true ∧ kept p.place = false ∧ store' p.place = text p)
    (htext : ∀ p : Piece ρ α τ, p.there = true → kept p.place = true →
      text (remaining kept p) = text p) :
    Kept text store' (j.turn kept next) := by
  have hremains : ∀ p : Piece ρ α τ, (remaining kept p).there = true →
      p.there = true ∧ kept p.place = true := by
    intro p hp
    simpa [remaining] using hp
  refine ⟨fun q hq hq' => ?_, ?_, fun q hq => (hfresh q hq).1⟩
  · rw [pieces_turn, List.mem_append, Option.mem_toList] at hq
    rcases hq with hq | hq
    · obtain ⟨p, hp, rfl⟩ := List.mem_map.mp hq
      obtain ⟨hthere, hkept⟩ := hremains p hq'
      rw [htext p hthere hkept]
      exact (hsame p hp hthere hkept).trans (h.texts p hp hthere)
    · exact (hfresh q hq).2.2
  · rw [pieces_turn, List.pairwise_append]
    refine ⟨?_, ?_, fun q hq r hr hq' hr' => ?_⟩
    · rw [List.pairwise_map]
      exact h.apart.imp fun hpq hp hq => hpq (hremains _ hp).1 (hremains _ hq).1
    · cases next <;> simp
    · obtain ⟨p, -, rfl⟩ := List.mem_map.mp hq
      have hnew := (hfresh r (Option.mem_toList.mp hr)).2.1
      intro heq
      have hstays : kept r.place = true := heq ▸ (hremains p hq').2
      rw [hnew] at hstays
      cases hstays

end Journal

end MuonDetector.Library
