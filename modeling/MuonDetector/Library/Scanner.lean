import Mathlib.Data.List.Basic

/-!
# Scanners that take one symbol at a time

A scanner has a state and, on each symbol, may emit one value. Unlike a parser of
a buffer it never looks back: what it has read of the frame at hand is in its
state. A *tracker* names these symbols. It gives in return that the emitted values
stand in the input as disjoint frames in order, that frames written one after the
other are read back, and how long the scanner can stay inside a frame.
-/

namespace MuonDetector.Library.Scanner

variable {σ β μ : Type*}

/-- The final state and the values emitted. -/
def scan (step : σ → β → σ × Option μ) : σ → List β → σ × List μ
  | s, [] => (s, [])
  | s, b :: bs =>
    let r := step s b
    let t := scan step r.1 bs
    (t.1, r.2.toList ++ t.2)

/-- The same, one chunk after the other. -/
def scanChunks (step : σ → β → σ × Option μ) : σ → List (List β) → σ × List μ
  | s, [] => (s, [])
  | s, c :: cs =>
    let r := scan step s c
    let t := scanChunks step r.1 cs
    (t.1, r.2 ++ t.2)

variable {step : σ → β → σ × Option μ}

@[simp] theorem scan_nil (s : σ) : scan step s [] = (s, []) := rfl

theorem scan_cons (s : σ) (b : β) (bs : List β) : scan step s (b :: bs) =
    ((scan step (step s b).1 bs).1, (step s b).2.toList ++ (scan step (step s b).1 bs).2) := rfl

theorem scan_cons_none {s t : σ} {b : β} (h : step s b = (t, none)) (bs : List β) :
    scan step s (b :: bs) = scan step t bs := by
  rw [scan_cons, h]
  rfl

theorem scan_cons_some {s t : σ} {b : β} {m : μ} (h : step s b = (t, some m)) (bs : List β) :
    scan step s (b :: bs) = ((scan step t bs).1, m :: (scan step t bs).2) := by
  rw [scan_cons, h]
  rfl

theorem scan_append (s : σ) (xs ys : List β) : scan step s (xs ++ ys) =
    ((scan step (scan step s xs).1 ys).1,
      (scan step s xs).2 ++ (scan step (scan step s xs).1 ys).2) := by
  induction xs generalizing s with
  | nil => rfl
  | cons x xs ih => rw [List.cons_append, scan_cons, ih, scan_cons, List.append_assoc]

/-- **The cuts between the chunks do not matter.** -/
theorem scanChunks_eq (s : σ) (cs : List (List β)) :
    scanChunks step s cs = scan step s cs.flatten := by
  induction cs generalizing s with
  | nil => rfl
  | cons c cs ih => rw [List.flatten_cons, scan_append, scanChunks, ih]

/-! ## Frames in the input -/

/-- The frames stand in `w` one after the other without overlap, with `tail` at its end
after all of them. -/
def InOrder (tail : List β) : List (List β) → List β → Prop
  | [], w => tail <:+ w
  | f :: fs, w => ∃ gap rest, w = gap ++ f ++ rest ∧ InOrder tail fs rest

theorem InOrder.prepend {tail : List β} {fs : List (List β)} {w : List β}
    (h : InOrder tail fs w) (gap : List β) : InOrder tail fs (gap ++ w) := by
  cases fs with
  | nil => exact h.trans (List.suffix_append gap w)
  | cons f fs =>
    obtain ⟨gap', rest, rfl, hrest⟩ := h
    exact ⟨gap ++ gap', rest, by simp only [List.append_assoc], hrest⟩

theorem InOrder.forget {tail : List β} {fs : List (List β)} {w : List β}
    (h : InOrder tail fs w) : InOrder [] fs w := by
  induction fs generalizing w with
  | nil => exact List.nil_suffix
  | cons f fs ih =>
    obtain ⟨gap, rest, hw, hrest⟩ := h
    exact ⟨gap, rest, hw, ih hrest⟩

/-- `since s p`: in the state `s` the symbols read of the frame at hand are `p`. The next
symbol either goes on with the frame, or shows that there is none and is kept at most
itself, or completes it. No frame is the beginning of another. -/
structure Tracker (step : σ → β → σ × Option μ) (Frame : μ → List β → Prop) where
  since : σ → List β → Prop
  next : ∀ {s p}, since s p → ∀ b,
    (∃ t, step s b = (t, none) ∧ since t (p ++ [b]) ∧ ∀ m, ¬ Frame m (p ++ [b])) ∨
    (∃ t q, step s b = (t, none) ∧ since t q ∧ q <:+ [b] ∧ ∀ m rest, ¬ Frame m (p ++ b :: rest)) ∨
    (∃ t m, step s b = (t, some m) ∧ since t [] ∧ Frame m (p ++ [b]))
  unique : ∀ {m m' f rest}, Frame m f → Frame m' (f ++ rest) → m' = m ∧ rest = []

variable {Frame : μ → List β → Prop}

/-- **What is emitted are frames of the input, disjoint and in order.** -/
theorem Tracker.frames (k : Tracker step Frame) {s : σ} {p : List β} (hs : k.since s p)
    (bs : List β) :
    ∃ fs q, List.Forall₂ Frame (scan step s bs).2 fs ∧ k.since (scan step s bs).1 q ∧
      InOrder q fs (p ++ bs) := by
  induction bs generalizing s p with
  | nil => exact ⟨[], p, .nil, hs, by rw [List.append_nil]; exact List.suffix_refl p⟩
  | cons b bs ih =>
    have hsplit : p ++ b :: bs = (p ++ [b]) ++ bs := by rw [List.append_assoc]; rfl
    rcases k.next hs b with ⟨t, hr, ht, -⟩ | ⟨t, q, hr, hq, ⟨gap, hgap⟩, -⟩ | ⟨t, m, hr, ht, hm⟩
    · obtain ⟨fs, q, hfs, hq, hord⟩ := ih ht
      rw [scan_cons_none hr, hsplit]
      exact ⟨fs, q, hfs, hq, hord⟩
    · obtain ⟨fs, q', hfs, hq', hord⟩ := ih hq
      rw [scan_cons_none hr, hsplit, ← hgap, ← List.append_assoc, List.append_assoc]
      exact ⟨fs, q', hfs, hq', hord.prepend (p ++ gap)⟩
    · obtain ⟨fs, q, hfs, hq, hord⟩ := ih ht
      rw [scan_cons_some hr, hsplit]
      exact ⟨(p ++ [b]) :: fs, q, .cons hm hfs, hq, [], bs, rfl, hord⟩

/-- The rest of a frame that has begun is read to its end. -/
theorem Tracker.reads_rest (k : Tracker step Frame) {s : σ} {p rest : List β} {m : μ}
    (hs : k.since s p) (hrest : rest ≠ []) (hf : Frame m (p ++ rest)) :
    ∃ t, scan step s rest = (t, [m]) ∧ k.since t [] := by
  induction rest generalizing s p with
  | nil => exact absurd rfl hrest
  | cons b rest ih =>
    have hsplit : p ++ b :: rest = (p ++ [b]) ++ rest := by rw [List.append_assoc]; rfl
    rcases k.next hs b with ⟨t, hr, ht, hno⟩ | ⟨t, q, -, -, -, hno⟩ | ⟨t, m', hr, ht, hm⟩
    · rw [hsplit] at hf
      have hmore : rest ≠ [] := by
        rintro rfl
        exact hno m (by simpa using hf)
      obtain ⟨t', hscan, ht'⟩ := ih ht hmore hf
      exact ⟨t', by rw [scan_cons_none hr, hscan], ht'⟩
    · exact absurd hf (hno m rest)
    · rw [hsplit] at hf
      obtain ⟨rfl, rfl⟩ := k.unique hm hf
      exact ⟨t, by rw [scan_cons_some hr, scan_nil], ht⟩

/-- **Frames written one after the other are read back.** -/
theorem Tracker.reads (k : Tracker step Frame) {ms : List μ} {fs : List (List β)}
    (hfs : List.Forall₂ Frame ms fs) (hne : ∀ f ∈ fs, f ≠ []) {s : σ} (hs : k.since s []) :
    ∃ t, scan step s fs.flatten = (t, ms) ∧ k.since t [] := by
  induction hfs generalizing s with
  | nil => exact ⟨s, rfl, hs⟩
  | @cons m f ms fs hf _ ih =>
    obtain ⟨t, hscan, ht⟩ := k.reads_rest hs (hne f List.mem_cons_self) hf
    obtain ⟨t', hscan', ht'⟩ := ih (fun f' hf' => hne f' (List.mem_cons_of_mem f hf')) ht
    refine ⟨t', ?_, ht'⟩
    rw [List.flatten_cons, scan_append, hscan, hscan']
    rfl

/-- **When no beginning is longer than `N`, the scanner is back at the beginning of a
frame within `N + 1` symbols less those already read.** -/
theorem Tracker.returns (k : Tracker step Frame) {N : Nat}
    (hN : ∀ s p, k.since s p → p.length ≤ N) {s : σ} {p : List β} (hs : k.since s p)
    {bs : List β} (hb : N + 1 ≤ p.length + bs.length) :
    ∃ n q, n ≤ N + 1 - p.length ∧ k.since (scan step s (bs.take n)).1 q ∧ q.length ≤ 1 := by
  have hle := hN s p hs
  induction bs generalizing s p with
  | nil => simp at hb; omega
  | cons b bs ih =>
    by_cases hp : p.length ≤ 1
    · exact ⟨0, p, Nat.zero_le _, hs, hp⟩
    · rw [List.length_cons] at hb
      rcases k.next hs b with ⟨t, hr, ht, -⟩ | ⟨t, q, hr, hq, hqb, -⟩ | ⟨t, m, hr, ht, -⟩
      · have hlen : (p ++ [b]).length = p.length + 1 := by simp
        obtain ⟨n, q, hn, hq, hq1⟩ := ih ht (by omega) (hN t _ ht)
        refine ⟨n + 1, q, by omega, ?_, hq1⟩
        rw [List.take_succ_cons, scan_cons_none hr]
        exact hq
      · refine ⟨1, q, by omega, ?_, hqb.length_le⟩
        rw [List.take_succ_cons, List.take_zero, scan_cons_none hr]
        exact hq
      · refine ⟨1, [], by omega, ?_, Nat.zero_le 1⟩
        rw [List.take_succ_cons, List.take_zero, scan_cons_some hr]
        exact ht

end MuonDetector.Library.Scanner
