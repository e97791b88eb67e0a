import MuonDetector.Data.Histogram
import MuonDetector.Library.Exact
import Mathlib.Algebra.Order.BigOperators.Group.List

/-!
# Histograms over exact numbers

What the functions of a histogram come to when nothing is rounded. An entry is added in
one place, and a histogram that is given a new range adds its bins one by one.
-/

namespace MuonDetector.Data.Histogram

open MuonDetector.Library.Floats MuonDetector.Library.Exact

/-! ## In the terms of the field -/

variable {K : Type} [Field K]

/-- The sum of the contents of the bins. -/
def content (entries : List (Int × K)) : K := (entries.map Prod.snd).sum

@[simp]
theorem content_nil : content ([] : List (Int × K)) = 0 := rfl

@[simp]
theorem content_cons (entry : Int × K) (entries : List (Int × K)) :
    content (entry :: entries) = entry.2 + content entries := List.sum_cons

@[simp]
theorem content_append (entries rest : List (Int × K)) :
    content (entries ++ rest) = content entries + content rest := by
  rw [content, List.map_append, List.sum_append]
  rfl

/-- Where a value lies, counted in bins from the centre of the first one. -/
def scaled (h : Histogram K) (value : K) : K :=
  (value - h.min) / (h.max - h.min) * ((h.nrBins - 1 : Int) : K)

/-- The histogram with a new range and nothing in it. -/
def emptied (h : Histogram K) (center width : K) : Histogram K :=
  { h with
    min := center - width / 2
    max := center + width / 2
    histogramMap := []
    underflow := 0
    overflow := 0 }

variable [LinearOrder K]

theorem emptied_range [IsStrictOrderedRing K] {h : Histogram K} (center : K) {width : K}
    (hwidth : 0 < width) :
    (h.emptied center width).min < (h.emptied center width).max := by
  show center - width / 2 < center + width / 2
  linarith

theorem content_nonneg [IsStrictOrderedRing K] {entries : List (Int × K)}
    (hnonneg : ∀ entry ∈ entries, 0 ≤ entry.2) : 0 ≤ content entries := by
  apply List.sum_nonneg
  intro value hvalue
  obtain ⟨entry, hentry, rfl⟩ := List.mem_map.mp hvalue
  exact hnonneg entry hentry

theorem content_pos [IsStrictOrderedRing K] {entries : List (Int × K)}
    (hnonneg : ∀ entry ∈ entries, 0 ≤ entry.2)
    (hsome : ∃ entry ∈ entries, 0 < entry.2) : 0 < content entries := by
  obtain ⟨entry, hentry, hpos⟩ := hsome
  obtain ⟨pre, post, rfl⟩ := List.append_of_mem hentry
  have hpre : 0 ≤ content pre := content_nonneg fun entry hentry =>
    hnonneg entry (by simp [hentry])
  have hpost : 0 ≤ content post := content_nonneg fun entry hentry =>
    hnonneg entry (by simp [hentry])
  rw [content_append, content_cons]
  linarith

variable [FloorRing K] [LongOverflow K]

theorem getEntries_exact (h : Histogram K) :
    h.getEntries = h.underflow + h.overflow + content h.histogramMap := by
  have hfold : ∀ (entries : List (Int × K)) (start : K),
      entries.foldl (fun sum entry => sum + entry.2) start = start + content entries := by
    intro entries
    induction entries with
    | nil => exact fun start => (add_zero start).symm
    | cons entry entries ih =>
      intro start
      rw [List.foldl_cons, ih, content, content, List.map_cons, List.sum_cons, add_assoc]
  exact hfold h.histogramMap (h.underflow + h.overflow)

theorem rescales_exact (h : Histogram K) (x : K) :
    h.rescales x = (h.autoscale && decide (h.getEntries < 1e-6) &&
      (decide (h.value2Bin x < 0) || decide (h.nrBins ≤ h.value2Bin x))) := rfl

theorem epsilon_exact : (epsilon : K) = 1 / 2 ^ 52 := by
  show (1.0 : K) / (((2 : Int) ^ 52 : Int) : K) = 1 / 2 ^ 52
  norm_num

/-- The contents that a new range keeps. -/
def kept (h : Histogram K) : List (Int × K) :=
  h.histogramMap.filter fun entry => decide (epsilon < |entry.2|)

/-! ## One entry -/

/-- What decides where a value belongs. -/
structure SameRange (h h' : Histogram K) : Prop where
  min_eq : h'.min = h.min
  max_eq : h'.max = h.max
  nrBins_eq : h'.nrBins = h.nrBins
  autoscale_eq : h'.autoscale = h.autoscale

theorem sameRange_addAt (h : Histogram K) (bin : Int) (mult : K) :
    SameRange h (h.addAt bin mult) := by
  unfold addAt
  split
  · exact ⟨rfl, rfl, rfl, rfl⟩
  · split
    · exact ⟨rfl, rfl, rfl, rfl⟩
    · exact ⟨rfl, rfl, rfl, rfl⟩

theorem SameRange.value2Bin {h h' : Histogram K} (hsame : SameRange h h') :
    h'.value2Bin = h.value2Bin := by
  funext value
  unfold Histogram.value2Bin
  rw [hsame.min_eq, hsame.max_eq, hsame.nrBins_eq]

theorem content_addTo (bin : Int) (mult : K) (entries : List (Int × K)) :
    content (addTo bin mult entries) = content entries + mult := by
  induction entries with
  | nil =>
    show (0.0 : K) + mult + 0 = 0 + mult
    norm_num
  | cons entry entries ih =>
    obtain ⟨key, value⟩ := entry
    rw [addTo]
    split
    · show (0.0 : K) + mult + content ((key, value) :: entries) = _
      norm_num
      exact add_comm _ _
    · split
      · show value + mult + content entries = value + content entries + mult
        ring
      · show value + content (addTo bin mult entries) = value + content entries + mult
        rw [ih, add_assoc]

/-- An entry is added once, wherever it belongs. -/
theorem getEntries_addAt (h : Histogram K) (bin : Int) (mult : K) :
    (h.addAt bin mult).getEntries = h.getEntries + mult := by
  rw [getEntries_exact, getEntries_exact, addAt]
  split
  · show h.underflow + mult + h.overflow + content h.histogramMap = _
    ring
  · split
    · show h.underflow + (h.overflow + mult) + content h.histogramMap = _
      ring
    · show h.underflow + h.overflow + content (addTo bin mult h.histogramMap) = _
      rw [content_addTo]
      ring

theorem fill_stays {h : Histogram K} (x mult : K) (hstays : ¬h.rescales x = true) :
    fill 2 h x mult = some (h.addAt (h.value2Bin x) mult) := by
  rw [fill, if_neg hstays]

/-! ## A new range -/

/-- What a move of the range takes out of a histogram: both counters, and the contents that
do not count. -/
def dropped (h : Histogram K) : K :=
  h.underflow + h.overflow +
    content (h.histogramMap.filter fun entry => !decide (epsilon < |entry.2|))

/-- What is lost when the histogram is filled with the value. -/
def lost (h : Histogram K) (x : K) : K := if h.rescales x = true then h.dropped else 0

theorem kept_add_dropped (h : Histogram K) : content h.kept + h.dropped = h.getEntries := by
  have hparts : content h.kept +
      content (h.histogramMap.filter fun entry => !decide (epsilon < |entry.2|)) =
      content h.histogramMap := by
    rw [content, content, ← List.sum_append, ← List.map_append, kept]
    exact ((List.filter_append_perm _ h.histogramMap).map Prod.snd).sum_eq
  rw [getEntries_exact, dropped, ← hparts]
  ring

/-- The kept contents of the bins are added one by one, each at the centre of its bin. -/
def refilled (h : Histogram K) (center width : K) (entries : List (Int × K)) : Histogram K :=
  entries.foldl
    (fun new entry => new.addAt ((h.emptied center width).value2Bin (h.bin2Value entry.1)) entry.2)
    (h.emptied center width)

theorem sameRange_refilled (h : Histogram K) (center width : K) (entries : List (Int × K)) :
    SameRange (h.emptied center width) (h.refilled center width entries) := by
  unfold refilled
  refine List.foldlRecOn entries _ ⟨rfl, rfl, rfl, rfl⟩ ?_
  intro new hnew entry _
  obtain ⟨hmin, hmax, hbins, hauto⟩ := sameRange_addAt new
    ((h.emptied center width).value2Bin (h.bin2Value entry.1)) entry.2
  exact ⟨hmin.trans hnew.min_eq, hmax.trans hnew.max_eq, hbins.trans hnew.nrBins_eq,
    hauto.trans hnew.autoscale_eq⟩

theorem getEntries_refilled (h : Histogram K) (center width : K) (entries : List (Int × K)) :
    (h.refilled center width entries).getEntries = content entries := by
  induction entries using List.reverseRecOn with
  | nil =>
    rw [getEntries_exact]
    show (0 : K) + 0 + 0 = 0
    ring
  | append_singleton entries entry ih =>
    rw [refilled, List.foldl_append] at *
    simp only [List.foldl_cons, List.foldl_nil, getEntries_addAt, ih]
    simp [content]

section

variable [IsStrictOrderedRing K]

/-- What is kept is something. -/
theorem ne_zero_of_kept {h : Histogram K} {entry : Int × K} (hentry : entry ∈ h.kept) :
    entry.2 ≠ 0 := by
  have heps : (0 : K) < epsilon := by
    rw [epsilon_exact]
    positivity
  exact abs_pos.mp (heps.trans (of_decide_eq_true (List.mem_filter.mp hentry).2))

theorem fabs_exact (x : K) : fabs x = |x| := by
  show (if x < (0.0 : K) then (0.0 : K) - x else x) = |x|
  norm_num
  split
  · next hx => exact (abs_of_neg hx).symm
  · next hx => exact (abs_of_nonneg (not_lt.mp hx)).symm

theorem value2Bin_exact {h : Histogram K} (hrange : h.min < h.max) (value : K) :
    h.value2Bin value = (lround (h.scaled value)).bmod (2 ^ 32) := by
  have hnot : ¬h.max - h.min ≤ (0.0 : K) := by
    norm_num
    exact hrange
  exact if_neg hnot

theorem bin2Value_exact {h : Histogram K} (hrange : h.min < h.max) (bin : Int) :
    h.bin2Value bin = (h.max - h.min) * bin / ((h.nrBins - 1 : Int) : K) + h.min := by
  have hnot : ¬h.max - h.min ≤ (0.0 : K) := by
    norm_num
    exact hrange
  exact if_neg hnot

/-- A new range keeps what is more than nothing in a bin. -/
theorem rescale_exact {h : Histogram K} (hrange : h.min < h.max) (hbins : 2 ≤ h.nrBins)
    (center : K) {width : K} (hwidth : 0 < width) :
    h.rescale center width = h.refilled center width h.kept := by
  have hnarrow : ¬width ≤ (0.0 : K) := by
    norm_num
    exact hwidth
  have hold : ¬(h.max - h.min ≤ (0.0 : K) ∨ h.nrBins ≤ 1) := by
    norm_num
    exact ⟨hrange, by omega⟩
  have hempty : ({ h with
      min := center - width / (2.0 : K)
      max := center + width / (2.0 : K)
      histogramMap := []
      underflow := (0.0 : K)
      overflow := (0.0 : K) } : Histogram K) = h.emptied center width := by
    unfold emptied
    norm_num
  have hfold : ∀ entries : List (Int × K),
      entries.foldl (fun new entry =>
        if fabs entry.2 ≤ epsilon then new
        else new.addAt (new.value2Bin
          ((h.max - h.min) * entry.1 / ((h.nrBins - 1 : Int) : K) + h.min)) entry.2)
        (h.emptied center width) =
      h.refilled center width (entries.filter fun entry => decide (epsilon < |entry.2|)) := by
    intro entries
    induction entries using List.reverseRecOn with
    | nil => rfl
    | append_singleton entries entry ih =>
      rw [List.foldl_append, ih, List.filter_append, List.filter_singleton, List.foldl_cons,
        List.foldl_nil, fabs_exact]
      by_cases hnone : |entry.2| ≤ epsilon
      · rw [if_pos hnone, decide_eq_false (not_lt.mpr hnone), cond_false, List.append_nil]
      · rw [if_neg hnone, decide_eq_true (not_le.mp hnone), cond_true, ← bin2Value_exact hrange,
          (sameRange_refilled h center width _).value2Bin]
        rw [refilled, refilled, List.foldl_append]
        rfl
  rw [rescale, if_neg hnarrow]
  simp only
  rw [if_neg hold]
  refine Eq.trans ?_ (hfold h.histogramMap)
  rw [← hempty]
  rfl

/-- Moving the range keeps the sum of what is kept. -/
theorem getEntries_rescale {h : Histogram K} (hrange : h.min < h.max) (hbins : 2 ≤ h.nrBins)
    (center : K) {width : K} (hwidth : 0 < width) :
    (h.rescale center width).getEntries = content h.kept := by
  rw [rescale_exact hrange hbins center hwidth, getEntries_refilled]

end

end MuonDetector.Data.Histogram
