import MuonDetector.Data.ExactHistogram
import MuonDetector.Library.Machine

/-!
# Histograms over their runs

A histogram that is filled moves its range to the first value, and is then filled with it. So
a fill calls itself at most once. The range stays one. A fill adds its weight, and loses what
is dropped when the range is moved. From a new histogram on this is nothing.
-/

namespace MuonDetector.Data.Histogram

open MuonDetector.Library.Floats MuonDetector.Library.Exact MuonDetector.Library.Machine

variable {K : Type} [LinearOrder K]

/-- A range, at least two bins, and contents in the bins. -/
structure Ranged (h : Histogram K) : Prop where
  range : h.min < h.max
  twoBins : 2 ≤ h.nrBins
  int : h.nrBins < 2 ^ 31
  binned : h.Binned h.nrBins

theorem SameRange.ranged {h h' : Histogram K} (hsame : SameRange h h') (hr : Ranged h)
    (hbinned : h'.Binned h.nrBins) : Ranged h' := by
  obtain ⟨hmin, hmax, hbins, -⟩ := hsame
  refine ⟨?_, ?_, ?_, ?_⟩
  · rw [hmin, hmax]
    exact hr.range
  · rw [hbins]
    exact hr.twoBins
  · rw [hbins]
    exact hr.int
  · rw [hbins]
    exact hbinned

variable [Field K]

/-- Nothing, or at least the weight below which a histogram counts as empty. -/
def Weight (amount : K) : Prop := amount = 0 ∨ 1e-6 ≤ amount

structure Weighed (h : Histogram K) : Prop where
  underflow : Weight h.underflow
  overflow : Weight h.overflow
  bins : ∀ entry ∈ h.histogramMap, Weight entry.2

/-- The weights and widths that an operation is given. -/
def Operation.Proper : Operation K → Prop
  | .fill _ mult => 1e-6 ≤ mult
  | .rescaleToEntries => True
  | .rescaleAround _ => True
  | .rescale _ width => 0 < width
  | .clear => True

/-- What is less than the weight of an entry is nothing. -/
theorem Weight.eq_zero {amount : K} (h : Weight amount) (hlt : amount < 1e-6) : amount = 0 :=
  h.resolve_right (not_le.mpr hlt)

theorem weighed_emptied (h : Histogram K) (center width : K) :
    Weighed (h.emptied center width) :=
  ⟨.inl rfl, .inl rfl, fun _ hentry => nomatch hentry⟩

theorem weighed_create [FloorRing K] [LongOverflow K] (nrBins : Int) (min max : K)
    (autoscale : Bool) : Weighed (create nrBins min max autoscale) := by
  have hzero : (0.0 : K) = 0 := by norm_num
  exact ⟨.inl hzero, .inl hzero, fun _ hentry => nomatch hentry⟩

variable [IsStrictOrderedRing K]

theorem Weight.nonneg {amount : K} (h : Weight amount) : 0 ≤ amount := by
  have hpos : (0 : K) < 1e-6 := by norm_num
  rcases h with rfl | h
  · exact le_refl 0
  · linarith

theorem Weight.add {amount mult : K} (h : Weight amount) (hmult : 1e-6 ≤ mult) :
    Weight (amount + mult) := by
  right
  have hnonneg := h.nonneg
  linarith

/-! ## The range -/

variable [FloorRing K] [LongOverflow K]

theorem Ranged.rescale {h : Histogram K} (hr : Ranged h) (center : K) {width : K}
    (hwidth : 0 < width) : Ranged (h.rescale center width) := by
  have hempty : Ranged (h.emptied center width) :=
    ⟨emptied_range center hwidth, hr.twoBins, hr.int, .of_empty rfl rfl⟩
  have hbinned := hr.binned.rescale center width
  rw [rescale_exact hr.range hr.twoBins center hwidth] at hbinned ⊢
  exact (sameRange_refilled h center width h.kept).ranged hempty hbinned

theorem Ranged.rescaleAround {h : Histogram K} (hr : Ranged h) (center : K) :
    Ranged (h.rescaleAround center) :=
  hr.rescale center (sub_pos.mpr hr.range)

/-- Each of the four changes is one to another range. -/
theorem rescaleToEntries_ranged {h : Histogram K} (hr : Ranged h) :
    h.rescaleToEntries = h ∨
      ∃ center width, 0 < width ∧ h.rescaleToEntries = h.rescale center width := by
  have hpos : 0 < h.max - h.min := sub_pos.mpr hr.range
  obtain hsame | ⟨center, width, hrescale, hwidth⟩ := rescaleToEntries_cases h
  · exact .inl hsame
  · refine .inr ⟨center, width, ?_, hrescale⟩
    rcases hwidth with rfl | rfl | rfl | rfl
    · show 0 < (1.1 : K) * (h.max - h.min)
      linarith
    · show 0 < h.max - (h.max - (h.max - h.min) * (1.2 : K))
      linarith
    · show 0 < h.min + (h.max - h.min) * (1.2 : K) - h.min
      linarith
    · show 0 < (0.8 : K) * (h.max - h.min)
      linarith

/-- The centre of a range lies in a bin. -/
theorem center_in_bins {h : Histogram K} (hr : Ranged h) (center : K) {width : K}
    (hwidth : 0 < width) :
    0 ≤ (h.rescale center width).value2Bin center ∧
      (h.rescale center width).value2Bin center < h.nrBins := by
  have htwo := hr.twoBins
  have hint := hr.int
  have hscaled : (h.emptied center width).scaled center = ((h.nrBins - 1 : Int) : K) / 2 := by
    have hnumerator : center - (center - width / 2) = width / 2 := by ring
    have hwide : center + width / 2 - (center - width / 2) = width := by ring
    show (center - (center - width / 2)) / (center + width / 2 - (center - width / 2)) *
      ((h.nrBins - 1 : Int) : K) = _
    rw [hnumerator, hwide]
    field_simp
  have hcast : ((h.nrBins - 1 : Int) : K) = (h.nrBins : K) - 1 := by push_cast; ring
  have hpos : (2 : K) ≤ h.nrBins := by exact_mod_cast htwo
  have hlow : ¬roundAway (((h.nrBins - 1 : Int) : K) / 2) < 0 := by
    rw [roundAway_neg, hcast]
    linarith
  have hhigh : ¬h.nrBins ≤ roundAway (((h.nrBins - 1 : Int) : K) / 2) := by
    rw [le_roundAway (by omega), hcast]
    linarith
  have hlong : inLong (roundAway (((h.nrBins - 1 : Int) : K) / 2)) := by
    constructor <;> omega
  rw [rescale_exact hr.range hr.twoBins center hwidth,
    (sameRange_refilled h center width h.kept).value2Bin,
    value2Bin_exact (emptied_range center hwidth), hscaled, lround, if_pos hlong,
    Int.bmod_eq_of_le (by omega) (by omega)]
  omega

/-- After one move of the range the value is inside of it. -/
theorem fill_moves {h : Histogram K} (hr : Ranged h) (x mult : K) (hmoves : h.rescales x = true) :
    fill 2 h x mult =
      some ((h.rescaleAround x).addAt ((h.rescaleAround x).value2Bin x) mult) := by
  obtain ⟨hlow, hhigh⟩ := center_in_bins hr x (sub_pos.mpr hr.range)
  have hbins : (h.rescaleAround x).nrBins = h.nrBins :=
    (hr.binned.rescale x (h.max - h.min)).nrBins_eq
  have hstays : ¬(h.rescaleAround x).rescales x = true := by
    rw [rescales_exact, hbins]
    simp only [Histogram.rescaleAround, Bool.and_eq_true, Bool.or_eq_true, decide_eq_true_eq,
      not_lt.mpr hlow, not_le.mpr hhigh, or_self, and_false, not_false_eq_true]
  rw [fill, if_pos hmoves, fill, if_neg hstays]

/-! ## The weights -/

theorem Weighed.addAt {h : Histogram K} (hw : Weighed h) (bin : Int) {mult : K}
    (hmult : 1e-6 ≤ mult) : Weighed (h.addAt bin mult) := by
  unfold Histogram.addAt
  split
  · exact ⟨hw.underflow.add hmult, hw.overflow, hw.bins⟩
  · split
    · exact ⟨hw.underflow, hw.overflow.add hmult, hw.bins⟩
    · refine ⟨hw.underflow, hw.overflow, ?_⟩
      show ∀ entry ∈ addTo bin mult h.histogramMap, Weight entry.2
      have hnew : Weight ((0.0 : K) + mult) := by
        right
        norm_num
        norm_num at hmult
        exact hmult
      have hbins := hw.bins
      generalize h.histogramMap = entries at hbins
      induction entries with
      | nil =>
        intro entry hentry
        obtain rfl := List.mem_singleton.mp hentry
        exact hnew
      | cons first rest ih =>
        obtain ⟨hfirst, hrest⟩ := List.forall_mem_cons.mp hbins
        rw [addTo]
        split
        · exact List.forall_mem_cons.mpr ⟨hnew, hbins⟩
        · split
          · exact List.forall_mem_cons.mpr ⟨hfirst.add hmult, hrest⟩
          · exact List.forall_mem_cons.mpr ⟨hfirst, ih hrest⟩

theorem Weighed.rescale {h : Histogram K} (hw : Weighed h) (hr : Ranged h) (center : K)
    {width : K} (hwidth : 0 < width) : Weighed (h.rescale center width) := by
  rw [rescale_exact hr.range hr.twoBins center hwidth, refilled]
  refine List.foldlRecOn h.kept _ (weighed_emptied h center width) ?_
  intro new hnew entry hentry
  have hmem : entry ∈ h.histogramMap := List.mem_of_mem_filter hentry
  exact hnew.addAt _ ((hw.bins entry hmem).resolve_left (ne_zero_of_kept hentry))

/-- A histogram without the weight of an entry has nothing in it. -/
theorem Weighed.nothing {h : Histogram K} (hw : Weighed h) (hfew : h.getEntries < 1e-6) :
    h.dropped = 0 := by
  rw [getEntries_exact] at hfew
  have hunder := hw.underflow.nonneg
  have hover := hw.overflow.nonneg
  have hamounts : ∀ a ∈ h.histogramMap.map Prod.snd, 0 ≤ a := by
    intro a ha
    obtain ⟨entry, hentry, rfl⟩ := List.mem_map.mp ha
    exact (hw.bins entry hentry).nonneg
  have hcontent : 0 ≤ content h.histogramMap :=
    content_nonneg fun entry hentry => (hw.bins entry hentry).nonneg
  have hbins : ∀ entry ∈ h.histogramMap, entry.2 = 0 := by
    intro entry hentry
    have hle : entry.2 ≤ content h.histogramMap :=
      List.single_le_sum hamounts entry.2 (List.mem_map_of_mem hentry)
    exact (hw.bins entry hentry).eq_zero (by linarith)
  have hnone : content (h.histogramMap.filter fun entry =>
      !decide (epsilon < |entry.2|)) = 0 := by
    apply List.sum_eq_zero
    intro a ha
    obtain ⟨entry, hentry, rfl⟩ := List.mem_map.mp ha
    exact hbins entry (List.mem_of_mem_filter hentry)
  rw [dropped, hw.underflow.eq_zero (by linarith), hw.overflow.eq_zero (by linarith), hnone]
  ring

theorem Weighed.lost {h : Histogram K} (hw : Weighed h) (x : K) : h.lost x = 0 := by
  rw [Histogram.lost]
  split
  · next hmoves =>
    rw [rescales_exact] at hmoves
    simp only [Bool.and_eq_true, decide_eq_true_eq] at hmoves
    exact hw.nothing hmoves.1.2
  · rfl

/-! ## One operation -/

/-- A fill adds its weight, when nothing is lost. -/
theorem fill_adds {h : Histogram K} (hr : Ranged h) (x mult : K) :
    ∃ h', fill 2 h x mult = some h' ∧ h'.getEntries = h.getEntries + mult - h.lost x := by
  have hwidth : 0 < h.max - h.min := sub_pos.mpr hr.range
  by_cases hmoves : h.rescales x = true
  · refine ⟨_, fill_moves hr x mult hmoves, ?_⟩
    have hmoved : (h.rescaleAround x).getEntries = content h.kept :=
      getEntries_rescale hr.range hr.twoBins x hwidth
    rw [getEntries_addAt, hmoved, lost, if_pos hmoves, ← kept_add_dropped h]
    ring
  · refine ⟨_, fill_stays x mult hmoves, ?_⟩
    rw [getEntries_addAt, lost, if_neg hmoves, sub_zero]

/-- What an operation keeps. -/
structure Kept (h h' : Histogram K) : Prop where
  ranged : Ranged h'
  nrBins_eq : h'.nrBins = h.nrBins
  weighed : Weighed h → Weighed h'

theorem kept_rescale {h : Histogram K} (hr : Ranged h) (center : K) {width : K}
    (hwidth : 0 < width) : Kept h (h.rescale center width) :=
  ⟨hr.rescale center hwidth, (hr.binned.rescale center width).nrBins_eq,
    fun hw => hw.rescale hr center hwidth⟩

theorem apply_kept {h : Histogram K} (hr : Ranged h) {operation : Operation K}
    (hproper : operation.Proper) : ∃ h', h.apply 2 operation = some h' ∧ Kept h h' := by
  have hwidth : 0 < h.max - h.min := sub_pos.mpr hr.range
  cases operation with
  | fill x mult =>
    by_cases hmoves : h.rescales x = true
    · obtain ⟨hranged, hbins, hweighed⟩ := kept_rescale hr x hwidth
      have hsame := sameRange_addAt (h.rescaleAround x) ((h.rescaleAround x).value2Bin x) mult
      refine ⟨_, fill_moves hr x mult hmoves, hsame.ranged hranged (hranged.binned.addAt _ mult),
        ?_, ?_⟩
      · exact hsame.nrBins_eq.trans hbins
      · exact fun hw => (hweighed hw).addAt _ hproper
    · have hsame := sameRange_addAt h (h.value2Bin x) mult
      exact ⟨_, fill_stays x mult hmoves, hsame.ranged hr (hr.binned.addAt _ mult),
        hsame.nrBins_eq, fun hw => hw.addAt _ hproper⟩
  | rescaleToEntries =>
    refine ⟨_, rfl, ?_⟩
    obtain hsame | ⟨center, width, hpos, hrescale⟩ := rescaleToEntries_ranged hr
    · rw [hsame]
      exact ⟨hr, rfl, id⟩
    · rw [hrescale]
      exact kept_rescale hr center hpos
  | rescaleAround center => exact ⟨_, rfl, kept_rescale hr center hwidth⟩
  | rescale center width => exact ⟨_, rfl, kept_rescale hr center hproper⟩
  | clear =>
    refine ⟨_, rfl, ⟨hr.range, hr.twoBins, hr.int, .of_empty rfl rfl⟩, rfl, ?_⟩
    intro _
    have hzero : (0.0 : K) = 0 := by norm_num
    exact ⟨.inl hzero, .inl hzero, fun _ hentry => nomatch hentry⟩

/-! ## The run -/

theorem run_kept {h : Histogram K} (hr : Ranged h) {operations : List (Operation K)}
    (hproper : ∀ operation ∈ operations, operation.Proper) :
    ∃ t, run (apply 2) h operations = some t ∧ Kept h t := by
  induction operations generalizing h with
  | nil => exact ⟨h, rfl, hr, rfl, id⟩
  | cons operation operations ih =>
    obtain ⟨hfirst, hrest⟩ := List.forall_mem_cons.mp hproper
    obtain ⟨h', happly, hkept⟩ := apply_kept hr hfirst
    obtain ⟨t, hrun, hkept'⟩ := ih hkept.ranged hrest
    exact ⟨t, run_cons_some.mpr ⟨h', happly, hrun⟩, hkept'.ranged,
      hkept'.nrBins_eq.trans hkept.nrBins_eq, fun hw => hkept'.weighed (hkept.weighed hw)⟩

/-- **A histogram over its runs.** From a range and at least two bins on every sequence of
fills, changes of the range and clears comes to an end, with a fill calling itself at most
once. It leaves a range, and contents in the bins only. Every fill adds its weight, less what
is lost when it moves the range, and nothing is lost if each content was nothing or at least
the weight of an entry, as in a new histogram. -/
theorem histogram_run (h : Histogram K) (hrange : h.min < h.max) (hbins : 2 ≤ h.nrBins)
    (hint : h.nrBins < 2 ^ 31) (hkeys : h.Binned h.nrBins) (operations : List (Operation K))
    (hproper : ∀ operation ∈ operations, operation.Proper) :
    ∃ t, run (apply 2) h operations = some t ∧ t.min < t.max ∧ t.nrBins = h.nrBins ∧
      (∀ entry ∈ t.histogramMap, 0 ≤ entry.1 ∧ entry.1 < t.nrBins) ∧
      ∀ pre x mult post, operations = pre ++ .fill x mult :: post →
        ∃ u u', run (apply 2) h pre = some u ∧ fill 2 u x mult = some u' ∧
          u'.getEntries = u.getEntries + mult - u.lost x ∧ (Weighed h → u.lost x = 0) := by
  have hr : Ranged h := ⟨hrange, hbins, hint, hkeys⟩
  obtain ⟨t, hrun, hkept⟩ := run_kept hr hproper
  refine ⟨t, hrun, hkept.ranged.range, hkept.nrBins_eq, hkept.ranged.binned.inRange, ?_⟩
  rintro pre x mult post rfl
  obtain ⟨u, hu, hkept'⟩ := run_kept hr fun operation hmem =>
    hproper operation (List.mem_append_left _ hmem)
  obtain ⟨u', hu', hentries⟩ := fill_adds hkept'.ranged x mult
  exact ⟨u, u', hu, hu', hentries, fun hw => (hkept'.weighed hw).lost x⟩

/-- Filled outside of its range, moved, filled again and cleared. -/
theorem histogram_run_moved :
    ∃ t, run (apply 2) (create 10 (0 : ℚ) 1 true)
        [.fill 5 1, .rescaleToEntries, .fill (1 / 2) 2, .clear] = some t ∧ t.min < t.max ∧
      ∃ u u', run (apply 2) (create 10 (0 : ℚ) 1 true) [.fill 5 1, .rescaleToEntries] = some u ∧
        fill 2 u (1 / 2) 2 = some u' ∧ u'.getEntries = u.getEntries + 2 := by
  have hproper : ∀ operation ∈ ([.fill 5 1, .rescaleToEntries, .fill (1 / 2) 2, .clear] :
      List (Operation ℚ)), operation.Proper := by
    intro operation hmem
    simp only [List.mem_cons, List.not_mem_nil, or_false] at hmem
    rcases hmem with rfl | rfl | rfl | rfl <;> norm_num [Operation.Proper]
  obtain ⟨t, hrun, hrange, -, -, hfills⟩ := histogram_run (create 10 (0 : ℚ) 1 true) zero_lt_one
    (by decide) (by decide) (binned_create 10 0 1 true) _ hproper
  obtain ⟨u, u', hu, hu', hentries, hnone⟩ := hfills [.fill 5 1, .rescaleToEntries] _ _ [.clear] rfl
  refine ⟨t, hrun, hrange, u, u', hu, hu', ?_⟩
  rw [hentries, hnone (weighed_create 10 0 1 true), sub_zero]

/-- A histogram with a tenth of the least weight in its underflow loses it when it is filled
with a value outside of its range. -/
theorem underflow_lost :
    ∃ h h' : Histogram ℚ, h.min < h.max ∧ 2 ≤ h.nrBins ∧ h.Binned h.nrBins ∧
      fill 2 h 5 1 = some h' ∧ h'.getEntries ≠ h.getEntries + 1 := by
  have hfill : ((fill 2 { create 10 (0 : ℚ) 1 true with underflow := 1e-7 } 5 1).map
      getEntries) = some 1 := by
    decide +kernel
  obtain ⟨h', hh', hentries⟩ := Option.map_eq_some_iff.mp hfill
  refine ⟨_, h', zero_lt_one, ?_, ?_, hh', ?_⟩
  · show (2 : Int) ≤ 10
    omega
  · exact .of_empty rfl rfl
  · rw [hentries]
    decide +kernel

end MuonDetector.Data.Histogram
