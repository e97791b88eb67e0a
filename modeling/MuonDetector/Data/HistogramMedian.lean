import MuonDetector.Data.ExactHistogram

/-!
# The median of a histogram

`getMedian` adds up the bins until it has passed the half of all entries. These include what
lies outside of the range, which the bins do not. So it is a median of the bins only if
counting the outside makes no difference, and without any value if there is as much outside
as in the bins.
-/

namespace MuonDetector.Data.Histogram

open MuonDetector.Library.Floats MuonDetector.Library.Exact MuonDetector.Library.SortedMaps

variable {K : Type} [Field K]

def contentBelow (h : Histogram K) (bin : Int) : K :=
  content (h.histogramMap.filter fun entry => decide (entry.1 < bin))

def contentUpTo (h : Histogram K) (bin : Int) : K :=
  content (h.histogramMap.filter fun entry => decide (entry.1 ≤ bin))

/-! ## Sums of the first bins -/

theorem contentBelow_split {h : Histogram K} (hordered : Ordered h.histogramMap)
    {pre post : List (Int × K)} {entry : Int × K}
    (hmap : h.histogramMap = pre ++ entry :: post) : h.contentBelow entry.1 = content pre := by
  rw [hmap] at hordered
  obtain ⟨-, hpost, hpre⟩ := List.pairwise_append.mp hordered
  have hkeep : pre.filter (fun other => decide (other.1 < entry.1)) = pre := by
    rw [List.filter_eq_self]
    exact fun other hother => decide_eq_true (hpre other hother entry List.mem_cons_self)
  have hdrop : (entry :: post).filter (fun other => decide (other.1 < entry.1)) = [] := by
    rw [List.filter_eq_nil_iff]
    intro other hother
    rw [decide_eq_true_eq, not_lt]
    rcases List.mem_cons.mp hother with rfl | hother
    · exact le_refl _
    · exact (List.rel_of_pairwise_cons hpost hother).le
  rw [contentBelow, hmap, List.filter_append, hkeep, hdrop, List.append_nil]

theorem contentUpTo_split {h : Histogram K} (hordered : Ordered h.histogramMap)
    {pre post : List (Int × K)} {entry : Int × K}
    (hmap : h.histogramMap = pre ++ entry :: post) :
    h.contentUpTo entry.1 = content pre + entry.2 := by
  rw [hmap] at hordered
  obtain ⟨-, hpost, hpre⟩ := List.pairwise_append.mp hordered
  have hkeep : pre.filter (fun other => decide (other.1 ≤ entry.1)) = pre := by
    rw [List.filter_eq_self]
    exact fun other hother => decide_eq_true (hpre other hother entry List.mem_cons_self).le
  have hdrop : post.filter (fun other => decide (other.1 ≤ entry.1)) = [] := by
    rw [List.filter_eq_nil_iff]
    intro other hother
    rw [decide_eq_true_eq, not_le]
    exact List.rel_of_pairwise_cons hpost hother
  rw [contentUpTo, hmap, List.filter_append, hkeep, List.filter_cons,
    if_pos (decide_eq_true (le_refl _)), hdrop, content_append, content_cons, content_nil,
    add_zero]

variable [LinearOrder K]

/-- The sums of the first bins are those before a bin and those with it. -/
theorem contentUpTo_cases [IsStrictOrderedRing K] {h : Histogram K}
    (hordered : Ordered h.histogramMap) (hnonneg : ∀ entry ∈ h.histogramMap, 0 ≤ entry.2)
    {pre post : List (Int × K)} {entry : Int × K} (hmap : h.histogramMap = pre ++ entry :: post) :
    ∀ other ∈ h.histogramMap, pre ≠ [] ∧ h.contentUpTo other.1 ≤ content pre ∨
      content pre + entry.2 ≤ h.contentUpTo other.1 := by
  intro other hother
  rw [hmap] at hother hnonneg
  rcases List.mem_append.mp hother with hpre | hother
  · left
    refine ⟨List.ne_nil_of_mem hpre, ?_⟩
    obtain ⟨first, rest, rfl⟩ := List.append_of_mem hpre
    have hrest : 0 ≤ content rest := content_nonneg fun entry hentry =>
      hnonneg entry (by simp [hentry])
    have hmap' : h.histogramMap = first ++ other :: (rest ++ entry :: post) := by simpa using hmap
    rw [contentUpTo_split hordered hmap', content_append, content_cons]
    linarith
  · right
    rcases List.mem_cons.mp hother with rfl | hpost
    · exact (contentUpTo_split hordered hmap).ge
    · obtain ⟨first, rest, rfl⟩ := List.append_of_mem hpost
      have hfirst : 0 ≤ content first := content_nonneg fun entry hentry =>
        hnonneg entry (by simp [hentry])
      have hself : 0 ≤ other.2 := hnonneg other (by simp)
      have hmap' : h.histogramMap = (pre ++ entry :: first) ++ other :: rest := by
        simpa using hmap
      rw [contentUpTo_split hordered hmap', content_append, content_cons]
      linarith

/-- Half of all entries is passed in the bins only if less lies outside. -/
theorem outside_lt_of_passed [IsStrictOrderedRing K] {h : Histogram K}
    (hnonneg : ∀ entry ∈ h.histogramMap, 0 ≤ entry.2)
    {pre post : List (Int × K)} {entry : Int × K}
    (hmap : h.histogramMap = pre ++ entry :: post)
    (hlast : (h.underflow + h.overflow + content h.histogramMap) / 2 < content pre + entry.2) :
    h.underflow + h.overflow < content h.histogramMap := by
  have hpost : 0 ≤ content post := content_nonneg fun entry hentry =>
    hnonneg entry (by simp [hmap, hentry])
  have hsum : content h.histogramMap = content pre + (entry.2 + content post) := by
    rw [hmap, content_append, content_cons]
  linarith

/-! ## Medians -/

/-- A bin with a content, and not more than half of the content of the bins on either side. -/
structure MedianBin (h : Histogram K) (bin : Int) : Prop where
  occupied : ∃ entry ∈ h.histogramMap, entry.1 = bin ∧ 0 < entry.2
  below : h.contentBelow bin ≤ content h.histogramMap / 2
  upTo : content h.histogramMap / 2 ≤ h.contentUpTo bin

/-- No sum of the first bins lies between the half of the bins and the half of all entries. -/
def HalvesAgree (h : Histogram K) : Prop :=
  ∀ entry ∈ h.histogramMap,
    ¬(content h.histogramMap / 2 < h.contentUpTo entry.1 ∧
      h.contentUpTo entry.1 ≤ (h.underflow + h.overflow + content h.histogramMap) / 2) ∧
    ¬((h.underflow + h.overflow + content h.histogramMap) / 2 < h.contentUpTo entry.1 ∧
      h.contentUpTo entry.1 < content h.histogramMap / 2)

instance (h : Histogram K) : Decidable h.HalvesAgree :=
  inferInstanceAs (Decidable (∀ entry ∈ h.histogramMap, _))

def occupied (h : Histogram K) : List (Int × K) :=
  h.histogramMap.filter fun entry => decide (0 < entry.2)

variable [FloorRing K] [LongOverflow K]

/-- The centre of a median bin, from the lowest to the highest centre with a content. -/
def IsMedian (h : Histogram K) (value : K) : Prop :=
  ∃ bin, h.MedianBin bin ∧ value = h.bin2Value bin ∧
    ∃ lowest highest, h.occupied.head? = some lowest ∧ h.occupied.getLast? = some highest ∧
      h.bin2Value lowest.1 ≤ value ∧ value ≤ h.bin2Value highest.1

/-- Less lies outside than in the bins, and counting it does not move the half past another
bin. Otherwise zero has to be the centre of a median bin. -/
def Balanced (h : Histogram K) : Prop :=
  (h.underflow + h.overflow < content h.histogramMap ∧ (h.max ≤ h.min ∨ h.HalvesAgree)) ∨
  (content h.histogramMap ≤ h.underflow + h.overflow ∧
    ∃ bin, h.MedianBin bin ∧ h.bin2Value bin = 0)

/-! ## The loop -/

/-- The sum stops at the first bin with which it passes the half, or at none. -/
theorem medianFrom_cases (h : Histogram K) (half start : K) (entries : List (Int × K)) :
    (∃ pre entry post, entries = pre ++ entry :: post ∧
      (pre = [] ∨ start + content pre ≤ half) ∧ half < start + content pre + entry.2 ∧
      h.medianFrom half start entries = h.bin2Value entry.1) ∨
    ((entries = [] ∨ start + content entries ≤ half) ∧ h.medianFrom half start entries = 0) := by
  induction entries generalizing start with
  | nil =>
    right
    exact ⟨.inl rfl, by norm_num [medianFrom]⟩
  | cons entry entries ih =>
    by_cases hpassed : half < start + entry.2
    · left
      refine ⟨[], entry, entries, rfl, .inl rfl, ?_, ?_⟩
      · rwa [content_nil, add_zero]
      · exact if_pos hpassed
    · have hnext : h.medianFrom half start (entry :: entries) =
          h.medianFrom half (start + entry.2) entries := if_neg hpassed
      rw [hnext]
      obtain ⟨pre, last, post, rfl, hpre, hlast, hvalue⟩ | ⟨hall, hvalue⟩ := ih (start + entry.2)
      · left
        refine ⟨entry :: pre, last, post, rfl, .inr ?_, ?_, hvalue⟩
        · rw [content_cons, ← add_assoc]
          rcases hpre with rfl | hpre
          · rw [content_nil, add_zero]
            exact not_lt.mp hpassed
          · exact hpre
        · rw [content_cons, ← add_assoc]
          exact hlast
      · right
        refine ⟨.inr ?_, hvalue⟩
        rw [content_cons, ← add_assoc]
        rcases hall with rfl | hall
        · rw [content_nil, add_zero]
          exact not_lt.mp hpassed
        · exact hall

theorem getMedian_exact (h : Histogram K) : h.getMedian = h.medianFrom
    ((h.underflow + h.overflow + content h.histogramMap) / 2) 0 h.histogramMap := by
  rw [getMedian, getEntries_exact]
  norm_num

variable [IsStrictOrderedRing K]

/-! ## Centres -/

theorem bin2Value_flat {h : Histogram K} (hflat : h.max ≤ h.min) (bin other : Int) :
    h.bin2Value bin = h.bin2Value other := by
  have hnot : h.max - h.min ≤ (0.0 : K) := by
    norm_num
    exact hflat
  rw [bin2Value, bin2Value]
  simp only [if_pos hnot]

theorem bin2Value_mono {h : Histogram K} (hbins : 1 ≤ h.nrBins) {bin other : Int}
    (hle : bin ≤ other) : h.bin2Value bin ≤ h.bin2Value other := by
  by_cases hflat : h.max ≤ h.min
  · exact (bin2Value_flat hflat bin other).le
  · have hrange : h.min < h.max := not_le.mp hflat
    have hsteps : (0 : K) ≤ ((h.nrBins - 1 : Int) : K) := by
      have hint : 0 ≤ h.nrBins - 1 := by omega
      exact_mod_cast hint
    have hcast : (bin : K) ≤ other := by exact_mod_cast hle
    have hwide : 0 ≤ h.max - h.min := (sub_pos.mpr hrange).le
    rw [bin2Value_exact hrange, bin2Value_exact hrange]
    gcongr

/-- Two bins do not have the same centre. -/
theorem bin2Value_injective {h : Histogram K} (hrange : h.min < h.max) {bin other : Int}
    (hbin : 0 ≤ bin ∧ bin < h.nrBins) (hother : 0 ≤ other ∧ other < h.nrBins)
    (hsame : h.bin2Value bin = h.bin2Value other) : bin = other := by
  by_cases hone : h.nrBins = 1
  · omega
  · have hsteps : ((h.nrBins - 1 : Int) : K) ≠ 0 := by
      have hint : h.nrBins - 1 ≠ 0 := by omega
      exact_mod_cast hint
    have hwide : h.max - h.min ≠ 0 := (sub_pos.mpr hrange).ne'
    rw [bin2Value_exact hrange, bin2Value_exact hrange, add_left_inj, div_left_inj' hsteps] at hsame
    have hcast : (bin : K) = other := mul_left_cancel₀ hwide hsame
    exact_mod_cast hcast

/-- The centre of a median bin is between those of the outermost bins with a content. -/
theorem isMedian_center {h : Histogram K} (hb : h.Binned h.nrBins) {bin : Int}
    (hmedian : h.MedianBin bin) : h.IsMedian (h.bin2Value bin) := by
  obtain ⟨entry, hentry, rfl, hpos⟩ := hmedian.occupied
  have hbins : 1 ≤ h.nrBins := by
    have hkey := hb.inRange entry hentry
    omega
  have hoccupied : entry ∈ h.occupied := List.mem_filter.mpr ⟨hentry, decide_eq_true hpos⟩
  have hordered : Ordered h.occupied := hb.ordered.filter _
  refine ⟨entry.1, hmedian, rfl, ?_⟩
  have hlow : ∃ lowest, h.occupied.head? = some lowest ∧ lowest.1 ≤ entry.1 := by
    cases hcases : h.occupied with
    | nil =>
      rw [hcases] at hoccupied
      cases hoccupied
    | cons lowest rest =>
      rw [hcases] at hoccupied hordered
      refine ⟨lowest, rfl, ?_⟩
      rcases List.mem_cons.mp hoccupied with rfl | hrest
      · exact le_refl _
      · exact (List.rel_of_pairwise_cons hordered hrest).le
  have hhigh : ∃ highest, h.occupied.getLast? = some highest ∧ entry.1 ≤ highest.1 := by
    obtain hnil | ⟨init, highest, hcases⟩ := List.eq_nil_or_concat h.occupied
    · rw [hnil] at hoccupied
      cases hoccupied
    · rw [hcases, List.concat_eq_append] at hoccupied hordered ⊢
      refine ⟨highest, List.getLast?_concat, ?_⟩
      rcases List.mem_append.mp hoccupied with hinit | hlast
      · exact ((List.pairwise_append.mp hordered).2.2 entry hinit highest
          List.mem_cons_self).le
      · rw [List.mem_singleton.mp hlast]
  obtain ⟨lowest, hhead, hlow⟩ := hlow
  obtain ⟨highest, hlast, hhigh⟩ := hhigh
  exact ⟨lowest, highest, hhead, hlast, bin2Value_mono hbins hlow, bin2Value_mono hbins hhigh⟩

/-! ## The half of all entries -/

/-- The bin at which the sum passes the half of all entries is a median bin of the bins if the
two halves agree. -/
theorem medianBin_passed_iff {h : Histogram K} (hordered : Ordered h.histogramMap)
    (hnonneg : ∀ entry ∈ h.histogramMap, 0 ≤ entry.2) (hpos : 0 < content h.histogramMap)
    {pre post : List (Int × K)} {entry : Int × K}
    (hmap : h.histogramMap = pre ++ entry :: post)
    (hpre : pre = [] ∨ content pre ≤ (h.underflow + h.overflow + content h.histogramMap) / 2)
    (hlast : (h.underflow + h.overflow + content h.histogramMap) / 2 < content pre + entry.2) :
    h.MedianBin entry.1 ↔ h.HalvesAgree := by
  have hself : entry ∈ h.histogramMap := hmap ▸ List.mem_append_cons_self
  have hupTo := contentUpTo_split hordered hmap
  constructor
  · rintro ⟨-, hbelow, hhalf⟩ other hother
    rw [contentBelow_split hordered hmap] at hbelow
    rw [hupTo] at hhalf
    obtain ⟨hsome, hfew⟩ | hmany := contentUpTo_cases hordered hnonneg hmap other hother
    · have hpassed := hpre.resolve_left hsome
      exact ⟨fun h => by linarith [h.1], fun h => by linarith [h.1]⟩
    · exact ⟨fun h => by linarith [h.2], fun h => by linarith [h.2]⟩
  · intro hagree
    have hhalf : content h.histogramMap / 2 ≤ content pre + entry.2 := by
      by_contra hless
      rw [← hupTo] at hless hlast
      exact (hagree entry hself).2 ⟨hlast, not_le.mp hless⟩
    obtain rfl | ⟨init, last, rfl⟩ := pre.eq_nil_or_concat'
    · rw [content_nil, zero_add] at hhalf
      refine ⟨⟨entry, hself, rfl, by linarith⟩, ?_, ?_⟩
      · rw [contentBelow_split hordered hmap, content_nil]
        linarith
      · rw [hupTo, content_nil, zero_add]
        exact hhalf
    · have hpassed := hpre.resolve_left (by simp)
      have hmap' : h.histogramMap = init ++ last :: entry :: post := by simpa using hmap
      have hlastUpTo : h.contentUpTo last.1 = content (init ++ [last]) := by
        rw [contentUpTo_split hordered hmap', content_append, content_cons, content_nil, add_zero]
      refine ⟨⟨entry, hself, rfl, by linarith⟩, ?_, ?_⟩
      · rw [contentBelow_split hordered hmap, ← hlastUpTo]
        by_contra hmore
        have hmem : last ∈ h.histogramMap := hmap' ▸ List.mem_append_cons_self
        exact (hagree last hmem).1 ⟨not_le.mp hmore, hlastUpTo.trans_le hpassed⟩
      · rw [hupTo]
        exact hhalf

/-- The sum of the bins passes their own half at a median bin. -/
theorem exists_medianBin {h : Histogram K} (hordered : Ordered h.histogramMap)
    (hpos : 0 < content h.histogramMap) : ∃ bin, h.MedianBin bin := by
  obtain ⟨pre, entry, post, hmap, hpre, hlast, -⟩ | ⟨hall, -⟩ :=
    medianFrom_cases h (content h.histogramMap / 2) 0 h.histogramMap
  · rw [zero_add] at hpre hlast
    have hbelow : content pre ≤ content h.histogramMap / 2 := by
      rcases hpre with rfl | hpre
      · rw [content_nil]
        linarith
      · exact hpre
    have hself : entry ∈ h.histogramMap := hmap ▸ List.mem_append_cons_self
    refine ⟨entry.1, ⟨entry, hself, rfl, by linarith⟩, ?_, ?_⟩
    · rw [contentBelow_split hordered hmap]
      exact hbelow
    · rw [contentUpTo_split hordered hmap]
      exact hlast.le
  · rcases hall with hnil | hall
    · rw [hnil] at hpos
      exact absurd hpos (lt_irrefl _)
    · linarith

/-- The bin at which the half of all entries is passed, as a median of the bins. -/
theorem isMedian_passed_iff {h : Histogram K} (hb : h.Binned h.nrBins)
    (hnonneg : ∀ entry ∈ h.histogramMap, 0 ≤ entry.2) (hpos : 0 < content h.histogramMap)
    {pre post : List (Int × K)} {entry : Int × K}
    (hmap : h.histogramMap = pre ++ entry :: post)
    (hpre : pre = [] ∨ content pre ≤ (h.underflow + h.overflow + content h.histogramMap) / 2)
    (hlast : (h.underflow + h.overflow + content h.histogramMap) / 2 < content pre + entry.2) :
    h.IsMedian (h.bin2Value entry.1) ↔ h.max ≤ h.min ∨ h.HalvesAgree := by
  have hiff := medianBin_passed_iff hb.ordered hnonneg hpos hmap hpre hlast
  have hself : entry ∈ h.histogramMap := hmap ▸ List.mem_append_cons_self
  constructor
  · rintro ⟨bin, hbin, hcentre, -⟩
    by_cases hflat : h.max ≤ h.min
    · exact .inl hflat
    · obtain ⟨other, hother, hkey, -⟩ := hbin.occupied
      have hsame : entry.1 = bin := bin2Value_injective (not_le.mp hflat)
        (hb.inRange entry hself) (hkey ▸ hb.inRange other hother) hcentre
      exact .inr (hiff.mp (hsame ▸ hbin))
  · rintro (hflat | hagree)
    · obtain ⟨bin, hbin⟩ := exists_medianBin hb.ordered hpos
      rw [bin2Value_flat hflat entry.1 bin]
      exact isMedian_center hb hbin
    · exact isMedian_center hb (hiff.mpr hagree)

/-- **The median and the bins.** The median of a histogram with a content is a median of its
bins exactly if it is balanced. -/
theorem median_iff {h : Histogram K} (hb : h.Binned h.nrBins)
    (hnonneg : ∀ entry ∈ h.histogramMap, 0 ≤ entry.2)
    (hsome : ∃ entry ∈ h.histogramMap, 0 < entry.2) : h.IsMedian h.getMedian ↔ h.Balanced := by
  have hpos := content_pos hnonneg hsome
  rw [getMedian_exact]
  obtain ⟨pre, entry, post, hmap, hpre, hlast, hvalue⟩ | ⟨hall, hvalue⟩ := medianFrom_cases h
    ((h.underflow + h.overflow + content h.histogramMap) / 2) 0 h.histogramMap
  · rw [zero_add] at hpre hlast
    have hless := outside_lt_of_passed hnonneg hmap hlast
    rw [hvalue, isMedian_passed_iff hb hnonneg hpos hmap hpre hlast]
    constructor
    · exact fun h => .inl ⟨hless, h⟩
    · rintro (⟨-, h⟩ | ⟨hmore, -⟩)
      · exact h
      · exact absurd hless (not_lt.mpr hmore)
  · have hmore : content h.histogramMap ≤ h.underflow + h.overflow := by
      rcases hall with hnil | hall
      · rw [hnil] at hpos
        exact absurd hpos (lt_irrefl _)
      · linarith
    rw [hvalue]
    constructor
    · rintro ⟨bin, hbin, hcentre, -⟩
      exact .inr ⟨hmore, bin, hbin, hcentre.symm⟩
    · rintro (⟨hless, -⟩ | ⟨-, bin, hbin, hzero⟩)
      · exact absurd hless (not_lt.mpr hmore)
      · rw [← hzero]
        exact isMedian_center hb hbin

/-- Three entries in a bin and two in a higher one, and half an entry above the range. -/
theorem median_iff_five :
    ({ create 10 (0 : ℚ) 9 false with histogramMap := [(2, 3), (5, 2)], overflow := 0.5 }).IsMedian
      ({ create 10 (0 : ℚ) 9 false with
        histogramMap := [(2, 3), (5, 2)], overflow := 0.5 }).getMedian := by
  have hordered : Ordered ([(2, 3), (5, 2)] : List (Int × ℚ)) := by
    unfold Ordered
    decide
  have hb : ({ create 10 (0 : ℚ) 9 false with
      histogramMap := [(2, 3), (5, 2)], overflow := 0.5 }).Binned 10 := ⟨rfl, hordered, by decide⟩
  exact (median_iff hb (by decide) (by decide)).mpr
    (.inl ⟨by decide +kernel, .inr (by decide +kernel)⟩)

/-- With one entry in a bin and one above the range the median is zero. -/
theorem median_outside :
    ∃ h : Histogram ℚ, h.Binned h.nrBins ∧ (∀ entry ∈ h.histogramMap, 0 ≤ entry.2) ∧
      (∃ entry ∈ h.histogramMap, 0 < entry.2) ∧ ¬h.IsMedian h.getMedian := by
  refine ⟨{ create 10 (10 : ℚ) 19 false with histogramMap := [(5, 1)], overflow := 1 },
    ⟨rfl, List.pairwise_singleton _ _, by decide⟩, by decide, by decide, ?_⟩
  rintro ⟨bin, ⟨hoccupied, -, -⟩, hcentre, -⟩
  obtain ⟨entry, hentry, rfl, -⟩ := hoccupied
  obtain rfl := List.mem_singleton.mp hentry
  revert hcentre
  decide +kernel

end MuonDetector.Data.Histogram
