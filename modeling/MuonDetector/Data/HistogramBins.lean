import MuonDetector.Data.ExactHistogram

/-!
# Histograms and the bin nearest to a value

A value belongs to the bin whose centre is nearest, or to the counter of the side on which it
lies more than half a bin outside. `value2Bin` rounds to that bin, but the rounded number is
cut to an `int` before it is compared with the bins. So a value far outside may land in any
place. Half a bin outside already counts as outside.
-/

namespace MuonDetector.Data.Histogram

open MuonDetector.Library.Floats MuonDetector.Library.Exact

/-- Where a histogram keeps a content. -/
inductive Place where
  | underflow
  | bin (number : Int)
  | overflow
  deriving DecidableEq, Repr

/-- The place of the number that `value2Bin` gives. -/
def placeOf (nrBins bin : Int) : Place :=
  if bin < 0 then .underflow else if bin ≥ nrBins then .overflow else .bin bin

variable {K : Type} [Field K]

/-- The sum under one key. -/
def contentAt (number : Int) (entries : List (Int × K)) : K :=
  content (entries.filter fun entry => decide (entry.1 = number))

def amount (h : Histogram K) : Place → K
  | .underflow => h.underflow
  | .overflow => h.overflow
  | .bin number => contentAt number h.histogramMap

/-- From the centre of a bin to the next. -/
def binWidth (h : Histogram K) : K := (h.max - h.min) / ((h.nrBins - 1 : Int) : K)

theorem contentAt_cons (number key : Int) (value : K) (entries : List (Int × K)) :
    contentAt number ((key, value) :: entries) =
      (if number = key then value else 0) + contentAt number entries := by
  rw [contentAt, List.filter_cons]
  by_cases hkey : number = key
  · rw [if_pos (decide_eq_true hkey.symm), if_pos hkey]
    exact List.sum_cons
  · rw [if_neg (by simpa using fun h => hkey h.symm), if_neg hkey, zero_add, contentAt]

variable [LinearOrder K]

theorem binWidth_pos [IsStrictOrderedRing K] {h : Histogram K} (hrange : h.min < h.max)
    (hbins : 2 ≤ h.nrBins) : 0 < h.binWidth := by
  have hsteps : (0 : K) < ((h.nrBins - 1 : Int) : K) := by
    have hint : 0 < h.nrBins - 1 := by omega
    exact_mod_cast hint
  exact div_pos (sub_pos.mpr hrange) hsteps

variable [FloorRing K] [LongOverflow K]

def add (h : Histogram K) (place : Place) (mult : K) : Histogram K :=
  match place with
  | .underflow => { h with underflow := h.underflow + mult }
  | .overflow => { h with overflow := h.overflow + mult }
  | .bin number => { h with histogramMap := addTo number mult h.histogramMap }

/-- The place that a value gets. -/
def place (h : Histogram K) (x : K) : Place := placeOf h.nrBins (h.value2Bin x)

/-- More than half a bin below the first centre or above the last one is outside. -/
def Nearest (h : Histogram K) (x : K) : Place → Prop
  | .underflow => x < h.bin2Value 0 - h.binWidth / 2
  | .overflow => h.bin2Value (h.nrBins - 1) + h.binWidth / 2 < x
  | .bin number => h.bin2Value 0 - h.binWidth / 2 ≤ x ∧
      x ≤ h.bin2Value (h.nrBins - 1) + h.binWidth / 2 ∧ 0 ≤ number ∧ number < h.nrBins ∧
      ∀ other, 0 ≤ other → other < h.nrBins →
        |x - h.bin2Value number| ≤ |x - h.bin2Value other|

/-- Less than half a bin outside, or the rounded number stays on its side of the bins when it
is cut to an `int`. -/
def Lands (h : Histogram K) (x : K) : Prop :=
  (-1 / 2 < h.scaled x ∧ h.scaled x < h.nrBins - 1 / 2) ∨
  (h.scaled x < -1 / 2 ∧ (lround (h.scaled x)).bmod (2 ^ 32) < 0) ∨
  ((h.nrBins : K) - 1 / 2 < h.scaled x ∧ h.nrBins ≤ (lround (h.scaled x)).bmod (2 ^ 32))

instance (h : Histogram K) (x : K) : Decidable (h.Lands x) :=
  inferInstanceAs (Decidable (_ ∨ _))

/-- The histogram with the content of one bin only. -/
def only (h : Histogram K) (entry : Int × K) : Histogram K := { h with histogramMap := [entry] }

/-- Each old bin goes to the place that is nearest to its centre, and a place gets the contents
of the old bins that go there. -/
def Rebinned (h : Histogram K) (center width : K) : Prop :=
  ∃ place : Int → Place,
    (∀ entry ∈ h.kept,
      (h.emptied center width).Nearest (h.bin2Value entry.1) (place entry.1) ∧
      (h.only entry).rescale center width =
        (h.emptied center width).add (place entry.1) entry.2) ∧
    ∀ other, (h.rescale center width).amount other =
      content (h.kept.filter fun entry => decide (place entry.1 = other))

/-! ## Amounts -/

theorem addAt_eq_add (h : Histogram K) (bin : Int) (mult : K) :
    h.addAt bin mult = h.add (placeOf h.nrBins bin) mult := by
  unfold addAt placeOf
  split
  · rfl
  · split <;> rfl

theorem contentAt_addTo (number other : Int) (mult : K) (entries : List (Int × K)) :
    contentAt other (addTo number mult entries) =
      contentAt other entries + if other = number then mult else 0 := by
  have hzero : (0.0 : K) = 0 := by norm_num
  induction entries with
  | nil =>
    rw [addTo, contentAt_cons, hzero, zero_add, add_comm]
  | cons entry entries ih =>
    obtain ⟨key, value⟩ := entry
    rw [addTo]
    split
    · rw [contentAt_cons other number, hzero, zero_add, add_comm]
    · split
      · next hkey =>
        rw [contentAt_cons, contentAt_cons, hkey]
        split <;> ring
      · rw [contentAt_cons, contentAt_cons, ih, add_assoc]

/-- Only the amount of the place grows. -/
theorem amount_add (h : Histogram K) (place : Place) (mult : K) (other : Place) :
    (h.add place mult).amount other = h.amount other + if other = place then mult else 0 := by
  cases place with
  | underflow =>
    cases other with
    | underflow => rfl
    | bin number => exact (add_zero _).symm
    | overflow => exact (add_zero _).symm
  | bin number =>
    cases other with
    | underflow => exact (add_zero _).symm
    | bin other =>
      show contentAt other (addTo number mult h.histogramMap) =
        contentAt other h.histogramMap + _
      rw [contentAt_addTo]
      simp only [Place.bin.injEq]
    | overflow => exact (add_zero _).symm
  | overflow =>
    cases other with
    | underflow => exact (add_zero _).symm
    | bin number => exact (add_zero _).symm
    | overflow => rfl

/-- A content is in one place only. -/
theorem place_unique {h : Histogram K} {place other : Place} {mult : K} (hmult : mult ≠ 0)
    (hsame : h.add place mult = h.add other mult) : place = other := by
  by_contra hne
  have hamount := congrArg (fun h => h.amount place) hsame
  simp only [amount_add, if_pos, if_neg hne, add_zero] at hamount
  exact hmult (add_eq_left.mp hamount)

theorem place_below {h : Histogram K} {x : K} (hlow : h.value2Bin x < 0) :
    h.place x = .underflow := if_pos hlow

theorem place_above {h : Histogram K} (hbins : 2 ≤ h.nrBins) {x : K}
    (hhigh : h.nrBins ≤ h.value2Bin x) : h.place x = .overflow := by
  have hnonneg : ¬h.value2Bin x < 0 := by omega
  rw [place, placeOf, if_neg hnonneg, if_pos hhigh]

theorem place_inside {h : Histogram K} {x : K} (hlow : 0 ≤ h.value2Bin x)
    (hhigh : h.value2Bin x < h.nrBins) : h.place x = .bin (h.value2Bin x) := by
  rw [place, placeOf, if_neg (by omega), if_neg (by omega)]

theorem fill_place {h : Histogram K} (hauto : h.autoscale = false) (x mult : K) :
    fill 1 h x mult = some (h.add (h.place x) mult) := by
  have hstays : ¬h.rescales x = true := by
    rw [rescales_exact, hauto]
    simp
  rw [fill, if_neg hstays, addAt_eq_add]
  rfl

theorem refilled_append (h : Histogram K) (center width : K) (entries : List (Int × K))
    (entry : Int × K) : h.refilled center width (entries ++ [entry]) =
      (h.refilled center width entries).add
        ((h.emptied center width).place (h.bin2Value entry.1)) entry.2 := by
  rw [place, ← (sameRange_refilled h center width entries).nrBins_eq, ← addAt_eq_add]
  rw [refilled, List.foldl_append]
  rfl

theorem amount_refilled (h : Histogram K) (center width : K) (entries : List (Int × K))
    (other : Place) : (h.refilled center width entries).amount other =
      content (entries.filter fun entry =>
        decide ((h.emptied center width).place (h.bin2Value entry.1) = other)) := by
  induction entries using List.reverseRecOn with
  | nil => cases other <;> rfl
  | append_singleton entries entry ih =>
    rw [refilled_append, amount_add, ih, List.filter_append, content, content, List.map_append,
      List.sum_append, List.filter_singleton]
    by_cases hplace : (h.emptied center width).place (h.bin2Value entry.1) = other
    · rw [if_pos hplace.symm, decide_eq_true hplace]
      exact congrArg _ (add_zero entry.2).symm
    · rw [if_neg fun h => hplace h.symm, decide_eq_false hplace]
      rfl

section

variable [IsStrictOrderedRing K]

/-! ## Centres -/

/-- The distance from a centre, in the width of the bins. -/
theorem sub_bin2Value {h : Histogram K} (hrange : h.min < h.max) (hbins : 2 ≤ h.nrBins)
    (x : K) (bin : Int) : x - h.bin2Value bin = h.binWidth * (h.scaled x - bin) := by
  have hwide : h.max - h.min ≠ 0 := (sub_pos.mpr hrange).ne'
  have hsteps : ((h.nrBins - 1 : Int) : K) ≠ 0 := by
    have hint : h.nrBins - 1 ≠ 0 := by omega
    exact_mod_cast hint
  rw [bin2Value_exact hrange, binWidth, scaled]
  field_simp
  ring

theorem below_first {h : Histogram K} (hrange : h.min < h.max) (hbins : 2 ≤ h.nrBins) (x : K) :
    x < h.bin2Value 0 - h.binWidth / 2 ↔ h.scaled x < -1 / 2 := by
  have hwidth := binWidth_pos hrange hbins
  have hdistance := sub_bin2Value hrange hbins x 0
  rw [Int.cast_zero, sub_zero] at hdistance
  have hside : x < h.bin2Value 0 - h.binWidth / 2 ↔
      h.binWidth * h.scaled x < h.binWidth * (-1 / 2) := by
    rw [← hdistance]
    constructor <;> intro h <;> linarith
  rw [hside, mul_lt_mul_iff_right₀ hwidth]

theorem above_last {h : Histogram K} (hrange : h.min < h.max) (hbins : 2 ≤ h.nrBins) (x : K) :
    h.bin2Value (h.nrBins - 1) + h.binWidth / 2 < x ↔ (h.nrBins : K) - 1 / 2 < h.scaled x := by
  have hwidth := binWidth_pos hrange hbins
  have hdistance := sub_bin2Value hrange hbins x (h.nrBins - 1)
  have hside : h.bin2Value (h.nrBins - 1) + h.binWidth / 2 < x ↔
      h.binWidth * (1 / 2) < h.binWidth * (h.scaled x - ((h.nrBins - 1 : Int) : K)) := by
    rw [← hdistance]
    constructor <;> intro h <;> linarith
  rw [hside, mul_lt_mul_iff_right₀ hwidth, Int.cast_sub, Int.cast_one]
  constructor <;> intro h <;> linarith

theorem nearest_bin {h : Histogram K} (hrange : h.min < h.max) (hbins : 2 ≤ h.nrBins) {x : K}
    (hlow : -1 / 2 < h.scaled x) (hhigh : h.scaled x < h.nrBins - 1 / 2)
    (hnonneg : 0 ≤ roundAway (h.scaled x)) (hlt : roundAway (h.scaled x) < h.nrBins) :
    h.Nearest x (.bin (roundAway (h.scaled x))) := by
  refine ⟨?_, ?_, hnonneg, hlt, ?_⟩
  · rw [← not_lt, below_first hrange hbins]
    exact not_lt.mpr hlow.le
  · rw [← not_lt, above_last hrange hbins]
    exact not_lt.mpr hhigh.le
  · intro other _ _
    rw [sub_bin2Value hrange hbins, sub_bin2Value hrange hbins, abs_mul, abs_mul]
    exact mul_le_mul_of_nonneg_left (abs_sub_roundAway_le _ _) (abs_nonneg _)

/-! ## The place of a value -/

/-- Close to the bins the rounded number is an `int`. -/
theorem value2Bin_int {h : Histogram K} (hrange : h.min < h.max) {x : K}
    (hlow : -1 ≤ roundAway (h.scaled x)) (hhigh : roundAway (h.scaled x) < 2 ^ 31) :
    h.value2Bin x = roundAway (h.scaled x) := by
  have hlong : inLong (roundAway (h.scaled x)) := by
    constructor <;> omega
  rw [value2Bin_exact hrange, lround, if_pos hlong]
  exact Int.bmod_eq_of_le (by omega) (by omega)

/-- Halves are rounded away from the bins. -/
theorem half_outside {h : Histogram K} (hrange : h.min < h.max) (hbins : 2 ≤ h.nrBins)
    (hint : h.nrBins < 2 ^ 31) {x : K} {number : Int} (hplace : h.place x = .bin number) :
    h.scaled x ≠ -1 / 2 ∧ h.scaled x ≠ h.nrBins - 1 / 2 := by
  obtain ⟨hlow, hhigh⟩ := abs_le.mp (abs_sub_roundAway (h.scaled x))
  constructor
  · intro hhalf
    have hneg : roundAway (h.scaled x) < 0 := roundAway_neg.mpr hhalf.le
    have hclose : -1 ≤ roundAway (h.scaled x) := by
      have hcast : (-1 : K) ≤ roundAway (h.scaled x) := by linarith
      exact_mod_cast hcast
    rw [place_below (by rw [value2Bin_int hrange hclose (by omega)]; exact hneg)] at hplace
    cases hplace
  · intro hhalf
    have habove : h.nrBins ≤ roundAway (h.scaled x) := (le_roundAway (by omega)).mpr hhalf.ge
    have hclose : roundAway (h.scaled x) ≤ h.nrBins := by
      have hcast : (roundAway (h.scaled x) : K) ≤ h.nrBins := by linarith
      exact_mod_cast hcast
    rw [place_above hbins (by rw [value2Bin_int hrange (by omega) (by omega)]; exact habove)]
      at hplace
    cases hplace

/-- The place that a value gets is the nearest one, unless the rounded number is cut to another
side or a half is rounded to the outside. -/
theorem nearest_place_iff {h : Histogram K} (hrange : h.min < h.max) (hbins : 2 ≤ h.nrBins)
    (hint : h.nrBins < 2 ^ 31) (x : K) : h.Nearest x (h.place x) ↔ h.Lands x := by
  have hvalue := value2Bin_exact hrange x
  constructor
  · intro hnear
    cases hplace : h.place x with
    | underflow =>
      rw [hplace] at hnear
      refine .inr (.inl ⟨(below_first hrange hbins x).mp hnear, ?_⟩)
      rw [← hvalue]
      by_contra hlow
      rw [place, placeOf, if_neg hlow] at hplace
      split at hplace <;> cases hplace
    | overflow =>
      rw [hplace] at hnear
      refine .inr (.inr ⟨(above_last hrange hbins x).mp hnear, ?_⟩)
      rw [← hvalue]
      by_contra hhigh
      rw [place, placeOf, if_neg hhigh] at hplace
      split at hplace <;> cases hplace
    | bin number =>
      obtain ⟨hlow, hhigh⟩ := half_outside hrange hbins hint hplace
      rw [hplace] at hnear
      obtain ⟨hfirst, hlast, -⟩ := hnear
      rw [← not_lt, below_first hrange hbins, not_lt] at hfirst
      rw [← not_lt, above_last hrange hbins, not_lt] at hlast
      exact .inl ⟨lt_of_le_of_ne hfirst hlow.symm, lt_of_le_of_ne hlast hhigh⟩
  · rintro (⟨hlow, hhigh⟩ | ⟨hlow, hcut⟩ | ⟨hhigh, hcut⟩)
    · have hnonneg : 0 ≤ roundAway (h.scaled x) := by
        rw [← not_lt, roundAway_neg]
        exact not_le.mpr hlow
      have hlt : roundAway (h.scaled x) < h.nrBins := by
        rw [← not_le, le_roundAway (by omega)]
        exact not_le.mpr hhigh
      have hbin := value2Bin_int hrange (x := x) (by omega) (by omega)
      rw [place_inside (by omega) (by omega), hbin]
      exact nearest_bin hrange hbins hlow hhigh hnonneg hlt
    · rw [place_below (hvalue.trans_lt hcut)]
      exact (below_first hrange hbins x).mpr hlow
    · rw [place_above hbins (hcut.trans_eq hvalue.symm)]
      exact (above_last hrange hbins x).mpr hhigh

/-! ## Filling -/

/-- **A fill and the nearest bin.** A histogram that does not move its range adds every weight
in a place that is nearest to the value exactly if the value lands: less than half a bin
outside, or so that its rounded number stays below or above the bins as an `int`. -/
theorem fill_nearest_iff {h : Histogram K} (hrange : h.min < h.max) (hbins : 2 ≤ h.nrBins)
    (hint : h.nrBins < 2 ^ 31) (hauto : h.autoscale = false) (x : K) :
    (∃ place, h.Nearest x place ∧ ∀ mult, fill 1 h x mult = some (h.add place mult)) ↔
      h.Lands x := by
  rw [← nearest_place_iff hrange hbins hint]
  constructor
  · rintro ⟨place, hnear, hfill⟩
    have hsame : h.add (h.place x) 1 = h.add place 1 :=
      Option.some.inj ((fill_place hauto x 1).symm.trans (hfill 1))
    rwa [place_unique one_ne_zero hsame]
  · exact fun hnear => ⟨h.place x, hnear, fill_place hauto x⟩

/-- In fifty bins of a microsecond. -/
theorem fill_nearest_short :
    ∃ place, (create 50 (0 : ℚ) 49 false).Nearest 12 place ∧
      ∀ mult, fill 1 (create 50 0 49 false) 12 mult =
        some ((create 50 (0 : ℚ) 49 false).add place mult) :=
  (fill_nearest_iff (by decide) (by decide) (by decide) rfl 12).mpr (by decide +kernel)

/-- An interval of 2³² microseconds counts as one without length. -/
theorem long_interval_misplaced :
    (create 50 (0 : ℚ) 49 false).Nearest 4294967296 .overflow ∧
      fill 1 (create 50 (0 : ℚ) 49 false) 4294967296 1 =
        some ((create 50 (0 : ℚ) 49 false).add (.bin 0) 1) ∧
      ¬∃ place, (create 50 (0 : ℚ) 49 false).Nearest 4294967296 place ∧
        ∀ mult, fill 1 (create 50 0 49 false) 4294967296 mult =
          some ((create 50 (0 : ℚ) 49 false).add place mult) := by
  have hout : (create 50 (0 : ℚ) 49 false).Nearest 4294967296 .overflow :=
    (above_last (by decide) (by decide) _).mpr (by decide +kernel)
  have hplace : (create 50 (0 : ℚ) 49 false).place 4294967296 = .bin 0 := by decide +kernel
  have hfill := fill_place (h := create 50 (0 : ℚ) 49 false) rfl 4294967296 1
  rw [hplace] at hfill
  refine ⟨hout, hfill, ?_⟩
  rintro ⟨place, hnear, hother⟩
  have hbin : .bin 0 = place :=
    place_unique one_ne_zero (Option.some.inj (hfill.symm.trans (hother 1)))
  rw [← hbin] at hnear
  exact not_le.mpr hout hnear.2.1

/-! ## Moving the range -/

/-- Only one bin is kept in its one place. -/
theorem rescale_only {h : Histogram K} (hrange : h.min < h.max) (hbins : 2 ≤ h.nrBins)
    (center : K) {width : K} (hwidth : 0 < width) {entry : Int × K} (hentry : entry ∈ h.kept) :
    (h.only entry).rescale center width =
      (h.emptied center width).add
        ((h.emptied center width).place (h.bin2Value entry.1)) entry.2 := by
  have hkept : (h.only entry).kept = [entry] := by
    rw [kept, only, List.filter_singleton, (List.mem_filter.mp hentry).2]
    rfl
  rw [rescale_exact (h := h.only entry) hrange hbins center hwidth, hkept]
  exact refilled_append h center width [] entry

/-- **Moving the range and the nearest bin.** The entries after it are the kept ones. Each of
them is in a place nearest to the centre of its old bin exactly if all these centres land. -/
theorem rescale_nearest_iff {h : Histogram K} (hrange : h.min < h.max) (hbins : 2 ≤ h.nrBins)
    (hint : h.nrBins < 2 ^ 31) (center : K) {width : K} (hwidth : 0 < width) :
    (h.rescale center width).getEntries = content h.kept ∧
      (h.Rebinned center width ↔
        ∀ entry ∈ h.kept, (h.emptied center width).Lands (h.bin2Value entry.1)) := by
  refine ⟨getEntries_rescale hrange hbins center hwidth, ?_⟩
  have hnear := nearest_place_iff (h := h.emptied center width) (emptied_range center hwidth)
    hbins hint
  constructor
  · rintro ⟨place, hplaces, -⟩ entry hentry
    obtain ⟨hnearest, halone⟩ := hplaces entry hentry
    rw [rescale_only hrange hbins center hwidth hentry] at halone
    rw [← hnear, place_unique (ne_zero_of_kept hentry) halone]
    exact hnearest
  · intro hlands
    refine ⟨fun bin => (h.emptied center width).place (h.bin2Value bin), ?_, ?_⟩
    · intro entry hentry
      exact ⟨(hnear _).mpr (hlands entry hentry), rescale_only hrange hbins center hwidth hentry⟩
    · intro other
      rw [rescale_exact hrange hbins center hwidth]
      exact amount_refilled h center width h.kept other

/-- Two bins into a range of twice the width. -/
theorem rescale_nearest_half :
    ({ create 10 (0 : ℚ) 1 false with histogramMap := [(2, 1), (9, 3)] }).Rebinned 0 2 :=
  (rescale_nearest_iff (h := { create 10 (0 : ℚ) 1 false with histogramMap := [(2, 1), (9, 3)] })
    (by decide) (by decide) (by decide) 0 (by decide)).2.mpr (by decide +kernel)

/-- A narrow range moves the content of a bin far above it into the middle. -/
theorem far_bin_misplaced :
    ∃ (h : Histogram ℚ) (center width : ℚ), h.min < h.max ∧ 2 ≤ h.nrBins ∧ h.Binned h.nrBins ∧
      0 < width ∧ ¬h.Rebinned center width := by
  have hkeys : ({ create 10 (0 : ℚ) 1 false with histogramMap := [(9, 1)] }).Binned 10 := by
    refine ⟨rfl, List.pairwise_singleton _ _, ?_⟩
    intro entry hentry
    obtain rfl := List.mem_singleton.mp hentry
    decide
  have hpos : (0 : ℚ) < 18 / 8589934593 := by norm_num
  refine ⟨{ create 10 (0 : ℚ) 1 false with histogramMap := [(9, 1)] }, 0, 18 / 8589934593,
    by decide, by decide, hkeys, hpos, ?_⟩
  rintro ⟨place, hplaces, -⟩
  obtain ⟨hnear, halone⟩ := hplaces (9, 1) (by decide +kernel)
  rw [rescale_only (by decide) (by decide) 0 hpos (by decide +kernel)] at halone
  rw [← place_unique one_ne_zero halone] at hnear
  have hmissed := (nearest_place_iff (emptied_range 0 hpos) (by decide) (by decide) _).mp hnear
  revert hmissed
  decide +kernel

end

end MuonDetector.Data.Histogram
