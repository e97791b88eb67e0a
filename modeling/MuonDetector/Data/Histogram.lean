import MuonDetector.Library.Floats
import MuonDetector.Library.SortedMaps

/-!
# Histograms

A `Histogram` keeps the contents of its bins in a map from bin numbers, with what lies
outside of its range in two counters. It calculates on the floating point type it is
given. The first value that a histogram is filled with may move its range.
-/

namespace MuonDetector.Data

open MuonDetector.Library.Floats MuonDetector.Library.SortedMaps

variable {F : Type}

/-- The entries of the map are in the order of the bins. -/
structure Histogram (F : Type) where
  nrBins : Int
  min : F
  max : F
  overflow : F
  underflow : F
  histogramMap : List (Int × F) := []
  autoscale : Bool := false
  deriving DecidableEq, Repr

namespace Histogram

section Definitions

variable [Floating F]

def create (nrBins : Int) (min max : F) (autoscale : Bool) : Histogram F where
  nrBins := nrBins
  min := min
  max := max
  overflow := 0.0
  underflow := 0.0
  autoscale := autoscale

def clear (h : Histogram F) : Histogram F :=
  { h with histogramMap := [], underflow := 0.0, overflow := 0.0 }

/-- `std::numeric_limits<double>::epsilon()` -/
def epsilon : F := 1.0 / Floating.ofInt (2 ^ 52)

def fabs (x : F) : F := if x < 0.0 then 0.0 - x else x

def getEntries (h : Histogram F) : F :=
  h.histogramMap.foldl (fun sum entry => sum + entry.2) (h.underflow + h.overflow)

/-- The rounded number is cut to the 32 bits of an `int`. -/
def value2Bin (h : Histogram F) (value : F) : Int :=
  let range := h.max - h.min
  if range ≤ 0.0 then -1
  else (Floating.lround ((value - h.min) / range * Floating.ofInt (h.nrBins - 1))).bmod (2 ^ 32)

def bin2Value (h : Histogram F) (bin : Int) : F :=
  let range := h.max - h.min
  if range ≤ 0.0 then Floating.ofInt (-1)
  else range * Floating.ofInt bin / Floating.ofInt (h.nrBins - 1) + h.min

/-- `fHistogramMap[bin] += mult` -/
def addTo (bin : Int) (mult : F) : List (Int × F) → List (Int × F)
  | [] => [(bin, 0.0 + mult)]
  | (key, content) :: rest =>
    if bin < key then (bin, 0.0 + mult) :: (key, content) :: rest
    else if bin = key then (key, content + mult) :: rest
    else (key, content) :: addTo bin mult rest

/-- To the bin, or to the counter of the side on which it lies outside. -/
def addAt (h : Histogram F) (bin : Int) (mult : F) : Histogram F :=
  if bin < 0 then { h with underflow := h.underflow + mult }
  else if bin ≥ h.nrBins then { h with overflow := h.overflow + mult }
  else { h with histogramMap := addTo bin mult h.histogramMap }

/-- `rescale(center, width)`. The old bins are filled into the new ones. -/
def rescale (h : Histogram F) (center width : F) : Histogram F :=
  if width ≤ 0.0 then h
  else
    let new := { h with
      min := center - width / 2.0
      max := center + width / 2.0
      histogramMap := []
      underflow := 0.0
      overflow := 0.0 }
    let oldRange := h.max - h.min
    if oldRange ≤ 0.0 ∨ h.nrBins ≤ 1 then new
    else h.histogramMap.foldl (fun new entry =>
      if fabs entry.2 ≤ epsilon then new
      else
        let value := oldRange * Floating.ofInt entry.1 / Floating.ofInt (h.nrBins - 1) + h.min
        new.addAt (new.value2Bin value) entry.2) new

/-- `rescale(center)` -/
def rescaleAround (h : Histogram F) (center : F) : Histogram F :=
  h.rescale center (h.max - h.min)

/-- The first bin with a content. -/
def getLowestOccupiedBin (h : Histogram F) : Int :=
  match h.histogramMap.find? fun entry => decide (epsilon < fabs entry.2) with
  | some (bin, _) => bin
  | none => -1

/-- The last bin with a content. -/
def getHighestOccupiedBin (h : Histogram F) : Int :=
  match h.histogramMap.reverse.find? fun entry => decide (epsilon < fabs entry.2) with
  | some (bin, _) => bin
  | none => -1

/-- `rescale()`. The range is made wider when too much lies outside of it, and narrower when
few bins are used. -/
def rescaleToEntries (h : Histogram F) : Histogram F :=
  if h.autoscale = false then h
  else if h.getEntries < 3.0 then h
  else
    let ufl := h.underflow
    let ofl := h.overflow
    let entries := h.getEntries - (ufl + ofl)
    let range := h.max - h.min
    let lowest := h.getLowestOccupiedBin
    let highest := h.getHighestOccupiedBin
    let lowestEntry := h.bin2Value lowest
    let highestEntry := h.bin2Value highest
    if 0.0 < ufl ∧ 0.0 < ofl ∧ 0.01 * entries < ufl + ofl then
      h.rescale (0.5 * range + h.min) (1.1 * range)
    else if 0.005 * entries < ufl then
      let newMin := h.max - range * 1.2
      h.rescale (0.5 * (newMin + h.max)) (h.max - newMin)
    else if 0.005 * entries < ofl then
      let newMax := h.min + range * 1.2
      h.rescale (0.5 * (h.min + newMax)) (newMax - h.min)
    else if ufl < 1e-3 ∧ ofl < 1e-3 then
      if 100.0 < entries ∧
          Floating.ofInt (highest - lowest) / Floating.ofInt h.nrBins < (0.05 : F) then
        h.rescale (0.5 * (highestEntry - lowestEntry) + lowestEntry) (0.8 * range)
      else h
    else h

/-- The histogram has nothing in it and the value is outside of its range. -/
def rescales (h : Histogram F) (x : F) : Bool :=
  h.autoscale && decide (h.getEntries < 1e-6) &&
    (decide (h.value2Bin x < 0) || decide (h.value2Bin x ≥ h.nrBins))

/-- `fill(x, mult)` calls itself after it has moved the range, at most as often as the
stack has room for. -/
def fill : Nat → Histogram F → F → F → Option (Histogram F)
  | 0, _, _, _ => none
  | stack + 1, h, x, mult =>
    if h.rescales x then fill stack (h.rescaleAround x) x mult
    else some (h.addAt (h.value2Bin x) mult)

def setNrBins (h : Histogram F) (bins : Int) : Histogram F := { h with nrBins := bins }.clear

def setBinContent (h : Histogram F) (bin : Int) (value : F) : Histogram F :=
  if 0 ≤ bin ∧ bin < h.nrBins then
    { h with histogramMap := alter bin (fun _ => value) h.histogramMap }
  else h

/-- What is done to a histogram to fill it and to move its range. -/
inductive Operation (F : Type) where
  | fill (x mult : F)
  | rescaleToEntries
  | rescaleAround (center : F)
  | rescale (center width : F)
  | clear
  deriving DecidableEq, Repr

/-- One operation, with a stack for as many calls of `fill`. -/
def apply (stack : Nat) (h : Histogram F) : Operation F → Option (Histogram F)
  | .fill x mult => fill stack h x mult
  | .rescaleToEntries => some h.rescaleToEntries
  | .rescaleAround center => some (h.rescaleAround center)
  | .rescale center width => some (h.rescale center width)
  | .clear => some h.clear

def getMean (h : Histogram F) : F :=
  let (entries, sum) := h.histogramMap.foldl (fun (entries, sum) entry =>
    (entries + entry.2, sum + h.bin2Value entry.1 * entry.2)) ((0.0, 0.0) : F × F)
  if 0.0 < entries then sum / entries else 0.0

/-- The first bin at which the sum of the contents has passed the half. -/
def medianFrom (h : Histogram F) (halfEntries binsum : F) : List (Int × F) → F
  | [] => 0.0
  | (bin, content) :: rest =>
    if halfEntries < binsum + content then h.bin2Value bin
    else medianFrom h halfEntries (binsum + content) rest

def getMedian (h : Histogram F) : F :=
  h.medianFrom (h.getEntries / 2.0) 0.0 h.histogramMap

def getMpv (h : Histogram F) : F :=
  let (bin, _) := h.histogramMap.foldl (fun (bin, highest) entry =>
    if highest < entry.2 then (entry.1, entry.2) else (bin, highest)) ((0, 1e-12) : Int × F)
  h.bin2Value bin

variable [SquareRoot F]

def getRMS (h : Histogram F) : F :=
  let mean := h.getMean
  let (entries, sum) := h.histogramMap.foldl (fun (entries, sum) entry =>
    let dx := h.bin2Value entry.1 - mean
    (entries + entry.2, sum + dx * dx * entry.2)) ((0.0, 0.0) : F × F)
  if 1.0 < entries then SquareRoot.sqrt (sum / (entries - 1.0)) else 0.0

end Definitions

/-! ## Bins -/

/-- The map has the order of a `std::map`, and entries for bins only. -/
structure Binned (nrBins : Int) (h : Histogram F) : Prop where
  nrBins_eq : h.nrBins = nrBins
  ordered : Ordered h.histogramMap
  inRange : ∀ entry ∈ h.histogramMap, 0 ≤ entry.1 ∧ entry.1 < nrBins

variable {n : Int}

theorem Binned.of_empty {h : Histogram F} (hbins : h.nrBins = n) (hempty : h.histogramMap = []) :
    h.Binned n := by
  refine ⟨hbins, ?_, ?_⟩
  · rw [hempty]
    exact List.Pairwise.nil
  · rw [hempty]
    intro entry hentry
    cases hentry

theorem Binned.setBinContent {h : Histogram F} (hb : h.Binned n) (bin : Int) (value : F) :
    (h.setBinContent bin value).Binned n := by
  rw [Histogram.setBinContent]
  by_cases hbin : 0 ≤ bin ∧ bin < h.nrBins
  · rw [if_pos hbin]
    refine ⟨hb.nrBins_eq, ordered_alter hb.ordered, ?_⟩
    intro entry hentry
    rcases mem_alter hentry with hkey | hentry
    · have hbins := hb.nrBins_eq
      rw [hkey]
      omega
    · exact hb.inRange entry hentry
  · rw [if_neg hbin]
    exact hb

variable [Floating F]

theorem addTo_eq_alter (bin : Int) (mult : F) (entries : List (Int × F)) :
    addTo bin mult entries = alter bin (fun content => content.getD 0.0 + mult) entries := by
  induction entries with
  | nil => rfl
  | cons first rest ih =>
    rw [addTo, alter, ih]
    rfl

theorem Binned.addAt {h : Histogram F} (hb : h.Binned n) (bin : Int) (mult : F) :
    (h.addAt bin mult).Binned n := by
  rw [Histogram.addAt]
  by_cases hlow : bin < 0
  · rw [if_pos hlow]
    exact ⟨hb.nrBins_eq, hb.ordered, hb.inRange⟩
  · rw [if_neg hlow]
    by_cases hhigh : bin ≥ h.nrBins
    · rw [if_pos hhigh]
      exact ⟨hb.nrBins_eq, hb.ordered, hb.inRange⟩
    · rw [if_neg hhigh]
      refine ⟨hb.nrBins_eq, ?_, ?_⟩
      · show Ordered (addTo bin mult h.histogramMap)
        rw [addTo_eq_alter]
        exact ordered_alter hb.ordered
      · show ∀ entry ∈ addTo bin mult h.histogramMap, _
        rw [addTo_eq_alter]
        intro entry hentry
        rcases mem_alter hentry with hkey | hentry
        · have hbins := hb.nrBins_eq
          rw [hkey]
          omega
        · exact hb.inRange entry hentry

theorem Binned.rescale {h : Histogram F} (hb : h.Binned n) (center width : F) :
    (h.rescale center width).Binned n := by
  rw [Histogram.rescale]
  by_cases hwidth : width ≤ 0.0
  · rw [if_pos hwidth]
    exact hb
  · rw [if_neg hwidth]
    simp only
    split
    · exact .of_empty hb.nrBins_eq rfl
    · refine List.foldlRecOn h.histogramMap _ (.of_empty hb.nrBins_eq rfl) ?_
      intro new hnew entry _
      split
      · exact hnew
      · exact hnew.addAt _ _

/-- Nothing changes, or the range does, to one of four widths. -/
theorem rescaleToEntries_cases (h : Histogram F) :
    h.rescaleToEntries = h ∨ ∃ center width, h.rescaleToEntries = h.rescale center width ∧
      (width = 1.1 * (h.max - h.min) ∨ width = h.max - (h.max - (h.max - h.min) * 1.2) ∨
        width = h.min + (h.max - h.min) * 1.2 - h.min ∨ width = 0.8 * (h.max - h.min)) := by
  generalize hresult : h.rescaleToEntries = result
  unfold Histogram.rescaleToEntries at hresult
  simp only at hresult
  split at hresult
  · exact .inl hresult.symm
  · split at hresult
    · exact .inl hresult.symm
    · split at hresult
      · exact .inr ⟨_, _, hresult.symm, .inl rfl⟩
      · split at hresult
        · exact .inr ⟨_, _, hresult.symm, .inr (.inl rfl)⟩
        · split at hresult
          · exact .inr ⟨_, _, hresult.symm, .inr (.inr (.inl rfl))⟩
          · split at hresult
            · split at hresult
              · exact .inr ⟨_, _, hresult.symm, .inr (.inr (.inr rfl))⟩
              · exact .inl hresult.symm
            · exact .inl hresult.symm

theorem Binned.rescaleToEntries {h : Histogram F} (hb : h.Binned n) :
    h.rescaleToEntries.Binned n := by
  obtain hsame | ⟨center, width, hrescale, -⟩ := rescaleToEntries_cases h
  · rw [hsame]
    exact hb
  · rw [hrescale]
    exact hb.rescale center width

theorem Binned.fill {stack : Nat} {h h' : Histogram F} {x mult : F} (hb : h.Binned n)
    (hfill : fill stack h x mult = some h') : h'.Binned n := by
  induction stack generalizing h with
  | zero => cases hfill
  | succ stack ih =>
    rw [Histogram.fill] at hfill
    by_cases hr : h.rescales x = true
    · rw [if_pos hr] at hfill
      exact ih (hb.rescale x _) hfill
    · rw [if_neg hr] at hfill
      obtain rfl := Option.some.inj hfill
      exact hb.addAt _ _

/-- Every operation keeps the entries in the bins. -/
theorem Binned.apply {stack : Nat} {h h' : Histogram F} {operation : Operation F}
    (hb : h.Binned n) (happly : h.apply stack operation = some h') : h'.Binned n := by
  cases operation with
  | fill x mult => exact hb.fill happly
  | rescaleToEntries =>
    obtain rfl := Option.some.inj happly
    exact hb.rescaleToEntries
  | rescaleAround center =>
    obtain rfl := Option.some.inj happly
    exact hb.rescale center _
  | rescale center width =>
    obtain rfl := Option.some.inj happly
    exact hb.rescale center width
  | clear =>
    obtain rfl := Option.some.inj happly
    exact .of_empty hb.nrBins_eq rfl

theorem binned_setNrBins (h : Histogram F) (bins : Int) : (h.setNrBins bins).Binned bins :=
  .of_empty rfl rfl

theorem binned_create (nrBins : Int) (min max : F) (autoscale : Bool) :
    (create nrBins min max autoscale).Binned nrBins := .of_empty rfl rfl

end Histogram

end MuonDetector.Data
