import MuonDetector.Capnp.EventCodecs
import MuonDetector.Data.Histogram
import MuonDetector.Library.Machine

/-!
# The codec of histograms

A histogram is decoded through its setters. There is one for every field but the two
counters of what lies outside of the range, so these are sent and not read.
-/

namespace MuonDetector.Capnp.HistogramCodec

open MuonDetector.Library.Floats MuonDetector.Library.Machine MuonDetector.Library.Messages
open MuonDetector.Library.SortedMaps
open MuonDetector.Capnp.EventCodecs MuonDetector.Data MuonDetector.Network.MessageKeys

variable {lib : Serializer}

/-- A histogram with its name and its unit. -/
structure NamedHistogram extends Histogram Binary64 where
  name : List UInt8
  unit : List UInt8
  deriving DecidableEq, Repr

structure BinEntryCapnp where
  bin : Int32 := 0
  content : Binary64 := {}
  deriving DecidableEq, Repr, Countable

structure HistogramCapnp where
  name : List UInt8 := []
  unit : List UInt8 := []
  nrBins : Int32 := 0
  min : Binary64 := {}
  max : Binary64 := {}
  overflow : Binary64 := {}
  underflow : Binary64 := {}
  autoscale : Bool := false
  bins : List BinEntryCapnp := []
  deriving DecidableEq, Repr, Countable

instance : Message HistogramCapnp where

/-- `Histogram()`, with the name `defaultHisto` and the unit `A.U.`. -/
def defaultHisto : NamedHistogram where
  nrBins := 100
  min := 0.0
  max := 1.0
  overflow := 0.0
  underflow := 0.0
  name := [0x64, 0x65, 0x66, 0x61, 0x75, 0x6c, 0x74, 0x48, 0x69, 0x73, 0x74, 0x6f]
  unit := [0x41, 0x2e, 0x55, 0x2e]

/-- The setters one after another, in their order. -/
def histogram : CapnpCodec NamedHistogram where
  Root := HistogramCapnp
  messageKey := TcpMsgKey.histogram.number
  toRoot h := {
    name := h.name
    unit := h.unit
    nrBins := .ofInt h.nrBins
    min := h.min
    max := h.max
    overflow := h.overflow
    underflow := h.underflow
    autoscale := h.autoscale
    bins := h.histogramMap.map fun entry => ⟨.ofInt entry.1, entry.2⟩ }
  ofRoot root :=
    let h := { defaultHisto with name := cStr root.name }
    let h := { h with unit := cStr root.unit }
    let h := { h with toHistogram := h.toHistogram.setNrBins root.nrBins.toInt }
    let h := { h with min := root.min }
    let h := { h with max := root.max }
    let h := { h with autoscale := root.autoscale }
    some { h with
      toHistogram := root.bins.foldl
        (fun (h : Histogram Binary64) entry => h.setBinContent entry.bin.toInt entry.content)
        h.toHistogram }

/-! ## The bins -/

/-- The entries of the bins are set one after another. -/
theorem foldl_setBinContent {h : Histogram Binary64} {entries : List (Int × Binary64)}
    (hbins : ∀ entry ∈ entries, 0 ≤ entry.1 ∧ entry.1 < h.nrBins) :
    entries.foldl (fun (h : Histogram Binary64) entry => h.setBinContent entry.1 entry.2) h =
      { h with
        histogramMap := entries.foldl (fun made entry => alter entry.1 (fun _ => entry.2) made)
          h.histogramMap } := by
  induction entries generalizing h with
  | nil => rfl
  | cons entry entries ih =>
    have hfirst := hbins entry List.mem_cons_self
    have hset : h.setBinContent entry.1 entry.2 =
        { h with histogramMap := alter entry.1 (fun _ => entry.2) h.histogramMap } := if_pos hfirst
    rw [List.foldl_cons, hset]
    exact ih (h := { h with histogramMap := alter entry.1 (fun _ => entry.2) h.histogramMap })
      fun e he => hbins e (List.mem_cons_of_mem _ he)

theorem int32_ofInt_of_bin {bin nrBins : Int} (hbin : 0 ≤ bin ∧ bin < nrBins)
    (hint : nrBins < 2 ^ 31) : (Int32.ofInt bin).toInt = bin :=
  int32_ofInt_eq_self.mpr (by omega)

/-- A histogram that was made and worked on by its operations. -/
def Reached (h : Histogram Binary64) : Prop :=
  ∃ (nrBins : Int32) (min max : Binary64) (autoscale : Bool) (stack : Nat)
    (operations : List (Histogram.Operation Binary64)),
    run (Histogram.apply stack) (Histogram.create nrBins.toInt min max autoscale) operations = some h

theorem binned_of_reached {h : Histogram Binary64} (hreached : Reached h) :
    ∃ nrBins : Int32, h.Binned nrBins.toInt := by
  obtain ⟨nrBins, min, max, autoscale, stack, operations, hrun⟩ := hreached
  exact ⟨nrBins, run_history (I := fun _ h => h.Binned nrBins.toInt)
    (fun _ _ _ _ hb happly => hb.apply happly)
    (Histogram.binned_create nrBins.toInt min max autoscale) hrun⟩

/-- What comes back: everything but what lies outside of the range. -/
theorem decode_encode {h : NamedHistogram} (hreached : Reached h.toHistogram) :
    histogram.decode lib (histogram.encode lib h) =
      some { h with
        name := cStr h.name
        unit := cStr h.unit
        underflow := 0.0
        overflow := 0.0 } := by
  obtain ⟨nrBins, hbins, hordered, hin⟩ := binned_of_reached hreached
  obtain ⟨⟨n, min, max, overflow, underflow, entries, autoscale⟩, name, unit⟩ := h
  simp only at hbins hordered hin
  have hn : (Int32.ofInt n).toInt = n := by
    rw [hbins]
    exact int32_ofInt_eq_self.mpr ⟨nrBins.le_toInt, nrBins.toInt_lt⟩
  have hentries : ∀ h : Histogram Binary64,
      (entries.map fun entry => (⟨.ofInt entry.1, entry.2⟩ : BinEntryCapnp)).foldl
        (fun (h : Histogram Binary64) entry => h.setBinContent entry.bin.toInt entry.content) h =
      entries.foldl (fun (h : Histogram Binary64) entry => h.setBinContent entry.1 entry.2) h := by
    intro h
    rw [List.foldl_map]
    apply List.foldl_ext
    intro h' entry hentry
    have hbin : (Int32.ofInt entry.1).toInt = entry.1 :=
      int32_ofInt_of_bin (hin entry hentry) nrBins.toInt_lt
    rw [hbin]
  have hin' : ∀ entry ∈ entries, 0 ≤ entry.1 ∧ entry.1 < n := by simpa only [hbins] using hin
  have hmade := foldl_setBinContent (h := ⟨n, min, max, 0.0, 0.0, [], autoscale⟩) hin'
  rw [foldl_alter hordered] at hmade
  rw [Codec.decode_encode]
  simp only [histogram, hentries, hn]
  exact congrArg (fun made => some (NamedHistogram.mk made (cStr name) (cStr unit))) hmade

/-- **When a histogram comes back as it was.** Name, unit, bins, range and contents do,
where the texts hold no zero byte. What lies outside of the range is lost, so all of it
comes back exactly when nothing does. -/
theorem histogram_roundTrips_iff {h : NamedHistogram} (hreached : Reached h.toHistogram) :
    histogram.decode lib (histogram.encode lib h) =
        some { h with
          name := cStr h.name
          unit := cStr h.unit
          underflow := 0.0
          overflow := 0.0 } ∧
      (histogram.RoundTrips lib h ↔
        h.underflow = 0.0 ∧ h.overflow = 0.0 ∧ 0 ∉ h.name ∧ 0 ∉ h.unit) := by
  refine ⟨decode_encode hreached, ?_⟩
  rw [Codec.RoundTrips, decode_encode hreached]
  obtain ⟨⟨n, min, max, overflow, underflow, entries, autoscale⟩, name, unit⟩ := h
  simp only [Option.some.injEq, NamedHistogram.mk.injEq, Histogram.mk.injEq, true_and, and_true,
    cStr_eq_self, @eq_comm Binary64 0.0]
  tauto

/-- Ten bins from 0 to 1. -/
def sample (operations : List (Histogram.Operation Binary64)) : Option (Histogram Binary64) :=
  run (Histogram.apply 2) (Histogram.create (10 : Int32).toInt 0.0 1.0 false) operations

theorem reached_sample {operations : List (Histogram.Operation Binary64)}
    {h : Histogram Binary64} (hh : sample operations = some h) : Reached h :=
  ⟨10, 0.0, 1.0, false, 2, operations, hh⟩

/-- With one entry inside of the range. -/
theorem histogram_roundTrips_inside :
    ∃ h, sample [.fill 0.5 1.0] = some h ∧
      ∃ lib : Serializer, histogram.RoundTrips lib ⟨h, [0x61], []⟩ := by
  have hempty : (sample [.fill 0.5 1.0]).map (fun h => (h.underflow, h.overflow)) =
      some (0.0, 0.0) := by decide +kernel
  obtain ⟨h, hh, hcounters⟩ := Option.map_eq_some_iff.mp hempty
  obtain ⟨hunderflow, hoverflow⟩ := Prod.mk.inj hcounters
  obtain ⟨lib⟩ := Serializer.nonempty
  refine ⟨h, hh, lib, (histogram_roundTrips_iff (reached_sample hh)).2.mpr ?_⟩
  have hname : (0 : UInt8) ∉ [0x61] := by decide
  exact ⟨hunderflow, hoverflow, hname, List.not_mem_nil⟩

/-- With one entry above the range the histogram that comes back has none. -/
theorem histogram_overflow_lost :
    ∃ h, sample [.fill 5.0 1.0] = some h ∧ h.getEntries = 1.0 ∧
      ∃ (lib : Serializer) (h' : NamedHistogram),
        histogram.decode lib (histogram.encode lib ⟨h, [0x61], []⟩) = some h' ∧
          h'.getEntries = 0.0 := by
  have hfilled : (sample [.fill 5.0 1.0]).map
      (fun h => (h.getEntries, { h with underflow := 0.0, overflow := 0.0 }.getEntries)) =
      some (1.0, 0.0) := by decide +kernel
  obtain ⟨h, hh, hentries⟩ := Option.map_eq_some_iff.mp hfilled
  obtain ⟨hbefore, hafter⟩ := Prod.mk.inj hentries
  obtain ⟨lib⟩ := Serializer.nonempty
  refine ⟨h, hh, hbefore, lib, _, decode_encode (reached_sample hh), hafter⟩

end MuonDetector.Capnp.HistogramCodec
