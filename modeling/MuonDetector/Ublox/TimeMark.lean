import MuonDetector.Ublox.Serial

/-!
# Time marks over a run

A time mark has a rising and a falling edge, and a message may bring only one of
them. The other one is put a pulse length away, and the length is remembered from
the last message that brought both with less than a millisecond between them. The
fields of a payload are those that `get` reads; for an unsigned `char` they are the
little-endian ones.
-/

namespace MuonDetector.Ublox.TimeMark

open MuonDetector.Library MuonDetector.Library.Reader MuonDetector.Library.Bytes
open MuonDetector.Library.Fields
open MuonDetector.Utility.HelperFunctions MuonDetector.Ublox.Message MuonDetector.Ublox.Events
open MuonDetector.Ublox.MessageProcessor MuonDetector.Ublox.Serial

/-! ## Payloads -/

/-- The fields of a `TIM-TM2` payload. -/
structure TimTM2 where
  flags : UInt8
  count : UInt16
  wnR : UInt16
  wnF : UInt16
  towMsR : UInt32
  towSubMsR : UInt32
  towMsF : UInt32
  towSubMsF : UInt32
  accEst : UInt32
  deriving DecidableEq, Repr

/-- What `get<T>` reads at an offset. -/
def fieldAt (T : Type) [Integral T] (signedChar : Bool) (payload : List UInt8) (off : Nat) : T :=
  getFrom T .little signedChar (bytesAt payload off (Integral.size T))

def fields (signedChar : Bool) (payload : List UInt8) : TimTM2 where
  flags := fieldAt UInt8 signedChar payload 1
  count := fieldAt UInt16 signedChar payload 2
  wnR := fieldAt UInt16 signedChar payload 4
  wnF := fieldAt UInt16 signedChar payload 6
  towMsR := fieldAt UInt32 signedChar payload 8
  towSubMsR := fieldAt UInt32 signedChar payload 12
  towMsF := fieldAt UInt32 signedChar payload 16
  towSubMsF := fieldAt UInt32 signedChar payload 20
  accEst := fieldAt UInt32 signedChar payload 24

def TimTM2.newRising (f : TimTM2) : Bool := f.flags &&& 0x80 ≠ 0
def TimTM2.newFalling (f : TimTM2) : Bool := f.flags &&& 0x04 ≠ 0

/-- The fields below a millisecond are in range. -/
def TimTM2.SubMsFits (f : TimTM2) : Prop := f.towSubMsR < 1000000 ∧ f.towSubMsF < 1000000

/-! ## The promise -/

/-- The Unix time of a GPS week, a time in it and what is left of a millisecond. -/
def unixTime (week : UInt16) (towMs subMs : UInt32) : Timespec where
  tvSec := 315964800 + 604800 * week.toNat + towMs.toNat / 1000
  tvNsec := towMs.toNat % 1000 * 1000000 + subMs.toNat

def TimTM2.rising (f : TimTM2) : Timespec := unixTime f.wnR f.towMsR f.towSubMsR
def TimTM2.falling (f : TimTM2) : Timespec := unixTime f.wnF f.towMsF f.towSubMsF

/-- A time stamp in nanoseconds. -/
def nanoseconds (t : Timespec) : Int := 1000000000 * t.tvSec + t.tvNsec

/-- The pulse that a payload brings, if it brings one shorter than a millisecond. -/
def TimTM2.pulse? (f : TimTM2) : Option Int :=
  let length := nanoseconds f.falling - nanoseconds f.rising
  if f.newRising ∧ f.newFalling ∧ 0 < length ∧ length < 1000000 then some length else none

/-- The length of the last pulse, or zero when there was none. -/
def lastPulse (fs : List TimTM2) : Int := (fs.filterMap TimTM2.pulse?).getLast?.getD 0

/-- The nanoseconds of a time stamp are less than a second. -/
def Normal (t : Timespec) : Prop := 0 ≤ t.tvNsec ∧ t.tvNsec < 1000000000

/-- What the mark of a payload is after the given ones. -/
structure Recovered (before : List TimTM2) (f : TimTM2) (tm : UbxTimeMarkStruct) : Prop where
  normal : Normal tm.rising ∧ Normal tm.falling
  both : f.newRising → f.newFalling → tm.rising = f.rising ∧ tm.falling = f.falling
  onlyRising : f.newRising → ¬f.newFalling →
    tm.rising = f.rising ∧ nanoseconds tm.falling - nanoseconds tm.rising = lastPulse before
  onlyFalling : ¬f.newRising → f.newFalling →
    tm.falling = f.falling ∧ nanoseconds tm.falling - nanoseconds tm.rising = lastPulse before

/-! ## The decoder -/

/-- The mark before a missing edge is recovered. -/
def TimTM2.mark (f : TimTM2) : UbxTimeMarkStruct where
  rising := f.rising
  falling := f.falling
  risingValid := f.newRising
  fallingValid := f.newFalling
  accuracyNs := f.accEst
  valid := f.flags &&& 0x40 ≠ 0
  timeBase := (f.flags &&& 0x18) >>> 3
  utcAvailable := f.flags &&& 0x20 ≠ 0
  flags := f.flags
  evtCounter := f.count

theorem unixtimeFromGps_eq (week : UInt16) (towMs subMs : UInt32) :
    unixtimeFromGps week.toNat (towMs / 1000).toNat (nsOfSecond towMs subMs) =
      unixTime week towMs subMs := by
  have hsec : gpsUnixEpochOffset + (week.toNat : Int) * 7 * 24 * 3600 + (towMs / 1000).toNat =
      315964800 + 604800 * week.toNat + towMs.toNat / 1000 := by
    rw [UInt32.toNat_div]
    simp [gpsUnixEpochOffset]
    ring
  rw [unixtimeFromGps, hsec]
  rfl

theorem gives_ubxTimTM2 (c : Bool) (last : Int) {payload : List UInt8}
    (h : 28 ≤ payload.length) :
    Gives payload (ubxTimTM2 c last) (recoverEdges last (fields c payload).mark) := by
  have g : ∀ (T : Type) [Integral T] (off : Nat), off + Integral.size T ≤ 28 →
      Gives payload (get T c off) (fieldAt T c payload off) := fun T _ off hoff =>
    gives_getEndian .little c (hoff.trans h)
  unfold ubxTimTM2
  refine (g UInt8 0 (by decide)).bind ((g UInt8 1 (by decide)).bind ((g UInt16 2 (by decide)).bind
    ((g UInt16 4 (by decide)).bind ((g UInt16 6 (by decide)).bind
      ((g UInt32 8 (by decide)).bind ?_)))))
  refine (g UInt32 12 (by decide)).bind ((g UInt32 16 (by decide)).bind
    ((g UInt32 20 (by decide)).bind ((g UInt32 24 (by decide)).bind ?_)))
  rw [unixtimeFromGps_eq, unixtimeFromGps_eq]
  exact Gives.pure payload _

/-! ## One recovery -/

theorem normal_unixTime {week : UInt16} {towMs subMs : UInt32} (h : subMs < 1000000) :
    Normal (unixTime week towMs subMs) := by
  have hsub : subMs.toNat < 1000000 := UInt32.lt_iff_toNat_lt.mp h
  simp only [Normal, unixTime]
  omega

/-- The length of a pulse that may be remembered. -/
def Remembered (length : Int) : Prop := 0 ≤ length ∧ length < 1000000

theorem remembered_lastPulse (fs : List TimTM2) : Remembered (lastPulse fs) := by
  rw [lastPulse]
  cases hlast : (fs.filterMap TimTM2.pulse?).getLast? with
  | none => exact ⟨by simp, by simp⟩
  | some length =>
    obtain ⟨f, -, hf⟩ := List.mem_filterMap.mp (List.mem_of_getLast? hlast)
    simp only [TimTM2.pulse?, Option.ite_none_right_eq_some, Option.some.injEq] at hf
    obtain ⟨⟨-, -, hpos, hlt⟩, heq⟩ := hf
    rw [heq] at hpos hlt
    rw [Option.getD_some]
    exact ⟨le_of_lt hpos, hlt⟩

/-- The pulse of a message replaces the one before it. -/
theorem lastPulse_append (fs : List TimTM2) (f : TimTM2) :
    lastPulse (fs ++ [f]) = f.pulse?.getD (lastPulse fs) := by
  rw [lastPulse, List.filterMap_append]
  cases h : f.pulse? with
  | none => simp [h, lastPulse]
  | some length => simp [h]

theorem lastPulse_of_oneEdge (fs : List TimTM2) {f : TimTM2}
    (h : ¬(f.newRising = true ∧ f.newFalling = true)) : lastPulse (fs ++ [f]) = lastPulse fs := by
  have hnone : f.pulse? = none := if_neg fun hlength => h ⟨hlength.1, hlength.2.1⟩
  rw [lastPulse_append, hnone, Option.getD_none]

/-- A time stamp moved back by a remembered length. -/
theorem recoverEdges_rising {last : Int} {tm : UbxTimeMarkStruct} (hlast : Remembered last)
    (hnormal : Normal tm.falling) (hr : tm.risingValid = false) (hf : tm.fallingValid = true) :
    ∃ t, recoverEdges last tm = ({ tm with rising := t }, last) ∧ Normal t ∧
      nanoseconds tm.falling - nanoseconds t = last := by
  obtain ⟨hlow, hhigh⟩ := hlast
  obtain ⟨hpos, hlt⟩ := hnormal
  have hdiv : last.tdiv 1000000000 = 0 := Int.tdiv_eq_zero_of_lt hlow (by omega)
  have hmod : last.tmod 1000000000 = last := Int.tmod_eq_of_lt hlow (by omega)
  simp only [recoverEdges, hr, hf, hdiv, hmod]
  by_cases hborrow : tm.falling.tvNsec - last < 0
  · have hcarry : ¬tm.falling.tvNsec - last ≥ 1000000000 := by omega
    refine ⟨⟨tm.falling.tvSec - 0 - 1, tm.falling.tvNsec - last + 1000000000⟩, ?_, ?_, ?_⟩
    · simp [hborrow, hcarry]
    · simp only [Normal]
      omega
    · simp only [nanoseconds]
      ring
  · have hcarry : ¬tm.falling.tvNsec - last ≥ 1000000000 := by omega
    refine ⟨⟨tm.falling.tvSec - 0, tm.falling.tvNsec - last⟩, ?_, ?_, ?_⟩
    · simp [hborrow, hcarry]
    · simp only [Normal]
      omega
    · simp only [nanoseconds]
      ring

/-- A time stamp moved forward by a remembered length. -/
theorem recoverEdges_falling {last : Int} {tm : UbxTimeMarkStruct} (hlast : Remembered last)
    (hnormal : Normal tm.rising) (hr : tm.risingValid = true) (hf : tm.fallingValid = false) :
    ∃ t, recoverEdges last tm = ({ tm with falling := t }, last) ∧ Normal t ∧
      nanoseconds t - nanoseconds tm.rising = last := by
  obtain ⟨hlow, hhigh⟩ := hlast
  obtain ⟨hpos, hlt⟩ := hnormal
  have hdiv : last.tdiv 1000000000 = 0 := Int.tdiv_eq_zero_of_lt hlow (by omega)
  have hmod : last.tmod 1000000000 = last := Int.tmod_eq_of_lt hlow (by omega)
  simp only [recoverEdges, hr, hf, hdiv, hmod]
  by_cases hcarry : tm.rising.tvNsec + last ≥ 1000000000
  · refine ⟨⟨tm.rising.tvSec + 0 + 1, tm.rising.tvNsec + last - 1000000000⟩, ?_, ?_, ?_⟩
    · simp [hcarry]
    · simp only [Normal]
      omega
    · simp only [nanoseconds]
      ring
  · refine ⟨⟨tm.rising.tvSec + 0, tm.rising.tvNsec + last⟩, ?_, ?_, ?_⟩
    · simp [hcarry]
    · simp only [Normal]
      omega
    · simp only [nanoseconds]
      ring

/-- Both edges: the mark stays, and its length may be remembered. -/
theorem recoverEdges_both {last : Int} {tm : UbxTimeMarkStruct} (hr : tm.risingValid = true)
    (hf : tm.fallingValid = true) :
    recoverEdges last tm = (tm,
      if 0 < nanoseconds tm.falling - nanoseconds tm.rising ∧
        nanoseconds tm.falling - nanoseconds tm.rising < 1000000
      then nanoseconds tm.falling - nanoseconds tm.rising else last) := by
  have hlength : (tm.falling.tvSec - tm.rising.tvSec) * 1000000000 +
      (tm.falling.tvNsec - tm.rising.tvNsec) = nanoseconds tm.falling - nanoseconds tm.rising := by
    simp only [nanoseconds]
    ring
  simp only [recoverEdges, hr, hf, hlength]
  rfl

/-- **One message**: the mark is recovered, and the length of its pulse remembered. -/
theorem recoverEdges_recovered (before : List TimTM2) {f : TimTM2} (h : f.SubMsFits) :
    ∃ tm, recoverEdges (lastPulse before) f.mark = (tm, lastPulse (before ++ [f])) ∧
      Recovered before f tm := by
  have hlast := remembered_lastPulse before
  have hrising : Normal f.rising := normal_unixTime h.1
  have hfalling : Normal f.falling := normal_unixTime h.2
  cases hr : f.newRising with
  | false =>
    rw [lastPulse_of_oneEdge before (by simp [hr])]
    cases hf : f.newFalling with
    | false =>
      refine ⟨f.mark, ?_, ⟨hrising, hfalling⟩, ?_, ?_, ?_⟩
      · simp [recoverEdges, TimTM2.mark, hr, hf]
      · simp [hr]
      · simp [hr]
      · simp [hf]
    | true =>
      obtain ⟨t, heq, hnormal, hdiff⟩ :=
        recoverEdges_rising hlast (show Normal f.mark.falling from hfalling) hr hf
      refine ⟨_, heq, ⟨hnormal, hfalling⟩, ?_, ?_, ?_⟩
      · simp [hr]
      · simp [hr]
      · exact fun _ _ => ⟨rfl, hdiff⟩
  | true =>
    cases hf : f.newFalling with
    | false =>
      rw [lastPulse_of_oneEdge before (by simp [hf])]
      obtain ⟨t, heq, hnormal, hdiff⟩ :=
        recoverEdges_falling hlast (show Normal f.mark.rising from hrising) hr hf
      refine ⟨_, heq, ⟨hrising, hnormal⟩, ?_, ?_, ?_⟩
      · simp [hf]
      · exact fun _ _ => ⟨rfl, hdiff⟩
      · simp [hr]
    | true =>
      refine ⟨f.mark, ?_, ⟨hrising, hfalling⟩, ?_, ?_, ?_⟩
      · have hmarkR : f.mark.risingValid = true := hr
        have hmarkF : f.mark.fallingValid = true := hf
        rw [recoverEdges_both hmarkR hmarkF, lastPulse_append, TimTM2.pulse?]
        simp only [hr, hf, true_and]
        show (f.mark, if 0 < nanoseconds f.falling - nanoseconds f.rising ∧
          nanoseconds f.falling - nanoseconds f.rising < 1000000
          then nanoseconds f.falling - nanoseconds f.rising else lastPulse before) = _
        split_ifs
        · rw [Option.getD_some]
        · rw [Option.getD_none]
      · exact fun _ _ => ⟨rfl, rfl⟩
      · simp [hf]
      · simp [hr]

/-! ## The run -/

theorem timTM2_handler (c : Bool) (s : ProcessorState) :
    (handlers c s).lookup MsgId.timTM2 = some (timTM2Handler c s) := rfl

theorem processMessage_timTM2 (c : Bool) (s : ProcessorState) {payload : List UInt8}
    (h : 28 ≤ payload.length) :
    (processMessage c s ⟨MsgId.timTM2, payload⟩).1 =
      some (some (.timTM2 (recoverEdges s.lastPulseLength (fields c payload).mark).1),
        { s with
          lastPulseLength := (recoverEdges s.lastPulseLength (fields c payload).mark).2 }) := by
  change Gives payload (decode c s MsgId.timTM2) _
  rw [decode_of_handler (timTM2_handler c s), timTM2Handler]
  refine Gives.bind ((gives_ubxTimTM2 c s.lastPulseLength h).bind (Gives.pure payload _)) ?_
  exact Gives.pure payload _

def timTM2Message (payload : List UInt8) : UbxMessage := ⟨MsgId.timTM2, payload⟩

/-- The marks of the messages after the ones that gave `before`. -/
theorem processMessages_recovered (c : Bool) (payloads : List (List UInt8))
    (before : List TimTM2) (s : ProcessorState) (hs : s.lastPulseLength = lastPulse before)
    (hlen : ∀ p ∈ payloads, 28 ≤ p.length) (hfits : ∀ p ∈ payloads, (fields c p).SubMsFits) :
    ∃ (marks : List UbxTimeMarkStruct) (s' : ProcessorState),
      processMessages c s (payloads.map timTM2Message) = some (marks.map UbxEvent.timTM2, s') ∧
      s'.lastPulseLength = lastPulse (before ++ payloads.map (fields c)) ∧
      marks.length = payloads.length ∧
      ∀ i, ∀ p ∈ payloads[i]?, ∀ tm ∈ marks[i]?,
        Recovered (before ++ (payloads.take i).map (fields c)) (fields c p) tm := by
  induction payloads generalizing before s with
  | nil => exact ⟨[], s, rfl, by simpa using hs, rfl, by simp⟩
  | cons payload rest ih =>
    obtain ⟨tm, heq, hrecovered⟩ :=
      recoverEdges_recovered before (hfits payload (List.mem_cons_self ..))
    have hfirst := processMessage_timTM2 c s (hlen payload (List.mem_cons_self ..))
    rw [hs, heq] at hfirst
    obtain ⟨marks, s', hrest, hlast, hcount, hmarks⟩ :=
      ih (before ++ [fields c payload]) { s with lastPulseLength := lastPulse _ } rfl
        (fun p hp => hlen p (List.mem_cons_of_mem _ hp))
        (fun p hp => hfits p (List.mem_cons_of_mem _ hp))
    refine ⟨tm :: marks, s', ?_, ?_, ?_, ?_⟩
    · rw [List.map_cons, processMessages]
      simp only [timTM2Message] at hfirst hrest ⊢
      simp [hfirst, hrest]
    · rw [hlast]
      simp
    · simp [hcount]
    · intro i p hp m hm
      cases i with
      | zero =>
        simp only [List.getElem?_cons_zero, Option.mem_def, Option.some.injEq] at hp hm
        subst hp hm
        simpa using hrecovered
      | succ i =>
        simp only [List.getElem?_cons_succ] at hp hm
        have hnext := hmarks i p hp m hm
        simpa using hnext

/-- **The edges are recovered in every run of `TIM-TM2` messages.** -/
theorem edges_recovered (c : Bool) (payloads : List (List UInt8))
    (hlen : ∀ p ∈ payloads, 28 ≤ p.length) (hfits : ∀ p ∈ payloads, (fields c p).SubMsFits) :
    ∃ (marks : List UbxTimeMarkStruct) (s : ProcessorState),
      processMessages c {} (payloads.map timTM2Message) = some (marks.map UbxEvent.timTM2, s) ∧
      Remembered s.lastPulseLength ∧ marks.length = payloads.length ∧
      ∀ i, ∀ p ∈ payloads[i]?, ∀ tm ∈ marks[i]?,
        Recovered ((payloads.take i).map (fields c)) (fields c p) tm := by
  obtain ⟨marks, s, hrun, hlast, hcount, hmarks⟩ :=
    processMessages_recovered c payloads [] {} rfl hlen hfits
  refine ⟨marks, s, hrun, ?_, hcount, hmarks⟩
  rw [hlast]
  exact remembered_lastPulse _

/-- Both edges 300 us apart, then a falling edge alone right after a new second. -/
def pulseThenFalling : List (List UInt8) :=
  [[0, 0x84, 1, 0, 0xd0, 0x08, 0xd0, 0x08, 0xe7, 3, 0, 0, 0, 0, 0, 0,
      0xe7, 3, 0, 0, 0xe0, 0x93, 4, 0, 20, 0, 0, 0],
    [0, 0x04, 1, 0, 0xd0, 0x08, 0xd0, 0x08, 0, 0, 0, 0, 0, 0, 0, 0,
      0xd0, 7, 0, 0, 10, 0, 0, 0, 20, 0, 0, 0]]

theorem edges_recovered_pulseThenFalling :
    ∃ (marks : List UbxTimeMarkStruct) (s : ProcessorState),
      processMessages false {} (pulseThenFalling.map timTM2Message) =
        some (marks.map UbxEvent.timTM2, s) ∧
      Remembered s.lastPulseLength ∧ marks.length = pulseThenFalling.length ∧
      ∀ i, ∀ p ∈ pulseThenFalling[i]?, ∀ tm ∈ marks[i]?,
        Recovered ((pulseThenFalling.take i).map (fields false)) (fields false p) tm :=
  edges_recovered false pulseThenFalling (by decide)
    (by simp only [TimTM2.SubMsFits]; decide +kernel)

end MuonDetector.Ublox.TimeMark
