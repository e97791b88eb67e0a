import MuonDetector.Library.Exact
import Mathlib.Data.List.Chain

/-!
# The rate of a wrapping counter

The receiver counts events in 16 bits. The buffer holds the latest values and averages
over those that are not older than the buffer time, which is in microseconds. In the loop
the start of the average moves to the entry after a skipped one, and so no second entry is
skipped, however old it is.
-/

namespace MuonDetector.Utility

open MuonDetector.Library.Floats MuonDetector.Library.Exact

variable {F : Type}

structure CounterRateBuffer where
  counterMask : UInt32 := 0xffff
  bufferTime : Int := 30 * 10 ^ 6
  countbuffer : List (Int × UInt16) := []
  instanceStart : Int
  deriving DecidableEq, Repr

namespace CounterRateBuffer

def setBufferTime (b : CounterRateBuffer) (buftime : Int) : CounterRateBuffer :=
  { b with bufferTime := buftime * 10 ^ 6 }

/-- Entries older than the buffer time leave, as long as two are left. -/
def prune (bufferTime eventTime : Int) : List (Int × UInt16) → List (Int × UInt16)
  | front :: second :: third :: rest =>
    if eventTime - front.1 > bufferTime * 10 ^ 3 then
      prune bufferTime eventTime (second :: third :: rest)
    else front :: second :: third :: rest
  | entries => entries

/-- The clock says `eventTime`. -/
def onCounterValue (b : CounterRateBuffer) (eventTime : Int) (value : UInt16) :
    CounterRateBuffer :=
  let countbuffer := b.countbuffer ++ [(eventTime, value)]
  if countbuffer.length = 1 then { b with countbuffer := countbuffer }
  else { b with countbuffer := prune b.bufferTime eventTime countbuffer }

/-- The differences of the entries from `tstart` on, in the 32 bits of an `unsigned int`. -/
def sumCounts (mask : UInt32) (tstart totalCounts : Int) : List (Int × UInt16) → Int × Int
  | entry :: next :: rest =>
    if entry.1 < tstart then sumCounts mask next.1 totalCounts (next :: rest)
    else
      let diffCount : Int := next.2.toNat - entry.2.toNat
      let diffCount := if diffCount < 0 then diffCount + (mask + 1).toNat else diffCount
      sumCounts mask tstart ((totalCounts + diffCount) % 2 ^ 32) (next :: rest)
  | _ => (tstart, totalCounts)

/-- Where the average starts, before the buffer is looked at. -/
def averagingStart (b : CounterRateBuffer) (tend : Int) : Int :=
  if tend - b.bufferTime * 10 ^ 3 < b.instanceStart then b.instanceStart
  else tend - b.bufferTime * 10 ^ 3

/-- The start of the average and the counts since then. -/
def averaged (b : CounterRateBuffer) (tend : Int) : Int × Int :=
  sumCounts b.counterMask (b.averagingStart tend) 0 b.countbuffer

/-- What the counts are divided by. -/
def span [Floating F] (b : CounterRateBuffer) (tend : Int) : F :=
  1e-6 * Floating.ofInt ((tend - (b.averaged tend).1).tdiv (10 ^ 3))

/-- The clock says `tend`. -/
def avgRate [Floating F] (b : CounterRateBuffer) (tend : Int) : F :=
  if b.countbuffer.length < 2 then 0.0
  else Floating.ofInt (b.averaged tend).2 / b.span tend

/-! ## True counts -/

inductive Call where
  | count (time : Int) (total : Nat)
  | setBufferTime (buftime : Int)
  deriving DecidableEq, Repr

/-- The buffer is told the lower 16 bits of a count. -/
def after (b : CounterRateBuffer) : Call → CounterRateBuffer
  | .count time total => b.onCounterValue time (UInt16.ofNat total)
  | .setBufferTime buftime => b.setBufferTime buftime

def afterAll (b : CounterRateBuffer) (calls : List Call) : CounterRateBuffer := calls.foldl after b

/-- The counts that were told, with their times. -/
def reports (calls : List Call) : List (Int × Nat) :=
  calls.filterMap fun
    | .count time total => some (time, total)
    | .setBufferTime _ => none

/-- What the buffer holds of a report. -/
def wrapped (report : Int × Nat) : Int × UInt16 := (report.1, UInt16.ofNat report.2)

/-- The reports whose entries are still in the buffer. -/
def buffered (b : CounterRateBuffer) (calls : List Call) : List (Int × Nat) :=
  (reports calls).drop ((reports calls).length - b.countbuffer.length)

/-- Counts that do not decrease, each less than 65536 above the one before, at times that do
not decrease. -/
structure Counting (entries : List (Int × Nat)) : Prop where
  times : entries.Pairwise fun early late => early.1 ≤ late.1
  counts : entries.IsChain fun early late => early.2 ≤ late.2 ∧ late.2 < early.2 + 65536

/-! ## What the buffer holds -/

theorem prune_suffix (bufferTime eventTime : Int) (entries : List (Int × UInt16)) :
    prune bufferTime eventTime entries <:+ entries := by
  fun_induction prune bufferTime eventTime entries with
  | case1 front second third rest hold ih => exact ih.trans (List.suffix_cons front _)
  | case2 => exact List.suffix_refl _
  | case3 => exact List.suffix_refl _

theorem two_le_prune (bufferTime eventTime : Int) {entries : List (Int × UInt16)}
    (h : 2 ≤ entries.length) : 2 ≤ (prune bufferTime eventTime entries).length := by
  fun_induction prune bufferTime eventTime entries with
  | case1 front second third rest hold ih => exact ih (Nat.le_add_left 2 rest.length)
  | case2 => exact h
  | case3 => exact h

/-- The buffer holds the latest of the reports, and at least two once there are two. -/
structure Holds (calls : List Call) (b : CounterRateBuffer) : Prop where
  counterMask : b.counterMask = 0xffff
  suffix : b.countbuffer <:+ (reports calls).map wrapped
  kept : min 2 (reports calls).length ≤ b.countbuffer.length

/-- A value joins the buffer, and what leaves it leaves two entries. -/
theorem onCounterValue_spec (b : CounterRateBuffer) (time : Int) (value : UInt16) :
    (b.onCounterValue time value).counterMask = b.counterMask ∧
      (b.onCounterValue time value).countbuffer <:+ b.countbuffer ++ [(time, value)] ∧
      min 2 (b.countbuffer.length + 1) ≤ (b.onCounterValue time value).countbuffer.length := by
  have hlength : (b.countbuffer ++ [(time, value)]).length = b.countbuffer.length + 1 :=
    List.length_append
  simp only [onCounterValue]
  split
  · exact ⟨rfl, List.suffix_refl _, (Nat.min_le_right ..).trans hlength.ge⟩
  · next hone =>
    have htwo : 2 ≤ (b.countbuffer ++ [(time, value)]).length := by omega
    exact ⟨rfl, prune_suffix .., (Nat.min_le_left ..).trans (two_le_prune _ _ htwo)⟩

theorem holds_onCounterValue {calls : List Call} {b : CounterRateBuffer} (h : Holds calls b)
    (time : Int) (total : Nat) :
    Holds (calls ++ [.count time total]) (b.onCounterValue time (UInt16.ofNat total)) := by
  have hreports : reports (calls ++ [.count time total]) = reports calls ++ [(time, total)] :=
    List.filterMap_append ..
  obtain ⟨hmask, hsuffix, hkept⟩ := onCounterValue_spec b time (UInt16.ofNat total)
  have hall : b.countbuffer ++ [(time, UInt16.ofNat total)] <:+
      (reports calls ++ [(time, total)]).map wrapped := by
    rw [List.map_append]
    exact List.suffix_append_self_iff.mpr h.suffix
  have hcount : (reports calls ++ [(time, total)]).length = (reports calls).length + 1 :=
    List.length_append
  have hbefore := h.kept
  constructor
  · exact hmask.trans h.counterMask
  · rw [hreports]
    exact hsuffix.trans hall
  · rw [hreports, hcount]
    omega

theorem holds_afterAll (instanceStart : Int) (calls : List Call) :
    Holds calls (({ instanceStart } : CounterRateBuffer).afterAll calls) := by
  induction calls using List.reverseRecOn with
  | nil => exact ⟨rfl, List.suffix_refl [], Nat.zero_le _⟩
  | append_singleton calls call ih =>
    rw [afterAll, List.foldl_append]
    cases call with
    | count time total => exact holds_onCounterValue ih time total
    | setBufferTime buftime =>
      have hreports : reports (calls ++ [.setBufferTime buftime]) = reports calls :=
        (List.filterMap_append ..).trans (List.append_nil _)
      exact ⟨ih.counterMask, hreports ▸ ih.suffix, hreports ▸ ih.kept⟩

theorem Holds.countbuffer {calls : List Call} {b : CounterRateBuffer} (h : Holds calls b) :
    b.countbuffer = (buffered b calls).map wrapped := by
  rw [buffered, List.map_drop, ← List.length_map (f := wrapped)]
  exact List.suffix_iff_eq_drop.mp h.suffix

theorem buffered_suffix (b : CounterRateBuffer) (calls : List Call) :
    buffered b calls <:+ reports calls := List.drop_suffix ..

theorem Counting.suffix {entries rest : List (Int × Nat)} (h : Counting entries)
    (hsuffix : rest <:+ entries) : Counting rest where
  times := h.times.sublist hsuffix.sublist
  counts := h.counts.suffix hsuffix

/-! ## The sum -/

/-- The entry that the claimed average starts from. -/
def firstWithin (tstart : Int) (entries : List (Int × Nat)) : Int × Nat :=
  (entries.dropWhile fun entry => entry.1 < tstart).headD (entries.getLastD (0, 0))

/-- The entry that the sum starts from: the first, or the second if the first is too old. -/
def summedFrom (tstart : Int) : List (Int × Nat) → Int × Nat
  | front :: second :: _ => if front.1 < tstart then second else front
  | entries => entries.headD (0, 0)

theorem toNat_wrapped (report : Int × Nat) : (wrapped report).2.toNat = report.2 % 65536 :=
  UInt16.toNat_ofNat'

/-- From an entry that is not too old on, all differences are added up. -/
theorem sumCounts_of_le {first : Int × Nat} {entries : List (Int × Nat)}
    (h : Counting (first :: entries)) {tstart : Int} (hstart : tstart ≤ first.1)
    {total : Int} (hnonneg : 0 ≤ total) (hlt : total < 2 ^ 32) :
    sumCounts 0xffff tstart total ((first :: entries).map wrapped) =
      (tstart, (total + ((entries.getLastD first).2 - first.2)) % 2 ^ 32) := by
  induction entries generalizing first total with
  | nil =>
    have htotal : total = (total + (first.2 - first.2)) % 2 ^ 32 := by omega
    exact congrArg (Prod.mk tstart) htotal
  | cons next rest ih =>
    have hrest : Counting (next :: rest) := h.suffix (List.suffix_cons ..)
    have hle : first.1 ≤ next.1 := (List.pairwise_cons.mp h.times).1 next List.mem_cons_self
    obtain ⟨hcount, hless⟩ := (List.isChain_cons_cons.mp h.counts).1
    have hdiff : (if ((wrapped next).2.toNat : Int) - (wrapped first).2.toNat < 0 then
        ((wrapped next).2.toNat : Int) - (wrapped first).2.toNat + ((0xffff + 1 : UInt32)).toNat
        else ((wrapped next).2.toNat : Int) - (wrapped first).2.toNat) = next.2 - first.2 := by
      have hmask : (0xffff + 1 : UInt32).toNat = 65536 := by decide
      rw [toNat_wrapped, toNat_wrapped, hmask]
      split <;> omega
    have hnot : ¬ (wrapped first).1 < tstart := not_lt.mpr hstart
    rw [List.map_cons, List.map_cons, sumCounts, if_neg hnot]
    dsimp only
    rw [hdiff, ← List.map_cons, ih hrest (hstart.trans hle) (Int.emod_nonneg _ (by decide))
      (Int.emod_lt_of_pos _ (by decide)), List.getLastD_cons]
    refine congrArg (Prod.mk tstart) ?_
    omega

/-- The last entry is the latest and has the highest count. -/
theorem Counting.le_last {first : Int × Nat} {entries : List (Int × Nat)}
    (h : Counting (first :: entries)) {entry : Int × Nat} (hmem : entry ∈ first :: entries) :
    entry.1 ≤ (entries.getLastD first).1 ∧ entry.2 ≤ (entries.getLastD first).2 := by
  induction entries generalizing first entry with
  | nil =>
    rw [List.mem_singleton.mp hmem]
    exact ⟨le_refl _, le_refl _⟩
  | cons next rest ih =>
    have hrest : Counting (next :: rest) := h.suffix (List.suffix_cons ..)
    rw [List.getLastD_cons]
    obtain rfl | hmem := List.mem_cons.mp hmem
    · have htime := (List.pairwise_cons.mp h.times).1 next List.mem_cons_self
      have hcount := (List.isChain_cons_cons.mp h.counts).1.1
      obtain ⟨hnext, hnext'⟩ := ih hrest List.mem_cons_self
      exact ⟨htime.trans hnext, hcount.trans hnext'⟩
    · exact ih hrest hmem

theorem Counting.le_getLastD {entries : List (Int × Nat)} (h : Counting entries)
    {entry : Int × Nat} (hmem : entry ∈ entries) :
    entry.1 ≤ (entries.getLastD (0, 0)).1 ∧ entry.2 ≤ (entries.getLastD (0, 0)).2 := by
  cases entries with
  | nil => cases hmem
  | cons first rest =>
    rw [List.getLastD_cons]
    exact h.le_last hmem

/-- The counts from the first entry on, or from the second if the first is too old. -/
theorem sumCounts_eq {entries : List (Int × Nat)} (h : Counting entries)
    (htwo : 2 ≤ entries.length) (tstart : Int) :
    (sumCounts 0xffff tstart 0 (entries.map wrapped)).2 =
        (((entries.getLastD (0, 0)).2 : Int) - (summedFrom tstart entries).2) % 2 ^ 32 ∧
      (sumCounts 0xffff tstart 0 (entries.map wrapped)).1 ≤ (entries.getLastD (0, 0)).1 := by
  match entries, h, htwo with
  | front :: second :: rest, h, _ =>
    have hrest : Counting (second :: rest) := h.suffix (List.suffix_cons ..)
    rw [List.getLastD_cons, List.getLastD_cons, summedFrom]
    by_cases hold : front.1 < tstart
    · have hskip : sumCounts 0xffff tstart 0 ((front :: second :: rest).map wrapped) =
          sumCounts 0xffff second.1 0 ((second :: rest).map wrapped) := if_pos hold
      rw [hskip, sumCounts_of_le hrest (le_refl _) (le_refl 0) (by decide), if_pos hold, zero_add]
      exact ⟨rfl, (hrest.le_last List.mem_cons_self).1⟩
    · have hlast := (h.le_last List.mem_cons_self).1
      rw [List.getLastD_cons] at hlast
      rw [sumCounts_of_le h (not_lt.mp hold) (le_refl 0) (by decide), if_neg hold,
        List.getLastD_cons, zero_add]
      exact ⟨rfl, (not_lt.mp hold).trans hlast⟩

theorem firstWithin_mem {tstart : Int} {entries : List (Int × Nat)} (hne : entries ≠ []) :
    firstWithin tstart entries ∈ entries := by
  rw [firstWithin]
  cases hdrop : entries.dropWhile fun entry => entry.1 < tstart with
  | nil =>
    cases entries with
    | nil => exact absurd rfl hne
    | cons first rest =>
      rw [List.headD_nil, List.getLastD_cons]
      exact List.getLastD_mem_cons
  | cons first rest =>
    have hmem : first ∈ entries.dropWhile fun entry => entry.1 < tstart := by
      rw [hdrop]
      exact List.mem_cons_self
    exact (List.dropWhile_sublist _).subset hmem

/-! ## The average -/

variable {K : Type} [Field K] [LinearOrder K] [FloorRing K] [LongOverflow K]

theorem span_eq (b : CounterRateBuffer) (tend : Int) :
    (b.span tend : K) = ((tend - (b.averaged tend).1).tdiv (10 ^ 3) : Int) / 10 ^ 6 := by
  show (1e-6 : K) * (((tend - (b.averaged tend).1).tdiv (10 ^ 3) : Int) : K) = _
  have hunit : (1e-6 : K) = 1 / 10 ^ 6 := by norm_num
  rw [hunit, one_div_mul_eq_div]

variable [IsStrictOrderedRing K]

/-- The buffer keeps two entries; the sum is that of the counts since the oldest entry that is
not too old exactly when these are less than 2^32, and those between the entry that the sum
starts from and that one a multiple of it; and the divisor is positive. -/
theorem averaged_iff (instanceStart : Int) {calls : List Call} (h : Counting (reports calls)) :
    let b := ({ instanceStart } : CounterRateBuffer).afterAll calls
    let entries := buffered b calls
    min 2 (reports calls).length ≤ b.countbuffer.length ∧
      b.countbuffer = entries.map wrapped ∧
      ∀ tend, 2 ≤ entries.length →
        let last := entries.getLastD (0, 0)
        let first := firstWithin (b.averagingStart tend) entries
        let front := summedFrom (b.averagingStart tend) entries
        ((b.averaged tend).2 = (last.2 : Int) - first.2 ↔
          (last.2 : Int) - first.2 < 2 ^ 32 ∧ (2 ^ 32 : Int) ∣ first.2 - front.2) ∧
        (last.1 + 10 ^ 3 ≤ tend → (0 : K) < b.span tend) := by
  intro b entries
  have hholds := holds_afterAll instanceStart calls
  have hbuffer : b.countbuffer = entries.map wrapped := hholds.countbuffer
  refine ⟨hholds.kept, hbuffer, ?_⟩
  intro tend htwo last first front
  have hentries : Counting entries := h.suffix (buffered_suffix b calls)
  obtain ⟨hsum, hstart⟩ := sumCounts_eq hentries htwo (b.averagingStart tend)
  have haveraged : b.averaged tend =
      sumCounts 0xffff (b.averagingStart tend) 0 (entries.map wrapped) := by
    rw [averaged, hbuffer, hholds.counterMask]
  rw [← haveraged] at hsum hstart
  have hmem : first ∈ entries := firstWithin_mem (List.ne_nil_of_length_pos (by omega))
  have hle : first.2 ≤ last.2 := (hentries.le_getLastD hmem).2
  constructor
  · rw [hsum]
    show ((last.2 : Int) - front.2) % 2 ^ 32 = _ ↔ _
    omega
  · intro hlate
    have hspan : 10 ^ 3 ≤ tend - (b.averaged tend).1 := by
      have hlast : (b.averaged tend).1 ≤ last.1 := hstart
      omega
    have hdiv : 0 < (tend - (b.averaged tend).1).tdiv (10 ^ 3) := by
      rw [Int.tdiv_eq_ediv_of_nonneg (by omega)]
      omega
    have hcast : (0 : K) < ((tend - (b.averaged tend).1).tdiv (10 ^ 3) : Int) :=
      Int.cast_pos.mpr hdiv
    rw [span_eq]
    positivity

/-! ## Two entries that are too old -/

/-- Three counts, one a second. -/
def threeCounts : List Call :=
  [.count 0 0, .count 1000000000 10, .count 2000000000 30]

/-- At 31.5 seconds the first two entries are older than the 30 seconds of the buffer, and the
counts between the second and the last are added all the same. -/
theorem old_entry_counted :
    let b := ({ instanceStart := 0 } : CounterRateBuffer).afterAll threeCounts
    (b.averaged 31500000000).2 = 20 ∧
      b.averagingStart 31500000000 = 1500000000 ∧
      buffered b threeCounts = [(0, 0), (1000000000, 10), (2000000000, 30)] ∧
      firstWithin 1500000000 (buffered b threeCounts) = (2000000000, 30) := by
  decide

theorem averaged_iff_three :
    let b := ({ instanceStart := 0 } : CounterRateBuffer).afterAll threeCounts
    (0 : ℚ) < b.span 2500000000 ∧ (b.averaged 2500000000).2 = 30 := by
  have h : Counting (reports threeCounts) := by
    constructor
    · decide
    · decide
  obtain ⟨-, -, haverage⟩ := averaged_iff (K := ℚ) 0 h
  obtain ⟨hcounts, hpos⟩ := haverage 2500000000 (by decide)
  exact ⟨hpos (by decide), (hcounts.mpr (by decide)).trans (by decide)⟩

end CounterRateBuffer

end MuonDetector.Utility
