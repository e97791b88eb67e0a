import MuonDetector.Library.Exact
import MuonDetector.Library.Windows
import MuonDetector.Utility.GpioRateBuffer

/-!
# The sliding rate

The estimator holds the events that are in the window, but divides their number, and not
the number of the intervals between them, by the time from the first to the last.
-/

namespace MuonDetector.Utility.SlidingRate

open MuonDetector.Library MuonDetector.Library.Windows MuonDetector.Library.Floats
open MuonDetector.Library.Exact

/-! ## The events in the window -/

/-- The estimator after events at the given times. -/
def addAll (window : Int) (times : List Int) : SlidingRateEstimator :=
  times.foldl SlidingRateEstimator.add { window := window }

/-- The times that are at most the window, in seconds, before `now`. -/
def within (window now : Int) (times : List Int) : List Int :=
  times.filter fun ts => now - ts ≤ window * 10 ^ 9

/-- The times that are in the window at the last of them. -/
def held (window : Int) (times : List Int) : List Int := within window (times.getLastD 0) times

variable {window now : Int} {times : List Int}

theorem within_append (window now : Int) (times more : List Int) :
    within window now (times ++ more) = within window now times ++ within window now more :=
  List.filter_append ..

theorem held_snoc (window : Int) (times : List Int) (ts : Int) :
    held window (times ++ [ts]) = within window ts times ++ within window ts [ts] := by
  rw [held, List.getLastD_eq_getLast?, List.getLast?_concat, ← within_append]
  rfl

theorem within_pairwise (hsorted : times.Pairwise (· ≤ ·)) :
    (within window now times).Pairwise (· ≤ ·) :=
  hsorted.sublist List.filter_sublist

/-- Dropping the outdated events from the front leaves those in the window. -/
theorem dropWhile_outdated (r : SlidingRateEstimator) (now : Int)
    (hsorted : times.Pairwise (· ≤ ·)) :
    times.dropWhile (r.outdated now) = within r.window now times := by
  have hold : OldFirst (r.outdated now) times := by
    refine hsorted.imp ?_
    intro early late hle hlate
    have hout := of_decide_eq_true hlate
    refine decide_eq_true ?_
    omega
  rw [dropWhile_eq_filter hold, within]
  congr 1
  funext ts
  rw [SlidingRateEstimator.outdated, Bool.eq_iff_iff]
  simp

/-- A window that ends later holds nothing that an earlier one has lost. -/
theorem within_within {later : Int} (hle : now ≤ later) :
    within window later (within window now times) = within window later times := by
  rw [within, within, List.filter_filter, within]
  congr 1
  funext ts
  rw [Bool.eq_iff_iff]
  simp only [Bool.and_eq_true, decide_eq_true_eq]
  omega

@[simp] theorem addAll_window (window : Int) (times : List Int) :
    (addAll window times).window = window := by
  induction times using List.reverseRecOn with
  | nil => rfl
  | append_singleton times ts ih =>
    rw [addAll, List.foldl_append]
    exact ih

/-- The deque holds the events that are in the window at the last event. -/
theorem addAll_events (window : Int) (hsorted : times.Pairwise (· ≤ ·)) :
    (addAll window times).events = held window times := by
  induction times using List.reverseRecOn with
  | nil => rfl
  | append_singleton times ts ih =>
    obtain ⟨hbefore, -, hle⟩ := List.pairwise_append.mp hsorted
    have hheld : (held window times ++ [ts]).Pairwise (· ≤ ·) := by
      refine hsorted.sublist ?_
      exact List.filter_sublist.append (List.Sublist.refl [ts])
    have hnow : times.getLastD 0 ≤ ts ∨ times = [] := by
      cases hlast : times.getLast? with
      | none => exact .inr (List.getLast?_eq_none_iff.mp hlast)
      | some last =>
        rw [List.getLastD_eq_getLast?, hlast]
        exact .inl (hle last (List.mem_of_getLast? hlast) ts List.mem_cons_self)
    have hadd : addAll window (times ++ [ts]) = (addAll window times).add ts := by
      rw [addAll, List.foldl_append]
      rfl
    rw [hadd, SlidingRateEstimator.add, ih hbefore]
    show (held window times ++ [ts]).dropWhile ((addAll window times).outdated ts) = _
    rw [dropWhile_outdated _ _ hheld, addAll_window, within_append, held_snoc]
    congr 1
    obtain hnow | rfl := hnow
    · exact within_within hnow
    · rfl

/-! ## The rate -/

/-- The first and the last time differ. -/
def Spread (times : List Int) : Prop := times.headD 0 ≠ times.getLastD 0

instance (times : List Int) : Decidable (Spread times) := inferInstanceAs (Decidable (_ ≠ _))

theorem Spread.two_le {times : List Int} (h : Spread times) : 2 ≤ times.length := by
  match times, h with
  | [], h => exact absurd rfl h
  | [ts], h => exact absurd rfl h
  | _ :: _ :: rest, _ => exact Nat.le_add_left 2 rest.length

theorem Spread.head_lt {times : List Int} (hsorted : times.Pairwise (· ≤ ·)) (h : Spread times) :
    times.headD 0 < times.getLastD 0 := by
  cases times with
  | nil => exact absurd rfl h
  | cons first rest =>
    have hlast : (first :: rest).getLastD 0 ∈ first :: rest := by
      rw [List.getLastD_cons]
      exact List.getLastD_mem_cons
    obtain hsame | hmem := List.mem_cons.mp hlast
    · exact absurd hsame.symm h
    · exact lt_of_le_of_ne ((List.pairwise_cons.mp hsorted).1 _ hmem) h

variable {K : Type} [Field K] [LinearOrder K] [FloorRing K] [LongOverflow K]

theorem seconds_eq (duration : Int) : (seconds duration : K) = duration / 10 ^ 9 := by
  show (duration : K) / 1e9 = duration / 10 ^ 9
  norm_num

variable [IsStrictOrderedRing K]

theorem seconds_pos {duration : Int} (h : 0 < duration) : (0 : K) < seconds duration := by
  have hcast : (0 : K) < duration := Int.cast_pos.mpr h
  rw [seconds_eq]
  positivity

/-- The number of intervals between the times, divided by the time that they take. -/
def intervalRate (times : List Int) : K :=
  ((times.length : Int) - 1 : Int) / seconds (times.getLastD 0 - times.headD 0)

/-- The number of events is divided by the time from the first to the last. -/
theorem currentRateHz_of_spread (r : SlidingRateEstimator) (now : Int)
    (hsorted : r.events.Pairwise (· ≤ ·)) (hspread : Spread (within r.window now r.events)) :
    (r.currentRateHz now : K) = ((within r.window now r.events).length : Int) /
      seconds ((within r.window now r.events).getLastD 0 -
        (within r.window now r.events).headD 0) := by
  have hvalid := dropWhile_outdated r now hsorted
  have hlength := hspread.two_le
  have hlast : r.events.getLastD 0 = (within r.window now r.events).getLastD 0 := by
    rw [← hvalid]
    refine (getLastD_dropWhile 0 ?_).symm
    rw [hvalid]
    exact List.ne_nil_of_length_pos (by omega)
  have hall : ¬ r.events.length < 2 := by
    have hle : (within r.window now r.events).length ≤ r.events.length := List.length_filter_le ..
    omega
  have hpos := seconds_pos (K := K) (sub_pos.mpr (hspread.head_lt (within_pairwise hsorted)))
  rw [SlidingRateEstimator.currentRateHz, if_neg hall, hvalid, if_neg (not_lt.mpr hlength), hlast]
  refine if_neg (not_le.mpr ?_)
  have hzero : (0.0 : K) = 0 := by norm_num
  exact hzero.trans_lt hpos

/-- The deque holds the events in the window, and wherever two of those have different times
the rate is the number of events, and so never that of the intervals, over their time. -/
theorem rate_never_of_intervals (window : Int) {times : List Int}
    (hsorted : times.Pairwise (· ≤ ·)) :
    (addAll window times).events = held window times ∧
      ∀ now, Spread (within window now (held window times)) →
        let inside := within window now (held window times)
        ((addAll window times).currentRateHz now : K) =
          (inside.length : Int) / seconds (inside.getLastD 0 - inside.headD 0) ∧
        ((addAll window times).currentRateHz now : K) ≠ intervalRate inside := by
  have hevents := addAll_events window hsorted
  refine ⟨hevents, ?_⟩
  intro now hspread inside
  have hheld : (held window times).Pairwise (· ≤ ·) := within_pairwise hsorted
  have hrate := currentRateHz_of_spread (K := K) (addAll window times) now
  rw [addAll_window, hevents] at hrate
  have hcount := hrate hheld hspread
  have hpos : (0 : K) < seconds (inside.getLastD 0 - inside.headD 0) :=
    seconds_pos (sub_pos.mpr (hspread.head_lt (within_pairwise hheld)))
  refine ⟨hcount, ?_⟩
  rw [hcount, intervalRate, Ne, div_left_inj' hpos.ne']
  intro hsame
  have hint : (inside.length : Int) = inside.length - 1 := Int.cast_injective hsame
  omega

theorem rate_never_of_intervals_two :
    ((addAll 5 [0, 1000000000]).currentRateHz 2000000000 : ℚ) ≠
      intervalRate (within 5 2000000000 (held 5 [0, 1000000000])) :=
  ((rate_never_of_intervals 5 (by decide)).2 2000000000 (by decide)).2

/-! ## Two events -/

/-- With two events one second apart the rate is two per second. -/
theorem rate_of_two :
    ((addAll 5 [0, 1000000000]).currentRateHz 2000000000 : ℚ) = 2 ∧
      (intervalRate [0, 1000000000] : ℚ) = 1 ∧
      within 5 2000000000 (held 5 [0, 1000000000]) = [0, 1000000000] := by
  decide +kernel

end MuonDetector.Utility.SlidingRate
