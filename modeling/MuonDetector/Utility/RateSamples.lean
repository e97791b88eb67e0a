import MuonDetector.Library.Windows
import MuonDetector.Utility.GpioRateBuffer

/-!
# The samples of the rate

Each call takes a sample of the rate and returns the samples since the call before it. The
sample of that call itself is not older than its time, and is returned once more.
-/

namespace MuonDetector.Utility.RateSamples

open MuonDetector.Library MuonDetector.Library.Windows MuonDetector.Library.Floats
open MuonDetector.Library.Messages (Binary64)
open EventRateBuffer (Call)

variable {F G : Type}

/-! ## What comes back -/

/-- The times at which samples are taken. -/
def sampleTimes (calls : List Call) : List Int :=
  calls.filterMap fun
    | .sampleAndRetrieve now => some now
    | .handle _ => none
    | .clear _ => none

section

variable [Floating F] (toFloat : F → G)

/-- What `out` says of a call that takes a sample. -/
def ofCall (out : Int → List (G × G)) : Call → List (G × G)
  | .sampleAndRetrieve now => out now
  | .handle _ => []
  | .clear _ => []

/-- What `out` says of the calls that take a sample, one call after the other. -/
def collect (out : EventRateBuffer F → Int → List (G × G)) :
    EventRateBuffer F → List Call → List (G × G)
  | _, [] => []
  | b, call :: calls => ofCall (out b) call ++ collect out (b.after toFloat call) calls

/-- The vectors that are returned, one after the other. -/
def retrieved (b : EventRateBuffer F) (calls : List Call) : List (G × G) :=
  collect toFloat (fun b now => (b.sampleAndRetrieve toFloat now).1) b calls

/-- The sample of a call: its time since the start, and the rate. -/
def entry (b : EventRateBuffer F) (now : Int) : G × G :=
  (toFloat (seconds (now - b.startTime)), toFloat (b.rateEstimator.currentRateHz now))

/-- One entry for each call. -/
def once (b : EventRateBuffer F) (calls : List Call) : List (G × G) :=
  collect toFloat (fun b now => [entry toFloat b now]) b calls

theorem collect_snoc (out : EventRateBuffer F → Int → List (G × G)) (b : EventRateBuffer F)
    (calls : List Call) (call : Call) :
    collect toFloat out b (calls ++ [call]) =
      collect toFloat out b calls ++ ofCall (out (b.afterAll toFloat calls)) call := by
  induction calls generalizing b with
  | nil => exact List.append_nil _
  | cons first calls ih =>
    rw [List.cons_append, collect, ih, collect, List.append_assoc]
    rfl

end

/-- Each entry after the one before it. -/
def pairs {β : Type} : β → List β → List β
  | _, [] => []
  | last, e :: es => last :: e :: pairs e es

/-- The first call returns its own entry, unless its time is before the clock's epoch, and
every further call returns the entry of the call before it as well. -/
def delivered {β : Type} (early : Bool) : List β → List β
  | [] => []
  | e :: es => (if early then [] else [e]) ++ pairs e es

theorem pairs_snoc {β : Type} (last : β) (es : List β) (e : β) :
    pairs last (es ++ [e]) = pairs last es ++ [es.getLastD last, e] := by
  induction es generalizing last with
  | nil => rfl
  | cons x es ih =>
    rw [List.cons_append, pairs, ih, pairs, List.getLastD_cons]
    rfl

theorem delivered_snoc {β : Type} (early : Bool) (es : List β) (e : β) :
    delivered early (es ++ [e]) = delivered early es ++
      match es.getLast? with
      | none => if early then [] else [e]
      | some last => [last, e] := by
  cases es with
  | nil => exact List.append_nil _
  | cons first es =>
    rw [List.cons_append, delivered, pairs_snoc, delivered, List.append_assoc,
      List.getLast?_cons, List.getLastD_eq_getLast?]

@[simp] theorem pairs_length {β : Type} (last : β) (es : List β) :
    (pairs last es).length = 2 * es.length := by
  induction es generalizing last with
  | nil => rfl
  | cons e es ih =>
    rw [pairs, List.length_cons, List.length_cons, ih, List.length_cons]
    omega

/-- Everything is delivered once only where there is next to nothing. -/
theorem delivered_eq_self {β : Type} (early : Bool) (es : List β) :
    delivered early es = es ↔
      es.length = 0 ∨ es.length = 1 ∧ early = false ∨ es.length = 2 ∧ early = true := by
  constructor
  · intro h
    have hlength := congrArg List.length h
    cases es with
    | nil => exact .inl rfl
    | cons e es =>
      cases early with
      | false =>
        have hcount : 2 * es.length = es.length := by simpa [delivered] using hlength
        exact .inr (.inl ⟨by rw [List.length_cons]; omega, rfl⟩)
      | true =>
        have hcount : 2 * es.length = es.length + 1 := by simpa [delivered] using hlength
        exact .inr (.inr ⟨by rw [List.length_cons]; omega, rfl⟩)
  · intro h
    match es, h with
    | [], _ => rfl
    | [e], h =>
      have hlate : early = false := by simpa using h
      rw [hlate]
      rfl
    | [e, e'], h =>
      have hearly : early = true := by simpa using h
      rw [hearly]
      rfl
    | e :: e' :: e'' :: es, h => simp at h

/-! ## The history -/

/-- An event changes nothing of the history. -/
theorem handle_history (b : EventRateBuffer F) (event : GpioEvent) :
    (b.handle event).2.rateHistory = b.rateHistory ∧
      (b.handle event).2.startTime = b.startTime ∧
        (b.handle event).2.latestSampleTime = b.latestSampleTime := by
  have hdead : (b.handleDeadtime event).2.rateHistory = b.rateHistory ∧
      (b.handleDeadtime event).2.startTime = b.startTime ∧
        (b.handleDeadtime event).2.latestSampleTime = b.latestSampleTime := by
    simp only [EventRateBuffer.handleDeadtime]
    repeat' split
    all_goals exact ⟨rfl, rfl, rfl⟩
  simp only [EventRateBuffer.handle]
  repeat' split
  all_goals first | exact hdead | exact ⟨rfl, rfl, rfl⟩

/-- The walk back from the new sample ends before the samples older than the previous one. -/
theorem walk_back {older : List (RateSample F)} {previous : RateSample F} (sample : RateSample F)
    (holder : ∀ s ∈ older, s.timestamp < previous.timestamp)
    (hlater : previous.timestamp < sample.timestamp) :
    (((older ++ [previous]) ++ [sample]).reverse.takeWhile
      fun s => ¬ s.timestamp < previous.timestamp) = [sample, previous] := by
  have hnone : older.reverse.takeWhile (fun s => ¬ s.timestamp < previous.timestamp) = [] := by
    cases hold : older.reverse with
    | nil => rfl
    | cons s rest =>
      have hmem : s ∈ older := List.mem_reverse.mp (hold ▸ List.mem_cons_self)
      exact List.takeWhile_cons_of_neg (by simp [holder s hmem])
  rw [List.reverse_append, List.reverse_append, List.reverse_singleton, List.reverse_singleton,
    List.singleton_append, List.singleton_append, List.takeWhile_cons_of_pos,
    List.takeWhile_cons_of_pos, hnone]
  · simp
  · simp [hlater.le]

section History

variable [Floating F] (toFloat : F → G)

/-- The calls of one session: no clear, increasing times, and no more than the two hours of the
history from the first to the last. -/
structure Session (calls : List Call) : Prop where
  noClear : ∀ now, Call.clear now ∉ calls
  increasing : (sampleTimes calls).Pairwise (· < ·)
  span : ∀ early ∈ sampleTimes calls, ∀ late ∈ sampleTimes calls,
    late - early ≤ 2 * (3600 * 10 ^ 9)

/-- The history holds the sample of every call. -/
structure Recorded (start : Int) (times : List Int) (entries : List (G × G))
    (b : EventRateBuffer F) : Prop where
  startTime : b.startTime = start
  historyLength : b.rateHistory.historyLength = 2
  times_eq : b.rateHistory.samples.map RateSample.timestamp = times
  entries_eq : (b.rateHistory.samples.map fun sample =>
    (toFloat (seconds (sample.timestamp - start)), toFloat sample.rateHz)) = entries
  latest : b.latestSampleTime = times.getLastD 0

variable {toFloat} {start : Int} {times : List Int} {entries : List (G × G)}
  {b : EventRateBuffer F}

theorem Recorded.length_eq (h : Recorded toFloat start times entries b) :
    entries.length = times.length := by
  rw [← h.entries_eq, ← h.times_eq, List.length_map, List.length_map]

/-- Within the length of the history nothing leaves it. -/
theorem addSample_samples (h : Recorded toFloat start times entries b) {now : Int} (rate : F)
    (hspan : ∀ ts ∈ times, now - ts ≤ 2 * (3600 * 10 ^ 9)) :
    (b.rateHistory.addSample now rate).samples = b.rateHistory.samples ++ [⟨now, rate⟩] := by
  refine dropWhile_eq_self ?_
  intro sample hmem
  refine decide_eq_false ?_
  rw [h.historyLength, not_lt]
  obtain hmem | hmem := List.mem_append.mp hmem
  · refine hspan sample.timestamp ?_
    rw [← h.times_eq]
    exact List.mem_map_of_mem hmem
  · obtain rfl := List.mem_singleton.mp hmem
    show now - now ≤ _
    omega

theorem recorded_handle (h : Recorded toFloat start times entries b) (event : GpioEvent) :
    Recorded toFloat start times entries (b.handle event).2 := by
  obtain ⟨hhistory, hstart, hlatest⟩ := handle_history b event
  constructor
  · exact hstart.trans h.startTime
  · rw [hhistory]
    exact h.historyLength
  · rw [hhistory]
    exact h.times_eq
  · rw [hhistory]
    exact h.entries_eq
  · exact hlatest.trans h.latest

theorem recorded_sample (h : Recorded toFloat start times entries b) {now : Int}
    (hspan : ∀ ts ∈ times, now - ts ≤ 2 * (3600 * 10 ^ 9)) :
    Recorded toFloat start (times ++ [now]) (entries ++ [entry toFloat b now])
      (b.sampleAndRetrieve toFloat now).2 := by
  have hsamples := addSample_samples h (b.rateEstimator.currentRateHz now) hspan
  constructor
  · exact h.startTime
  · exact h.historyLength
  · show (b.rateHistory.addSample now _).samples.map RateSample.timestamp = _
    rw [hsamples, List.map_append, h.times_eq]
    rfl
  · show (b.rateHistory.addSample now _).samples.map _ = _
    rw [hsamples, List.map_append, h.entries_eq, entry, h.startTime]
    rfl
  · rw [List.getLastD_eq_getLast?, List.getLast?_concat]
    rfl

/-- The first call looks at its own sample alone. -/
theorem sample_first (h : Recorded toFloat start [] entries b) (now : Int) :
    (b.sampleAndRetrieve toFloat now).1 = if now < 0 then [] else [entry toFloat b now] := by
  have hspan : ∀ ts ∈ ([] : List Int), now - ts ≤ 2 * (3600 * 10 ^ 9) := by
    intro ts hmem
    cases hmem
  have hsamples := addSample_samples h (b.rateEstimator.currentRateHz now) hspan
  rw [List.map_eq_nil_iff.mp h.times_eq, List.nil_append] at hsamples
  have hlatest : b.latestSampleTime = 0 := h.latest
  rw [EventRateBuffer.sampleAndRetrieve, hsamples, hlatest]
  by_cases hearly : now < 0
  · simp [hearly]
  · simp [hearly, not_lt.mp hearly, entry]

/-- Every further call goes back to the sample of the call before, and no farther. -/
theorem sample_again (h : Recorded toFloat start times entries b) {now : Int}
    (hincreasing : (times ++ [now]).Pairwise (· < ·))
    (hspan : ∀ ts ∈ times, now - ts ≤ 2 * (3600 * 10 ^ 9)) {last : G × G}
    (hlast : entries.getLast? = some last) :
    (b.sampleAndRetrieve toFloat now).1 = [last, entry toFloat b now] := by
  have hsamples := addSample_samples h (b.rateEstimator.currentRateHz now) hspan
  have htimes := h.times_eq
  have hentries := h.entries_eq
  have hlatest := h.latest
  obtain hnil | ⟨older, previous, hsplit⟩ := List.eq_nil_or_concat' b.rateHistory.samples
  · rw [hnil] at hentries
    rw [← hentries] at hlast
    cases hlast
  · rw [hsplit, List.map_append] at htimes hentries
    rw [hsplit] at hsamples
    rw [← htimes] at hincreasing hlatest
    rw [← hentries, List.map_singleton, List.getLast?_concat, Option.some.injEq] at hlast
    rw [List.getLastD_eq_getLast?, List.map_singleton, List.getLast?_concat,
      Option.getD_some] at hlatest
    obtain ⟨hbefore, -, hlater⟩ := List.pairwise_append.mp hincreasing
    obtain ⟨-, -, holder⟩ := List.pairwise_append.mp hbefore
    have hprevious : previous.timestamp < now :=
      hlater _ (List.mem_append_right _ List.mem_cons_self) now List.mem_cons_self
    have hold : ∀ s ∈ older, s.timestamp < previous.timestamp := by
      intro s hmem
      exact holder _ (List.mem_map_of_mem hmem) _ List.mem_cons_self
    have hwalk := walk_back ⟨now, b.rateEstimator.currentRateHz now⟩ hold hprevious
    rw [EventRateBuffer.sampleAndRetrieve, hsamples, hlatest]
    show List.reverse (List.map _ (List.takeWhile _ _)) = _
    rw [hwalk, ← hlast, entry, h.startTime]
    rfl

/-- A call adds what it returns to what was returned before it. -/
theorem sample_delivered (h : Recorded toFloat start times entries b) {now : Int}
    (hincreasing : (times ++ [now]).Pairwise (· < ·))
    (hspan : ∀ ts ∈ times, now - ts ≤ 2 * (3600 * 10 ^ 9)) :
    delivered (decide (times.headD 0 < 0)) entries ++ (b.sampleAndRetrieve toFloat now).1 =
      delivered (decide ((times ++ [now]).headD 0 < 0)) (entries ++ [entry toFloat b now]) := by
  have hlength := h.length_eq
  rw [delivered_snoc]
  cases hlast : entries.getLast? with
  | none =>
    have hnil := List.getLast?_eq_none_iff.mp hlast
    have htimes : times = [] := by
      rw [hnil] at hlength
      exact List.eq_nil_of_length_eq_zero hlength.symm
    rw [htimes] at h ⊢
    rw [hnil, sample_first h now]
    show [] ++ _ = [] ++ if decide (now < 0) = true then [] else _
    by_cases hearly : now < 0
    · rw [if_pos hearly, if_pos (decide_eq_true hearly)]
    · rw [if_neg hearly, if_neg (by simp [hearly])]
  | some last =>
    rw [sample_again h hincreasing hspan hlast]
    cases times with
    | nil =>
      rw [List.eq_nil_of_length_eq_zero hlength] at hlast
      cases hlast
    | cons first rest => rfl

variable (toFloat) (filterEdge : Option EventEdge) (slidingWindow deadtime : Int) (start)

theorem recorded_create :
    Recorded toFloat start [] []
      (EventRateBuffer.create filterEdge slidingWindow deadtime start : EventRateBuffer F) := by
  constructor <;> rfl

theorem sampleTimes_snoc (calls : List Call) (call : Call) :
    sampleTimes (calls ++ [call]) = sampleTimes calls ++ sampleTimes [call] :=
  List.filterMap_append ..

theorem Session.initial {calls : List Call} {call : Call} (h : Session (calls ++ [call])) :
    Session calls := by
  obtain ⟨hclear, hincreasing, hspan⟩ := h
  rw [sampleTimes_snoc] at hincreasing hspan
  constructor
  · intro now hmem
    exact hclear now (List.mem_append_left [call] hmem)
  · exact (List.pairwise_append.mp hincreasing).1
  · intro early hearly late hlate
    exact hspan early (List.mem_append_left _ hearly) late (List.mem_append_left _ hlate)

/-- In a session every call is recorded, and what was returned so far is known. -/
theorem recorded_afterAll {calls : List Call} (h : Session calls) :
    let b : EventRateBuffer F := EventRateBuffer.create filterEdge slidingWindow deadtime start
    Recorded toFloat start (sampleTimes calls) (once toFloat b calls) (b.afterAll toFloat calls) ∧
      retrieved toFloat b calls =
        delivered (decide ((sampleTimes calls).headD 0 < 0)) (once toFloat b calls) := by
  intro b
  induction calls using List.reverseRecOn with
  | nil => exact ⟨recorded_create toFloat start filterEdge slidingWindow deadtime, rfl⟩
  | append_singleton calls call ih =>
    obtain ⟨hrecorded, hretrieved⟩ := ih h.initial
    have hstep := collect_snoc toFloat (fun b now => (b.sampleAndRetrieve toFloat now).1) b calls
      call
    have honce := collect_snoc toFloat (fun b now => [entry toFloat b now]) b calls call
    rw [EventRateBuffer.afterAll_snoc, sampleTimes_snoc]
    cases call with
    | handle event =>
      rw [retrieved, hstep, once, honce]
      refine ⟨?_, ?_⟩
      · show Recorded toFloat start (sampleTimes calls ++ []) (_ ++ []) _
        rw [List.append_nil, List.append_nil]
        exact recorded_handle hrecorded event
      · show _ ++ [] = delivered (decide ((sampleTimes calls ++ []).headD 0 < 0)) (_ ++ [])
        rw [List.append_nil, List.append_nil, List.append_nil]
        exact hretrieved
    | sampleAndRetrieve now =>
      have hincreasing := h.increasing
      have hspan := h.span
      rw [sampleTimes_snoc] at hincreasing hspan
      have hnow : ∀ ts ∈ sampleTimes calls, now - ts ≤ 2 * (3600 * 10 ^ 9) := by
        intro ts hmem
        exact hspan ts (List.mem_append_left _ hmem) now
          (List.mem_append_right _ List.mem_cons_self)
      rw [retrieved, hstep, once, honce]
      refine ⟨recorded_sample hrecorded hnow, ?_⟩
      show retrieved toFloat b calls ++
        ((b.afterAll toFloat calls).sampleAndRetrieve toFloat now).1 =
        delivered _ (once toFloat b calls ++ [entry toFloat (b.afterAll toFloat calls) now])
      rw [hretrieved]
      exact sample_delivered hrecorded hincreasing hnow
    | clear now => exact absurd (List.mem_append_right calls List.mem_cons_self) (h.noClear now)

/-- Every sample comes back once exactly when there is no call, one call, or two calls of which
the first is before the epoch of the clock. -/
theorem retrieved_eq_once_iff {calls : List Call} (h : Session calls) :
    let b : EventRateBuffer F := EventRateBuffer.create filterEdge slidingWindow deadtime start
    retrieved toFloat b calls = once toFloat b calls ↔
      (sampleTimes calls).length = 0 ∨
        (sampleTimes calls).length = 1 ∧ 0 ≤ (sampleTimes calls).headD 0 ∨
        (sampleTimes calls).length = 2 ∧ (sampleTimes calls).headD 0 < 0 := by
  intro b
  obtain ⟨hrecorded, hretrieved⟩ :=
    recorded_afterAll toFloat start filterEdge slidingWindow deadtime h
  have hlength := hrecorded.length_eq
  rw [hretrieved, delivered_eq_self, hlength, decide_eq_true_iff, decide_eq_false_iff_not, not_lt]

end History

/-! ## Two calls -/

/-- A call one second after the construction and one a second later. -/
def twoCalls : List Call := [.sampleAndRetrieve 1000000000, .sampleAndRetrieve 2000000000]

/-- The first of two samples comes back twice. -/
theorem first_sample_twice :
    let b : EventRateBuffer Binary64 := EventRateBuffer.create none 5 0 0
    retrieved castFloat b twoCalls =
        [(⟨0x3F800000⟩, ⟨0⟩), (⟨0x3F800000⟩, ⟨0⟩), (⟨0x40000000⟩, ⟨0⟩)] ∧
      once castFloat b twoCalls = [(⟨0x3F800000⟩, ⟨0⟩), (⟨0x40000000⟩, ⟨0⟩)] := by
  decide +kernel

theorem retrieved_eq_once_iff_one :
    let b : EventRateBuffer Binary64 := EventRateBuffer.create none 5 0 0
    retrieved castFloat b (twoCalls.take 1) = once castFloat b (twoCalls.take 1) := by
  have h : Session (twoCalls.take 1) := by
    constructor
    · intro now hmem
      simp [twoCalls] at hmem
    · exact List.pairwise_singleton _ _
    · decide
  exact (retrieved_eq_once_iff castFloat 0 none 5 0 h).mpr (.inr (.inl (by decide)))

end MuonDetector.Utility.RateSamples
