import MuonDetector.Library.Selection
import MuonDetector.Utility.GpioRateBuffer

/-!
# Accepted events and their intervals

What a rate buffer answers to an event, told from the events since its construction or
the last clear. Clearing forgets the last accepted event but not the last interval, and
so the first event that is accepted after a clear is answered with an old interval.
-/

namespace MuonDetector.Utility.EventIntervals

open MuonDetector.Library MuonDetector.Library.Selection MuonDetector.Library.Floats
open MuonDetector.Library.Messages (Binary64)
open MuonDetector.Capnp.CommandCodecs (GpioSignal)
open EventRateBuffer (Call)

variable {F G : Type}

/-! ## The law -/

/-- What a buffer is made with. The window is in seconds and the dead time in
microseconds. -/
structure Config where
  filterEdge : Option EventEdge := none
  slidingWindow : Int := 5
  deadtime : Int := 0
  coincSig : Option GpioSignal := none
  isVeto : Bool := false
  deriving DecidableEq, Repr

namespace Config

/-- The buffer that is made at the time `now`. -/
def create (c : Config) (now : Int) : EventRateBuffer F :=
  { EventRateBuffer.create c.filterEdge c.slidingWindow c.deadtime now with
    coincSig := c.coincSig
    isVeto := c.isVeto }

def edgePasses (c : Config) (event : GpioEvent) : Bool :=
  c.filterEdge.all fun edge => event.edge = edge

/-- The time of the last event of the coincidence signal. -/
def lastCoincidence (c : Config) (before : List GpioEvent) : Option Int :=
  (before.filter fun event => c.edgePasses event && some event.gpioSignal = c.coincSig).getLast?.map
    GpioEvent.timestamp

def coincident (c : Config) (before : List GpioEvent) (event : GpioEvent) : Bool :=
  (c.lastCoincidence before).any fun ts =>
    |(event.timestamp - ts).tdiv (10 ^ 3)| ≤ coincidenceWindow

/-- Whether an event passes the edge and the coincidence filter, after the events before it. -/
def passes (c : Config) (before : List GpioEvent) (event : GpioEvent) : Bool :=
  c.edgePasses event && c.coincSig.all fun sig =>
    event.gpioSignal ≠ sig && (c.coincident before event != c.isVeto)

/-- Whether an event is at least the dead time after the last one that was accepted. -/
def apart (c : Config) (kept : List GpioEvent) (event : GpioEvent) : Bool :=
  kept.getLast?.all fun last => c.deadtime * 10 ^ 3 ≤ event.timestamp - last.timestamp

/-- The events that are accepted: of those that pass the filters the first one, and each one
at least the dead time after the last that was accepted. -/
def accepted (c : Config) (events : List GpioEvent) : List GpioEvent :=
  greedy c.apart (passing c.passes events)

def selected (c : Config) (before : List GpioEvent) (event : GpioEvent) : Bool :=
  c.passes before event && c.apart (c.accepted before) event

/-- What the events before it make the answer to an event. -/
def answer (c : Config) (before : List GpioEvent) (event : GpioEvent) :
    Bool × Option IntervalEvent :=
  if c.selected before event then
    (true, (c.accepted before).getLast?.bind fun last =>
      if event.timestamp - last.timestamp ≠ 0 then
        some ⟨event.gpioSignal, event.timestamp - last.timestamp⟩
      else none)
  else (false, none)

/-- The interval that is remembered after an event, of which an old one was remembered before. -/
def nextInterval (c : Config) (before : List GpioEvent) (event : GpioEvent) (old : Int) : Int :=
  if c.selected before event then
    ((c.accepted before).getLast?.map fun last => event.timestamp - last.timestamp).getD old
  else old

theorem accepted_snoc (c : Config) (before : List GpioEvent) (event : GpioEvent) :
    c.accepted (before ++ [event]) =
      c.accepted before ++ if c.selected before event then [event] else [] := by
  rw [accepted, passing_snoc, selected]
  cases c.passes before event with
  | false => simp [accepted]
  | true =>
    rw [if_pos rfl, greedy_snoc]
    rfl

end Config

/-- The events since the construction or the last clear. -/
def segment (calls : List Call) : List GpioEvent :=
  calls.foldl (fun events call =>
    match call with
    | .handle event => events ++ [event]
    | .sampleAndRetrieve _ => events
    | .clear _ => []) []

theorem segment_snoc (calls : List Call) (call : Call) :
    segment (calls ++ [call]) =
      match call with
      | .handle event => segment calls ++ [event]
      | .sampleAndRetrieve _ => segment calls
      | .clear _ => [] := by
  rw [segment, List.foldl_append]
  rfl

/-- The interval that the calls leave: between the last two events of which the second was accepted
after the first, without a clear in between. A clear does not forget it. -/
def Config.remembered (c : Config) (calls : List Call) : Int :=
  (calls.foldl (fun (events, interval) call =>
    match call with
    | .handle event => (events ++ [event], c.nextInterval events event interval)
    | .sampleAndRetrieve _ => (events, interval)
    | .clear _ => ([], interval)) ([], 0)).2

theorem Config.remembered_snoc (c : Config) (calls : List Call) (call : Call) :
    c.remembered (calls ++ [call]) =
      match call with
      | .handle event => c.nextInterval (segment calls) event (c.remembered calls)
      | .sampleAndRetrieve _ => c.remembered calls
      | .clear _ => c.remembered calls := by
  have hfold : ∀ calls : List Call, (calls.foldl (fun (events, interval) call =>
      match call with
      | .handle event => (events ++ [event], c.nextInterval events event interval)
      | .sampleAndRetrieve _ => (events, interval)
      | .clear _ => ([], interval)) (([] : List GpioEvent), (0 : Int))).1 = segment calls := by
    intro calls
    induction calls using List.reverseRecOn with
    | nil => rfl
    | append_singleton calls call ih =>
      rw [List.foldl_append, segment_snoc, ← ih]
      cases call <;> rfl
  rw [remembered, List.foldl_append, ← hfold]
  cases call <;> rfl

theorem Config.accepted_subset (c : Config) {events : List GpioEvent} {event : GpioEvent}
    (h : event ∈ c.accepted events) : event ∈ events :=
  (passing_sublist c.passes events).subset ((greedy_sublist c.apart _).subset h)

/-! ## What the buffer remembers -/

/-- The time of an event, or the time that says that there is none. -/
def timeOf (event : Option GpioEvent) : Int := (event.map GpioEvent.timestamp).getD invalidTime

/-- All but the interval goes back to the events since the construction or the last clear. -/
structure Represents (c : Config) (b : EventRateBuffer F) (events : List GpioEvent) : Prop where
  coincSig : b.coincSig = c.coincSig
  isVeto : b.isVeto = c.isVeto
  filterEdge : b.edgeFilter.filterEdge = c.filterEdge
  deadtime : b.deadtime.deadtime = c.deadtime
  lastCoincidence : b.lastCoincidenceEvent = (c.lastCoincidence events).getD invalidTime
  lastAccepted : b.deadtime.lastAccepted = timeOf (c.accepted events).getLast?
  lastAcceptedEvent : b.lastAcceptedEvent = timeOf (c.accepted events).getLast?

theorem represents_create (c : Config) (now : Int) :
    Represents c (c.create now : EventRateBuffer F) [] := by
  constructor <;> rfl

theorem represents_clear {c : Config} {b : EventRateBuffer F} {events : List GpioEvent}
    (h : Represents c b events) (now : Int) : Represents c (b.clear now) [] where
  coincSig := h.coincSig
  isVeto := h.isVeto
  filterEdge := h.filterEdge
  deadtime := h.deadtime
  lastCoincidence := rfl
  lastAccepted := rfl
  lastAcceptedEvent := rfl

/-! ## One event -/

section Handle

variable {c : Config} {b : EventRateBuffer F} {before : List GpioEvent} {event : GpioEvent}

/-- The times of events are times of the clock. -/
def Valid (events : List GpioEvent) : Prop := ∀ event ∈ events, event.timestamp ≠ invalidTime

theorem timeOf_accepted (hvalid : Valid before) :
    timeOf (c.accepted before).getLast? = invalidTime ↔ c.accepted before = [] := by
  cases hlast : (c.accepted before).getLast? with
  | none => exact iff_of_true rfl (List.getLast?_eq_none_iff.mp hlast)
  | some last =>
    have hmem : last ∈ c.accepted before := List.mem_of_getLast? hlast
    refine iff_of_false (hvalid last (c.accepted_subset hmem)) ?_
    rintro hnil
    rw [hnil] at hmem
    cases hmem

theorem edgeFilter_accept (h : Represents c b before) :
    b.edgeFilter.accept event = c.edgePasses event := by
  rw [EdgeFilter.accept, h.filterEdge, Config.edgePasses]
  cases c.filterEdge <;> rfl

theorem lastCoincidence_ne (hvalid : Valid before) {ts : Int}
    (hts : c.lastCoincidence before = some ts) : ts ≠ invalidTime := by
  obtain ⟨last, hlast, rfl⟩ := Option.map_eq_some_iff.mp hts
  exact hvalid last (List.mem_of_mem_filter (List.mem_of_getLast? hlast))

theorem coincident_eq (h : Represents c b before) (hvalid : Valid before) :
    b.coincident event = c.coincident before event := by
  rw [EventRateBuffer.coincident, h.lastCoincidence, Config.coincident]
  cases hts : c.lastCoincidence before with
  | none => simp
  | some ts => simp [lastCoincidence_ne hvalid hts]

theorem lastCoincidence_snoc (c : Config) (before : List GpioEvent) (event : GpioEvent) :
    c.lastCoincidence (before ++ [event]) =
      if c.edgePasses event && some event.gpioSignal = c.coincSig then some event.timestamp
      else c.lastCoincidence before := by
  rw [Config.lastCoincidence, List.filter_append, List.filter_singleton]
  cases c.edgePasses event && decide (some event.gpioSignal = c.coincSig) with
  | false => simp [Config.lastCoincidence]
  | true => simp

/-- The dead time filter lets through what is apart from the last accepted event. -/
theorem deadtime_accept (h : Represents c b before) (hvalid : Valid before) :
    (b.deadtime.accept event.timestamp).1 = c.apart (c.accepted before) event := by
  have htime := timeOf_accepted (c := c) hvalid
  rw [DeadtimeFilter.accept, h.lastAccepted, h.deadtime, Config.apart]
  cases hlast : (c.accepted before).getLast? with
  | none => rfl
  | some last =>
    have hne : timeOf (some last) ≠ invalidTime := by
      intro heq
      rw [hlast] at htime
      rw [htime.mp heq] at hlast
      cases hlast
    have htimeOf : timeOf (some last) = last.timestamp := rfl
    rw [if_neg hne, Option.all_some, htimeOf]
    by_cases hlt : event.timestamp - last.timestamp < c.deadtime * 10 ^ 3
    · rw [if_pos hlt]
      exact (decide_eq_false (not_le.mpr hlt)).symm
    · rw [if_neg hlt]
      exact (decide_eq_true (not_lt.mp hlt)).symm

/-- It remembers what it lets through. -/
theorem deadtime_after (f : DeadtimeFilter) (ts : Int) :
    (f.accept ts).2 =
      { f with lastAccepted := if (f.accept ts).1 then ts else f.lastAccepted } := by
  rw [DeadtimeFilter.accept]
  by_cases hnone : f.lastAccepted = invalidTime
  · rw [if_pos hnone]
    rfl
  · rw [if_neg hnone]
    by_cases hlt : ts - f.lastAccepted < f.deadtime * 10 ^ 3
    · rw [if_pos hlt]
      rfl
    · rw [if_neg hlt]
      rfl

/-- An event that the dead time filter rejects. -/
theorem handleDeadtime_rejected (hrejected : (b.deadtime.accept event.timestamp).1 = false) :
    b.handleDeadtime event =
      ((false, none), { b with rejectedDeadtime := (b.rejectedDeadtime + 1) % 2 ^ 64 }) := by
  have hafter := deadtime_after b.deadtime event.timestamp
  rw [hrejected] at hafter
  have haccept : b.deadtime.accept event.timestamp = (false, b.deadtime) :=
    Prod.ext hrejected hafter
  rw [EventRateBuffer.handleDeadtime, haccept]
  rfl

/-- The interval that is remembered after an event was accepted. -/
def nextInterval (b : EventRateBuffer F) (event : GpioEvent) : Int :=
  if b.lastAcceptedEvent ≠ invalidTime then event.timestamp - b.lastAcceptedEvent
  else b.lastInterval

/-- An event that the dead time filter lets through. -/
theorem handleDeadtime_accepted (haccepted : (b.deadtime.accept event.timestamp).1 = true) :
    b.handleDeadtime event =
      ((true, if nextInterval b event ≠ 0 then some ⟨event.gpioSignal, nextInterval b event⟩
          else none),
        { b with
          deadtime := { b.deadtime with lastAccepted := event.timestamp }
          lastInterval := nextInterval b event
          lastAcceptedEvent := event.timestamp
          rateEstimator := b.rateEstimator.add event.timestamp }) := by
  have hafter := deadtime_after b.deadtime event.timestamp
  rw [haccepted] at hafter
  have haccept : b.deadtime.accept event.timestamp =
      (true, { b.deadtime with lastAccepted := event.timestamp }) := Prod.ext haccepted hafter
  rw [EventRateBuffer.handleDeadtime, haccept]
  by_cases hzero : nextInterval b event ≠ 0
  · rw [if_pos hzero]
    exact if_pos hzero
  · rw [if_neg hzero]
    exact if_neg hzero

/-- The interval from the last accepted event, or the old one if there is none. -/
theorem nextInterval_eq (h : Represents c b before) (hvalid : Valid before) :
    nextInterval b event = ((c.accepted before).getLast?.map fun last =>
      event.timestamp - last.timestamp).getD b.lastInterval := by
  have htime := timeOf_accepted (c := c) hvalid
  rw [nextInterval, h.lastAcceptedEvent]
  cases hlast : (c.accepted before).getLast? with
  | none => exact if_neg (not_not.mpr rfl)
  | some last =>
    have hne : timeOf (some last) ≠ invalidTime := by
      rw [hlast] at htime
      intro heq
      rw [htime.mp heq] at hlast
      cases hlast
    exact if_pos hne

theorem selected_of_passes (hpass : c.passes before event = true) :
    c.selected before event = c.apart (c.accepted before) event := by
  rw [Config.selected, hpass, Bool.true_and]

theorem handleDeadtime_represents (h : Represents c b before) (hvalid : Valid before)
    (hpass : c.passes before event = true)
    (hsame : c.lastCoincidence (before ++ [event]) = c.lastCoincidence before) :
    Represents c (b.handleDeadtime event).2 (before ++ [event]) := by
  have hnext := c.accepted_snoc before event
  rw [selected_of_passes hpass, ← deadtime_accept h hvalid] at hnext
  cases haccept : (b.deadtime.accept event.timestamp).1 with
  | false =>
    have hkept : c.accepted (before ++ [event]) = c.accepted before := by
      rw [hnext, haccept]
      exact List.append_nil _
    rw [handleDeadtime_rejected haccept]
    constructor
    · exact h.coincSig
    · exact h.isVeto
    · exact h.filterEdge
    · exact h.deadtime
    · exact h.lastCoincidence.trans (congrArg (Option.getD · invalidTime) hsame.symm)
    · rw [hkept]
      exact h.lastAccepted
    · rw [hkept]
      exact h.lastAcceptedEvent
  | true =>
    have hlast : (c.accepted (before ++ [event])).getLast? = some event := by
      rw [hnext, haccept, if_pos rfl, List.getLast?_concat]
    rw [handleDeadtime_accepted haccept]
    constructor
    · exact h.coincSig
    · exact h.isVeto
    · exact h.filterEdge
    · exact h.deadtime
    · exact h.lastCoincidence.trans (congrArg (Option.getD · invalidTime) hsame.symm)
    · rw [hlast]
      rfl
    · rw [hlast]
      rfl

/-- An event that passed the other filters is answered rightly, unless it is the first that is
accepted and an interval is remembered. -/
theorem handleDeadtime_answer (h : Represents c b before) (hvalid : Valid before)
    (hpass : c.passes before event = true) :
    (b.handleDeadtime event).1 = c.answer before event ↔
      (c.selected before event = true → c.accepted before = [] → b.lastInterval = 0) := by
  have hselected := (selected_of_passes hpass).trans (deadtime_accept h hvalid).symm
  rw [Config.answer, hselected]
  cases haccept : (b.deadtime.accept event.timestamp).1 with
  | false =>
    rw [handleDeadtime_rejected haccept]
    simp
  | true =>
    rw [handleDeadtime_accepted haccept, if_pos rfl, nextInterval_eq h hvalid]
    cases hlast : (c.accepted before).getLast? with
    | none =>
      -- nothing was accepted, and the old interval stays
      have hnil := List.getLast?_eq_none_iff.mp hlast
      simp [hnil]
    | some last =>
      have hne : c.accepted before ≠ [] := by
        intro hnil
        rw [hnil] at hlast
        cases hlast
      simp [hne]

/-- An event that one of the first two filters rejects. -/
theorem represents_rejected (h : Represents c b before) (hpass : c.passes before event = false)
    {ts : Int} (hts : ts = (c.lastCoincidence (before ++ [event])).getD invalidTime)
    (rejected : Nat) :
    Represents c { b with lastCoincidenceEvent := ts, rejectedCoincidence := rejected }
      (before ++ [event]) := by
  have hkept : c.accepted (before ++ [event]) = c.accepted before := by
    rw [c.accepted_snoc, Config.selected, hpass]
    exact List.append_nil _
  constructor
  · exact h.coincSig
  · exact h.isVeto
  · exact h.filterEdge
  · exact h.deadtime
  · exact hts
  · rw [hkept]
    exact h.lastAccepted
  · rw [hkept]
    exact h.lastAcceptedEvent

/-- An event either passes the first two filters and goes on to the dead time filter, or is
rejected by one of them. -/
theorem handle_cases (h : Represents c b before) (hvalid : Valid before) (event : GpioEvent) :
    (c.passes before event = true ∧ b.handle event = b.handleDeadtime event ∧
      c.lastCoincidence (before ++ [event]) = c.lastCoincidence before) ∨
    (c.passes before event = false ∧ ∃ ts rejected,
      b.handle event = ((false, none),
        { b with lastCoincidenceEvent := ts, rejectedCoincidence := rejected }) ∧
      ts = (c.lastCoincidence (before ++ [event])).getD invalidTime) := by
  have hlast := lastCoincidence_snoc c before event
  rw [EventRateBuffer.handle, edgeFilter_accept h, Config.passes]
  cases hedge : c.edgePasses event with
  | false =>
    rw [hedge] at hlast
    refine .inr ⟨rfl, b.lastCoincidenceEvent, b.rejectedCoincidence, rfl, ?_⟩
    rw [hlast]
    exact h.lastCoincidence
  | true =>
    rw [hedge, Bool.true_and] at hlast
    rw [h.coincSig, h.isVeto, coincident_eq h hvalid]
    cases hsig : c.coincSig with
    | none =>
      rw [hsig] at hlast
      exact .inl ⟨rfl, rfl, hlast⟩
    | some sig =>
      rw [hsig] at hlast
      by_cases hthis : event.gpioSignal = sig
      · -- an event of the coincidence signal itself
        refine .inr ⟨by simp [hthis], event.timestamp, b.rejectedCoincidence, by simp [hthis], ?_⟩
        rw [hlast]
        simp [hthis]
      · have hsame : c.lastCoincidence (before ++ [event]) = c.lastCoincidence before := by
          rw [hlast]
          simp [hthis]
        by_cases hveto : c.isVeto = c.coincident before event
        · refine .inr ⟨by simp [hveto], b.lastCoincidenceEvent,
            (b.rejectedCoincidence + 1) % 2 ^ 64, by simp [hthis, hveto], ?_⟩
          rw [hsame]
          exact h.lastCoincidence
        · have hpassed : (c.isVeto && c.coincident before event ||
              !c.isVeto && !c.coincident before event) = false := by
            cases hv : c.isVeto <;> cases hc : c.coincident before event <;> simp_all
          refine .inl ⟨?_, by simp [hthis, hpassed], hsame⟩
          simp [hthis, bne_iff_ne, Ne.symm hveto]

theorem represents_handle (h : Represents c b before) (hvalid : Valid before) :
    Represents c (b.handle event).2 (before ++ [event]) := by
  obtain ⟨hpass, hhandle, hsame⟩ | ⟨hpass, ts, rejected, hhandle, hts⟩ :=
    handle_cases h hvalid event
  · rw [hhandle]
    exact handleDeadtime_represents h hvalid hpass hsame
  · rw [hhandle]
    exact represents_rejected h hpass hts rejected

/-- What `handle` answers is what the events before make the answer, unless the event is the
first that is accepted and an interval is remembered. -/
theorem handle_answer (h : Represents c b before) (hvalid : Valid before) :
    (b.handle event).1 = c.answer before event ↔
      (c.selected before event = true → c.accepted before = [] → b.lastInterval = 0) := by
  obtain ⟨hpass, hhandle, -⟩ | ⟨hpass, ts, rejected, hhandle, -⟩ :=
    handle_cases h hvalid event
  · rw [hhandle]
    exact handleDeadtime_answer h hvalid hpass
  · have hnot : c.selected before event = false := by
      rw [Config.selected, hpass, Bool.false_and]
    rw [hhandle, Config.answer, hnot]
    simp

/-- Accepted are the events that are chosen greedily. -/
theorem handle_accepts (h : Represents c b before) (hvalid : Valid before) :
    (b.handle event).1.1 = c.selected before event := by
  obtain ⟨hpass, hhandle, -⟩ | ⟨hpass, ts, rejected, hhandle, -⟩ :=
    handle_cases h hvalid event
  · rw [hhandle, selected_of_passes hpass, ← deadtime_accept h hvalid]
    cases haccept : (b.deadtime.accept event.timestamp).1 with
    | false => rw [handleDeadtime_rejected haccept]
    | true => rw [handleDeadtime_accepted haccept]
  · rw [hhandle, Config.selected, hpass, Bool.false_and]

/-- Only an event that is accepted after another one makes an interval. -/
theorem handle_lastInterval (h : Represents c b before) (hvalid : Valid before) :
    (b.handle event).2.lastInterval = c.nextInterval before event b.lastInterval := by
  rw [Config.nextInterval]
  obtain ⟨hpass, hhandle, -⟩ | ⟨hpass, ts, rejected, hhandle, -⟩ :=
    handle_cases h hvalid event
  · rw [hhandle, selected_of_passes hpass, ← deadtime_accept h hvalid]
    cases haccept : (b.deadtime.accept event.timestamp).1 with
    | false =>
      rw [handleDeadtime_rejected haccept]
      rfl
    | true =>
      rw [handleDeadtime_accepted haccept, if_pos rfl, nextInterval_eq h hvalid]
  · rw [hhandle, Config.selected, hpass, Bool.false_and]
    rfl

end Handle

/-! ## All calls -/

/-- The times of the events are times of the clock. -/
def ValidCalls (calls : List Call) : Prop :=
  ∀ event, Call.handle event ∈ calls → event.timestamp ≠ invalidTime

theorem ValidCalls.initial {before calls : List Call} (h : ValidCalls calls)
    (hpre : before <+: calls) : ValidCalls before :=
  fun event hmem => h event (hpre.subset hmem)

theorem ValidCalls.segment {calls : List Call} (h : ValidCalls calls) : Valid (segment calls) := by
  induction calls using List.reverseRecOn with
  | nil =>
    intro event hmem
    cases hmem
  | append_singleton calls call ih =>
    have hbefore := ih (h.initial (List.prefix_append calls [call]))
    rw [segment_snoc]
    cases call with
    | handle event =>
      intro event' hmem
      obtain hmem | hmem := List.mem_append.mp hmem
      · exact hbefore event' hmem
      · rw [List.mem_singleton.mp hmem]
        exact h event (List.mem_append_right calls List.mem_cons_self)
    | sampleAndRetrieve now => exact hbefore
    | clear now =>
      intro event hmem
      cases hmem

section Calls

variable [Floating F] (toFloat : F → G) (c : Config) (start : Int)

theorem represents_afterAll {calls : List Call} (hvalid : ValidCalls calls) :
    Represents c ((c.create start : EventRateBuffer F).afterAll toFloat calls) (segment calls) := by
  induction calls using List.reverseRecOn with
  | nil => exact represents_create c start
  | append_singleton calls call ih =>
    have hcalls := hvalid.initial (List.prefix_append calls [call])
    have hbefore := ih hcalls
    rw [EventRateBuffer.afterAll_snoc, segment_snoc]
    cases call with
    | handle event => exact represents_handle hbefore hcalls.segment
    | sampleAndRetrieve now =>
      exact ⟨hbefore.coincSig, hbefore.isVeto, hbefore.filterEdge, hbefore.deadtime,
        hbefore.lastCoincidence, hbefore.lastAccepted, hbefore.lastAcceptedEvent⟩
    | clear now => exact represents_clear hbefore now

theorem lastInterval_afterAll {calls : List Call} (hvalid : ValidCalls calls) :
    ((c.create start : EventRateBuffer F).afterAll toFloat calls).lastInterval =
      c.remembered calls := by
  induction calls using List.reverseRecOn with
  | nil => rfl
  | append_singleton calls call ih =>
    have hcalls := hvalid.initial (List.prefix_append calls [call])
    have hrepresents := represents_afterAll (F := F) toFloat c start hcalls
    rw [EventRateBuffer.afterAll_snoc, c.remembered_snoc, ← ih hcalls]
    cases call with
    | handle event => exact handle_lastInterval hrepresents hcalls.segment
    | sampleAndRetrieve now => rfl
    | clear now => rfl

/-- Without a clear no interval is left before the second accepted event. -/
theorem remembered_of_no_clear {calls : List Call} (hclear : ∀ now, Call.clear now ∉ calls)
    (hnone : c.accepted (segment calls) = []) : c.remembered calls = 0 := by
  induction calls using List.reverseRecOn with
  | nil => rfl
  | append_singleton calls call ih =>
    have hbefore := ih fun now hmem => hclear now (List.mem_append_left [call] hmem)
    rw [segment_snoc] at hnone
    rw [c.remembered_snoc]
    cases call with
    | handle event =>
      rw [c.accepted_snoc] at hnone
      obtain ⟨hnil, hlast⟩ := List.append_eq_nil_iff.mp hnone
      have hnot : c.selected (segment calls) event = false := by
        cases hselected : c.selected (segment calls) event with
        | false => rfl
        | true =>
          rw [hselected] at hlast
          cases hlast
      simpa [Config.nextInterval, hnot] using hbefore hnil
    | sampleAndRetrieve now => exact hbefore hnone
    | clear now => exact absurd (List.mem_append_right calls List.mem_cons_self) (hclear now)

/-- The accepted events are those that are chosen greedily, and the answers are right exactly
when the calls before leave no interval at an event that is the first to be accepted since the
construction or a clear. -/
theorem answers_iff_no_old_interval {calls : List Call} (hvalid : ValidCalls calls) :
    (∀ before event, before ++ [Call.handle event] <+: calls →
      c.accepted (segment before ++ [event]) = c.accepted (segment before) ++
        if (((c.create start : EventRateBuffer F).afterAll toFloat before).handle event).1.1
        then [event] else []) ∧
    ((∀ before event, before ++ [Call.handle event] <+: calls →
        (((c.create start : EventRateBuffer F).afterAll toFloat before).handle event).1 =
          c.answer (segment before) event) ↔
      ∀ before event, before ++ [Call.handle event] <+: calls →
        c.selected (segment before) event = true → c.accepted (segment before) = [] →
          c.remembered before = 0) := by
  have hbefore : ∀ before event, before ++ [Call.handle event] <+: calls →
      ValidCalls before ∧ Represents c
        ((c.create start : EventRateBuffer F).afterAll toFloat before) (segment before) := by
    intro before event hpre
    have hcalls := hvalid.initial ((List.prefix_append before _).trans hpre)
    exact ⟨hcalls, represents_afterAll toFloat c start hcalls⟩
  constructor
  · intro before event hpre
    obtain ⟨hcalls, hrepresents⟩ := hbefore before event hpre
    rw [handle_accepts hrepresents hcalls.segment]
    exact c.accepted_snoc (segment before) event
  · refine forall_congr' fun before => forall_congr' fun event => forall_congr' fun hpre => ?_
    obtain ⟨hcalls, hrepresents⟩ := hbefore before event hpre
    rw [← lastInterval_afterAll (F := F) toFloat c start hcalls]
    exact handle_answer hrepresents hcalls.segment

end Calls

/-! ## Two events, a clear and a third event -/

/-- An event of the signal that the trigger is set to at first. -/
def eventAt (timestamp : Int) : GpioEvent := ⟨.evtXor, timestamp, .rising⟩

def clearedCalls : List Call :=
  [.handle (eventAt 1000), .handle (eventAt 2000), .clear 3000, .handle (eventAt 9000)]

/-- The interval of the first two events is told for the third one again. -/
theorem old_interval_told :
    let b : EventRateBuffer Binary64 := ({} : Config).create 0
    ((b.afterAll castFloat (clearedCalls.take 3)).handle (eventAt 9000)).1 =
        (true, some ⟨.evtXor, 1000⟩) ∧
      ({} : Config).accepted (segment (clearedCalls.take 3)) = [] ∧
      ({} : Config).answer (segment (clearedCalls.take 3)) (eventAt 9000) = (true, none) := by
  decide

theorem answers_iff_no_old_interval_two :
    let b : EventRateBuffer Binary64 := ({} : Config).create 0
    ∀ before event, before ++ [Call.handle event] <+: clearedCalls.take 2 →
      ((b.afterAll castFloat before).handle event).1 =
        ({} : Config).answer (segment before) event := by
  have hvalid : ValidCalls (clearedCalls.take 2) := by
    intro event hmem
    simp only [clearedCalls, List.take, List.mem_cons, Call.handle.injEq, List.not_mem_nil,
      or_false] at hmem
    obtain rfl | rfl := hmem <;> decide
  refine (answers_iff_no_old_interval castFloat {} 0 hvalid).2.mpr ?_
  intro before event hpre _ hnone
  refine remembered_of_no_clear {} (fun now hmem => ?_) hnone
  have hclear := ((List.prefix_append before _).trans hpre).subset hmem
  simp [clearedCalls] at hclear

end MuonDetector.Utility.EventIntervals
