import MuonDetector.Capnp.CommandCodecs
import MuonDetector.Library.Floats

/-!
# The rate buffer of a GPIO signal

A buffer filters the events of one signal, tells the interval to the last event that it
accepted, and samples the rate of the accepted events into a history. Times are in
nanoseconds of the steady clock. `F` stands for `double` and `G` for `float`, and `toFloat`
for the cast between them.
-/

namespace MuonDetector.Utility

open MuonDetector.Library.Floats MuonDetector.Library.Messages
open MuonDetector.Capnp.CommandCodecs (GpioSignal)

variable {F G : Type}

inductive EventEdge where
  | rising
  | falling
  deriving DecidableEq, Repr

structure GpioEvent where
  gpioSignal : GpioSignal
  timestamp : Int
  edge : EventEdge
  deriving DecidableEq, Repr

structure IntervalEvent where
  sig : GpioSignal
  interval : Int
  deriving DecidableEq, Repr

/-- The earliest time that there is. It says that there is none. -/
def invalidTime : Int := -2 ^ 63

def coincidenceWindow : Int := 50

/-! ## The filters -/

structure EdgeFilter where
  filterEdge : Option EventEdge
  deriving DecidableEq, Repr

def EdgeFilter.accept (f : EdgeFilter) (event : GpioEvent) : Bool :=
  match f.filterEdge with
  | some edge => event.edge = edge
  | none => true

/-- The dead time is in microseconds. -/
structure DeadtimeFilter where
  lastAccepted : Int := invalidTime
  deadtime : Int
  deriving DecidableEq, Repr

namespace DeadtimeFilter

def accept (f : DeadtimeFilter) (ts : Int) : Bool × DeadtimeFilter :=
  if f.lastAccepted = invalidTime then (true, { f with lastAccepted := ts })
  else if ts - f.lastAccepted < f.deadtime * 10 ^ 3 then (false, f)
  else (true, { f with lastAccepted := ts })

def reset (f : DeadtimeFilter) : DeadtimeFilter := { f with lastAccepted := invalidTime }

end DeadtimeFilter

/-! ## The rate and its history -/

/-- `std::chrono::duration<double>` of nanoseconds -/
def seconds [Floating F] (duration : Int) : F := Floating.ofInt duration / 1e9

/-- `static_cast<float>` of a `double` -/
def castFloat (x : Binary64) : Binary32 :=
  ofBits32 <| match number64 x with
    | .nan => binary32.nan
    | .infinite negative => binary32.signed negative binary32.infinity
    | .finite negative m e => binary32.encode negative m 1 e

/-- The window is in seconds. -/
structure SlidingRateEstimator where
  events : List Int := []
  window : Int
  deriving DecidableEq, Repr

namespace SlidingRateEstimator

/-- Whether an event has left the window at the given time. -/
def outdated (r : SlidingRateEstimator) (now ts : Int) : Bool := now - ts > r.window * 10 ^ 9

def add (r : SlidingRateEstimator) (ts : Int) : SlidingRateEstimator :=
  { r with events := (r.events ++ [ts]).dropWhile (r.outdated ts) }

def currentRateHz [Floating F] (r : SlidingRateEstimator) (now : Int) : F :=
  if r.events.length < 2 then 0.0
  else
    let valid := r.events.dropWhile (r.outdated now)
    if valid.length < 2 then 0.0
    else
      let sec : F := seconds (r.events.getLastD 0 - valid.headD 0)
      if sec ≤ 0.0 then 0.0 else Floating.ofInt valid.length / sec

def clear (r : SlidingRateEstimator) : SlidingRateEstimator := { r with events := [] }

end SlidingRateEstimator

structure RateSample (F : Type) where
  timestamp : Int
  rateHz : F
  deriving DecidableEq, Repr

/-- The length is in hours. -/
structure RateHistory (F : Type) where
  samples : List (RateSample F) := []
  historyLength : Int := 2
  deriving DecidableEq, Repr

namespace RateHistory

def addSample (h : RateHistory F) (ts : Int) (rate : F) : RateHistory F :=
  { h with
    samples := (h.samples ++ [RateSample.mk ts rate]).dropWhile
      fun sample => ts - sample.timestamp > h.historyLength * (3600 * 10 ^ 9) }

def clear (h : RateHistory F) : RateHistory F := { h with samples := [] }

end RateHistory

/-! ## The buffer -/

structure EventRateBuffer (F : Type) where
  coincSig : Option GpioSignal := none
  lastCoincidenceEvent : Int := invalidTime
  isVeto : Bool := false
  edgeFilter : EdgeFilter
  rateEstimator : SlidingRateEstimator
  deadtime : DeadtimeFilter
  rateHistory : RateHistory F := {}
  lastAcceptedEvent : Int := invalidTime
  lastInterval : Int := 0
  lastRateSample : Int := invalidTime
  rejectedDeadtime : Nat := 0
  rejectedCoincidence : Nat := 0
  startTime : Int
  latestSampleTime : Int := 0
  deriving DecidableEq, Repr

namespace EventRateBuffer

/-- The constructor. The clock says `now`. -/
def create (filterEdge : Option EventEdge) (slidingWindow deadtime now : Int) :
    EventRateBuffer F where
  edgeFilter := ⟨filterEdge⟩
  rateEstimator := { window := slidingWindow }
  deadtime := { deadtime := deadtime }
  startTime := now

/-- Whether the event is close enough to the last one of the coincidence signal. -/
def coincident (b : EventRateBuffer F) (event : GpioEvent) : Bool :=
  b.lastCoincidenceEvent ≠ invalidTime &&
    |(event.timestamp - b.lastCoincidenceEvent).tdiv (10 ^ 3)| ≤ coincidenceWindow

/-- From the dead time on, for an event that passed the other filters. -/
def handleDeadtime (b : EventRateBuffer F) (event : GpioEvent) :
    (Bool × Option IntervalEvent) × EventRateBuffer F :=
  let (accepted, deadtime) := b.deadtime.accept event.timestamp
  if !accepted then
    ((false, none),
      { b with deadtime := deadtime, rejectedDeadtime := (b.rejectedDeadtime + 1) % 2 ^ 64 })
  else
    let lastInterval :=
      if b.lastAcceptedEvent ≠ invalidTime then event.timestamp - b.lastAcceptedEvent
      else b.lastInterval
    let b' := { b with
      deadtime := deadtime
      lastInterval := lastInterval
      lastAcceptedEvent := event.timestamp
      rateEstimator := b.rateEstimator.add event.timestamp }
    if lastInterval ≠ 0 then ((true, some ⟨event.gpioSignal, lastInterval⟩), b')
    else ((true, none), b')

def handle (b : EventRateBuffer F) (event : GpioEvent) :
    (Bool × Option IntervalEvent) × EventRateBuffer F :=
  if !b.edgeFilter.accept event then ((false, none), b)
  else
    match b.coincSig with
    | none => b.handleDeadtime event
    | some coincSig =>
      if event.gpioSignal = coincSig then
        ((false, none), { b with lastCoincidenceEvent := event.timestamp })
      else if b.isVeto && b.coincident event || !b.isVeto && !b.coincident event then
        ((false, none), { b with rejectedCoincidence := (b.rejectedCoincidence + 1) % 2 ^ 64 })
      else b.handleDeadtime event

/-- The samples are walked backwards from the new one on, and then turned round. -/
def sampleAndRetrieve [Floating F] (toFloat : F → G) (b : EventRateBuffer F) (now : Int) :
    List (G × G) × EventRateBuffer F :=
  let rate : F := b.rateEstimator.currentRateHz now
  let rateHistory := b.rateHistory.addSample now rate
  let out := (rateHistory.samples.reverse.takeWhile
    fun sample => ¬ sample.timestamp < b.latestSampleTime).map
      fun sample => (toFloat (seconds (sample.timestamp - b.startTime)), toFloat sample.rateHz)
  (out.reverse, { b with rateHistory := rateHistory, latestSampleTime := now })

/-- The clock says `now`. -/
def clear (b : EventRateBuffer F) (now : Int) : EventRateBuffer F :=
  { b with
    rateEstimator := b.rateEstimator.clear
    rateHistory := b.rateHistory.clear
    deadtime := b.deadtime.reset
    lastAcceptedEvent := invalidTime
    lastCoincidenceEvent := invalidTime
    lastRateSample := invalidTime
    startTime := now
    latestSampleTime := now }

/-! ## Calls -/

inductive Call where
  | handle (event : GpioEvent)
  | sampleAndRetrieve (now : Int)
  | clear (now : Int)
  deriving DecidableEq, Repr

variable [Floating F] (toFloat : F → G)

/-- The buffer after a call. -/
def after (b : EventRateBuffer F) : Call → EventRateBuffer F
  | .handle event => (b.handle event).2
  | .sampleAndRetrieve now => (b.sampleAndRetrieve toFloat now).2
  | .clear now => b.clear now

/-- The buffer after all calls. -/
def afterAll (b : EventRateBuffer F) (calls : List Call) : EventRateBuffer F :=
  calls.foldl (after toFloat) b

@[simp] theorem afterAll_nil (b : EventRateBuffer F) : b.afterAll toFloat [] = b := rfl

theorem afterAll_snoc (b : EventRateBuffer F) (calls : List Call) (call : Call) :
    b.afterAll toFloat (calls ++ [call]) = (b.afterAll toFloat calls).after toFloat call := by
  rw [afterAll, List.foldl_append]
  rfl

end EventRateBuffer

end MuonDetector.Utility
