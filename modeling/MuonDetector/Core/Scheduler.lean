import MuonDetector.Library.Machine
import Mathlib.Data.List.Nodup

/-!
# The scheduler

A queue of tasks ordered by their due times and one loop thread that takes the first of
them, runs its function without the lock, and puts a repeating task back. A label is what
one thread does at once: a section under the lock, a read of an atomic, or a part of the
loop between two of them. The function of a task is known by the id of the task. `w` is
the number of bits of `std::size_t`.
-/

namespace MuonDetector.Core

namespace Scheduler

/-- `time` in nanoseconds of the steady clock, `interval` in milliseconds. -/
structure Task (w : Nat) where
  time : Int
  interval : Int := 0
  id : BitVec w := 0
  deriving DecidableEq, Repr

variable {w : Nat}

/-- `operator<`. The task that is due later is the smaller one. -/
def Task.lt (task other : Task w) : Bool := decide (task.time > other.time)

/-- What `priority_queue::top` may answer: no element is larger. -/
def isTop (queue : List (Task w)) (top : Task w) : Bool :=
  queue.contains top && queue.all fun task => !Task.lt top task

/-- How far the loop thread is. -/
inductive Loop (w : Nat)
  | notStarted
  /-- In front of `while (running)`, or in a wait of the condition variable. -/
  | waiting
  /-- The task is out of the queue and the lock released. -/
  | taken (task : Task w)
  /-- `running` was true; the function is about to be called. -/
  | starting (task : Task w)
  | executing (task : Task w)
  | returned (task : Task w) (keepRunning : Bool)
  /-- All conditions to put the task back hold, `cancelled` not yet looked at. -/
  | checking (task : Task w)
  | requeueing (task : Task w)
  | exited
  deriving DecidableEq, Repr

end Scheduler

open Scheduler in
structure Scheduler (w : Nat) where
  queue : List (Task w) := []
  cancelled : List (BitVec w) := []
  nextId : BitVec w := 1
  running : Bool := false
  loop : Loop w := .notStarted
  /-- Tasks of `schedule` calls that have their id and wait for the lock. -/
  pending : List (Task w) := []
  /-- A `stop` call has released the lock and not returned. -/
  stopping : Bool := false
  /-- The ids of the tasks whose functions were called, in order. -/
  starts : List (BitVec w) := []
  deriving DecidableEq, Repr

namespace Scheduler

open MuonDetector.Library

variable {w : Nat}

/-- The calls that end in `schedule`, with what they read from the clock. -/
inductive Call (w : Nat)
  | every (interval now : Int)
  | onceAt (time : Int)
  | onceIn (milliseconds : BitVec w) (now : Int)
  deriving DecidableEq, Repr

/-- `static_cast<used_clock::duration>(milliseconds * static_cast<std::size_t>(1e6))`. The
product is a `std::size_t`, and the duration has 64 bits. -/
def delay (milliseconds : BitVec w) : Int := ((milliseconds * 1000000#w).setWidth 64).toInt

def Call.time : Call w → Int
  | .every _ now => now
  | .onceAt time => time
  | .onceIn milliseconds now => now + delay milliseconds

def Call.interval : Call w → Int
  | .every interval _ => interval
  | .onceAt _ => 0
  | .onceIn _ _ => 0

def Call.task (call : Call w) (id : BitVec w) : Task w :=
  { time := call.time, interval := call.interval, id := id }

inductive Label (w : Nat)
  | start
  /-- `next_id++` -/
  | allocate (call : Call w)
  /-- `queue.push` of one of the waiting `schedule` calls. -/
  | push (waiter : Nat)
  | cancel (id : BitVec w)
  /-- The part of `stop` under the lock. -/
  | stop
  /-- There was no thread to join, or it has ended. -/
  | stopReturned
  | waitForTask
  | look (now : Int) (top : Task w)
  | leave
  | checkRunning
  | startTask
  | taskReturned (keepRunning : Bool)
  | recheckRunning
  | recheckCancelled
  | requeue (now : Int)
  deriving DecidableEq, Repr

/-- `queue.top()` against the clock and the cancelled ids. -/
def takeNext (s : Scheduler w) (now : Int) (next : Task w) : Scheduler w :=
  if next.time > now then s
  else if s.cancelled.contains next.id then { s with queue := s.queue.erase next }
  else { s with queue := s.queue.erase next, loop := .taken next }

/-- What the loop thread does when it has the processor. -/
def loopStep (s : Scheduler w) : Loop w → Label w → Option (Scheduler w)
  | .waiting, .waitForTask => if s.running && s.queue.isEmpty then some s else none
  | .waiting, .look now top =>
    if s.running && isTop s.queue top then some (takeNext s now top) else none
  | .waiting, .leave =>
    if s.running then none else some { s with queue := [], loop := .exited }
  | .taken task, .checkRunning =>
    if s.running then some { s with loop := .starting task }
    else some { s with loop := .returned task true }
  | .starting task, .startTask =>
    some { s with loop := .executing task, starts := s.starts ++ [task.id] }
  | .executing task, .taskReturned keepRunning =>
    some { s with loop := .returned task keepRunning }
  | .returned task keepRunning, .recheckRunning =>
    if s.running && keepRunning && decide (task.interval > 0) then
      some { s with loop := .checking task }
    else some { s with loop := .waiting }
  | .checking task, .recheckCancelled =>
    if s.cancelled.contains task.id then some { s with loop := .waiting }
    else some { s with loop := .requeueing task }
  | .requeueing task, .requeue now =>
    some { s with
      queue := { task with time := now + task.interval * 1000000 } :: s.queue
      loop := .waiting }
  | _, _ => none

def step (s : Scheduler w) : Label w → Option (Scheduler w)
  | .start =>
    if s.loop = .notStarted then some { s with running := true, loop := .waiting } else none
  | .allocate call =>
    some { s with nextId := s.nextId + 1, pending := s.pending ++ [call.task s.nextId] }
  | .push waiter =>
    (s.pending[waiter]?).map fun task =>
      { s with pending := s.pending.eraseIdx waiter, queue := task :: s.queue }
  | .cancel id => some { s with cancelled := id :: s.cancelled }
  | .stop =>
    if s.stopping then none
    else some { s with running := false, queue := [], stopping := true }
  | .stopReturned =>
    if s.stopping && (s.loop = .notStarted || s.loop = .exited) then
      some { s with stopping := false }
    else none
  | label => loopStep s s.loop label

abbrev run : Scheduler w → List (Label w) → Option (Scheduler w) := Machine.run step

def fresh : Scheduler w := {}

/-! ## Where the tasks are -/

/-- The task whose function has yet to be called. -/
def Loop.ahead : Loop w → List (Task w)
  | .taken task => [task]
  | .starting task => [task]
  | _ => []

/-- The task whose function was called, or passed over. -/
def Loop.behind : Loop w → List (Task w)
  | .executing task => [task]
  | .returned task _ => [task]
  | .checking task => [task]
  | .requeueing task => [task]
  | _ => []

/-- The task that is out of the queue. -/
def Loop.current (loop : Loop w) : List (Task w) := loop.ahead ++ loop.behind

/-- The tasks that can be started before they go through the queue again. -/
def unstarted (s : Scheduler w) : List (Task w) := s.pending ++ s.queue ++ s.loop.ahead

def held (s : Scheduler w) : List (Task w) := unstarted s ++ s.loop.behind

/-- What stays the same in a task. -/
def Task.key (task : Task w) : BitVec w × Int := (task.id, task.interval)

def keys (s : Scheduler w) : List (BitVec w × Int) := (held s).map Task.key

def IsAllocate : Label w → Bool
  | .allocate _ => true
  | _ => false

def IsPush : Label w → Bool
  | .push _ => true
  | _ => false

theorem keys_ids (s : Scheduler w) : (keys s).map Prod.fst = (held s).map Task.id := by
  rw [keys, List.map_map]
  rfl

theorem isTop_iff {queue : List (Task w)} {top : Task w} :
    isTop queue top = true ↔ top ∈ queue ∧ ∀ task ∈ queue, top.time ≤ task.time := by
  simp only [isTop, Task.lt, Bool.and_eq_true, List.contains_iff_mem, List.all_eq_true,
    Bool.not_eq_true', decide_eq_false_iff_not, Int.not_lt]

end Scheduler

end MuonDetector.Core
