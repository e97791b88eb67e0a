import MuonDetector.Core.ThreadPool
import MuonDetector.Library.Machine
import Mathlib.Data.List.Range

/-!
# The worker loop

The workers of the thread pool, the threads that call `enqueue`, and those that call
`stop`. A label is what one thread does at once: a section under the mutex, a
notification, the call of a task, its end, or the join of a worker. Tasks are numbered in
the order in which `enqueue` accepted them.
-/

namespace MuonDetector.Core.WorkerLoop

open scoped List
open MuonDetector.Library

/-! ## The state -/

/-- A task in the pool, and whether the worker that has it has called it. -/
structure Job where
  number : Nat
  begun : Bool := false
  deriving DecidableEq, Repr

/-- Where a worker is. A worker with a task is awake. -/
inductive Place
  | awake
  /-- In the wait of the condition variable. -/
  | asleep
  /-- Out of `worker_loop`. -/
  | left
  deriving DecidableEq, Repr

/-- A call of `stop` that has released the mutex. -/
inductive StopCall
  /-- In front of `notify_all`. -/
  | notifying
  /-- The first workers are joined; with all of them joined, the call has returned. -/
  | joining (joined : Nat)
  deriving DecidableEq, Repr

/-- How a task ends. -/
inductive Outcome
  | returns
  /-- With a `std::exception`. -/
  | throws
  /-- With any other exception. -/
  | escapes
  deriving DecidableEq, Repr

structure State where
  pool : ThreadPool Job
  places : List Place
  /-- Calls of `enqueue` that have released the mutex and not notified. -/
  notifies : Nat := 0
  stops : List StopCall := []
  /-- The number of accepted tasks. -/
  accepted : Nat := 0
  /-- The worker and the task of every call of a task, in order. -/
  started : List (Nat × Nat) := []
  /-- The tasks that `stop` took out of the queue. -/
  discarded : List Nat := []
  /-- The tasks whose exception was logged. -/
  logged : List Nat := []
  /-- An exception left the function of a thread. -/
  terminated : Bool := false
  deriving DecidableEq, Repr

inductive Label
  | enqueue
  /-- `notify_one`, with the worker that it wakes. -/
  | notifyOne (worker : Option Nat)
  /-- A wait that returns by itself. -/
  | wake (worker : Nat)
  /-- The section of `worker_loop` under the mutex, up to the end of it or to the wait. -/
  | look (worker : Nat)
  | call (worker : Nat)
  | finish (worker : Nat) (outcome : Outcome)
  /-- The section of `stop` under the mutex. -/
  | stop
  | notifyAll (call : Nat)
  /-- One turn of the loop over the workers in `stop`. -/
  | join (call : Nat)
  deriving DecidableEq, Repr

/-- The constructor. -/
def start (numThreads : Nat) : State where
  pool := .start numThreads
  places := List.replicate numThreads .awake

def wakeOne : Place → Place
  | .asleep => .awake
  | place => place

namespace State

def moveTo (s : State) (worker : Nat) (place : Place) : State :=
  { s with places := s.places.set worker place }

/-! ## The steps -/

def enqueue (s : State) : State :=
  if s.pool.running then
    { s with
      pool := s.pool.enqueue { number := s.accepted }
      accepted := s.accepted + 1
      notifies := s.notifies + 1 }
  else s

/-- A notification with nobody in the wait is lost. -/
def notifyOne (s : State) : Option Nat → Option State
  | some worker =>
    if 0 < s.notifies ∧ s.places[worker]? = some .asleep then
      some { s.moveTo worker .awake with notifies := s.notifies - 1 }
    else none
  | none =>
    if 0 < s.notifies ∧ Place.asleep ∉ s.places then some { s with notifies := s.notifies - 1 }
    else none

/-- A task was there, or else `running` decides between the wait and the end of the loop. -/
def look (s : State) (worker : Nat) : Option State :=
  if s.places[worker]? = some .awake ∧ s.pool.workers[worker]? = some none then
    match s.pool.take worker with
    | some pool => some { s with pool := pool }
    | none => some (s.moveTo worker (if s.pool.running then .asleep else .left))
  else none

def call (s : State) (worker : Nat) : Option State :=
  match s.pool.task? worker with
  | some job =>
    if job.begun then none
    else some { s with
      pool := s.pool.set worker (some { job with begun := true })
      started := s.started ++ [(worker, job.number)] }
  | none => none

/-- The worker comes back to the top of the loop, unless the exception is none that it
catches. -/
def finish (s : State) (worker : Nat) (outcome : Outcome) : Option State :=
  match s.pool.task? worker with
  | some job =>
    if job.begun then
      match outcome with
      | .returns => some { s with pool := s.pool.set worker none }
      | .throws => some { s with
          pool := s.pool.set worker none
          logged := s.logged ++ [job.number] }
      | .escapes => some { s with terminated := true }
    else none
  | none => none

def stop (s : State) : State :=
  { s with
    pool := s.pool.stop
    discarded := s.discarded ++ s.pool.tasks.map Job.number
    stops := s.stops ++ [.notifying] }

def notifyAll (s : State) (call : Nat) : Option State :=
  if s.stops[call]? = some .notifying then
    some { s with places := s.places.map wakeOne, stops := s.stops.set call (.joining 0) }
  else none

/-- `join` returns when the worker has left its loop; a worker that another call has joined is
not joinable and is passed, and it has left its loop too. -/
def join (s : State) (call : Nat) : Option State :=
  match s.stops[call]? with
  | some (.joining joined) =>
    if s.places[joined]? = some .left then
      some { s with stops := s.stops.set call (.joining (joined + 1)) }
    else none
  | _ => none

end State

def step (s : State) (label : Label) : Option State :=
  if s.terminated then none
  else match label with
    | .enqueue => some s.enqueue
    | .notifyOne worker => s.notifyOne worker
    | .wake worker =>
      if s.places[worker]? = some .asleep then some (s.moveTo worker .awake) else none
    | .look worker => s.look worker
    | .call worker => s.call worker
    | .finish worker outcome => s.finish worker outcome
    | .stop => some s.stop
    | .notifyAll call => s.notifyAll call
    | .join call => s.join call

/-! ## The moves -/

/-- What a step does, by what it finds. -/
inductive Move (s : State) : Label → State → Prop
  | accepts (running : s.pool.running = true) :
      Move s .enqueue { s with
        pool := s.pool.enqueue { number := s.accepted }
        accepted := s.accepted + 1
        notifies := s.notifies + 1 }
  | refuses (running : s.pool.running = false) : Move s .enqueue s
  | notifies {worker : Nat} (due : 0 < s.notifies) (place : s.places[worker]? = some .asleep) :
      Move s (.notifyOne (some worker))
        { s.moveTo worker .awake with notifies := s.notifies - 1 }
  | unheard (due : 0 < s.notifies) (nobody : Place.asleep ∉ s.places) :
      Move s (.notifyOne none) { s with notifies := s.notifies - 1 }
  | wakes {worker : Nat} (place : s.places[worker]? = some .asleep) :
      Move s (.wake worker) (s.moveTo worker .awake)
  | takes {worker : Nat} {pool : ThreadPool Job} (place : s.places[worker]? = some .awake)
      (idle : s.pool.workers[worker]? = some none) (takes : s.pool.take worker = some pool) :
      Move s (.look worker) { s with pool := pool }
  | sleeps {worker : Nat} (place : s.places[worker]? = some .awake)
      (idle : s.pool.workers[worker]? = some none) (tasks : s.pool.tasks = [])
      (running : s.pool.running = true) : Move s (.look worker) (s.moveTo worker .asleep)
  | leaves {worker : Nat} (place : s.places[worker]? = some .awake)
      (idle : s.pool.workers[worker]? = some none) (tasks : s.pool.tasks = [])
      (running : s.pool.running = false) : Move s (.look worker) (s.moveTo worker .left)
  | calls {worker : Nat} {job : Job} (task : s.pool.task? worker = some job)
      (begun : job.begun = false) :
      Move s (.call worker) { s with
        pool := s.pool.set worker (some { job with begun := true })
        started := s.started ++ [(worker, job.number)] }
  | finishes {worker : Nat} {outcome : Outcome} {job : Job} (logged : List Nat)
      (task : s.pool.task? worker = some job) (begun : job.begun = true)
      (caught : outcome ≠ .escapes) :
      Move s (.finish worker outcome) { s with pool := s.pool.set worker none, logged := logged }
  | terminates {worker : Nat} :
      Move s (.finish worker .escapes) { s with terminated := true }
  | stops : Move s .stop s.stop
  | notifiesAll {call : Nat} (stopCall : s.stops[call]? = some .notifying) :
      Move s (.notifyAll call)
        { s with places := s.places.map wakeOne, stops := s.stops.set call (.joining 0) }
  | joins {call joined : Nat} (stopCall : s.stops[call]? = some (.joining joined))
      (place : s.places[joined]? = some .left) :
      Move s (.join call) { s with stops := s.stops.set call (.joining (joined + 1)) }

theorem enqueue_move (s : State) : Move s .enqueue s.enqueue := by
  unfold State.enqueue
  split
  · next running => exact .accepts running
  · next running => exact .refuses (by simpa using running)

theorem notifyOne_move {s s' : State} {worker : Option Nat} (h : s.notifyOne worker = some s') :
    Move s (.notifyOne worker) s' := by
  cases worker with
  | some worker =>
    obtain ⟨⟨due, place⟩, ⟨⟩⟩ := Option.ite_none_right_eq_some.mp h
    exact .notifies due place
  | none =>
    obtain ⟨⟨due, nobody⟩, ⟨⟩⟩ := Option.ite_none_right_eq_some.mp h
    exact .unheard due nobody

theorem take_eq_none {p : ThreadPool Job} {worker : Nat} (idle : p.workers[worker]? = some none)
    (h : p.take worker = none) : p.tasks = [] := by
  cases htasks : p.tasks with
  | nil => rfl
  | cons task rest =>
    have htakes := ThreadPool.take_eq_some.mpr ⟨task, rest, idle, htasks, rfl⟩
    rw [h] at htakes
    cases htakes

theorem look_move {s s' : State} {worker : Nat} (h : s.look worker = some s') :
    Move s (.look worker) s' := by
  unfold State.look at h
  obtain ⟨⟨place, idle⟩, h⟩ := Option.ite_none_right_eq_some.mp h
  split at h
  · next takes =>
    obtain rfl := Option.some.inj h
    exact .takes place idle takes
  · next empty =>
    obtain rfl := Option.some.inj h
    have tasks := take_eq_none idle empty
    cases running : s.pool.running with
    | true => exact .sleeps place idle tasks running
    | false => exact .leaves place idle tasks running

theorem call_move {s s' : State} {worker : Nat} (h : s.call worker = some s') :
    Move s (.call worker) s' := by
  unfold State.call at h
  split at h
  · next job task =>
    obtain ⟨begun, ⟨⟩⟩ := Option.ite_none_left_eq_some.mp h
    exact .calls task (by simpa using begun)
  · cases h

theorem finish_move {s s' : State} {worker : Nat} {outcome : Outcome}
    (h : s.finish worker outcome = some s') : Move s (.finish worker outcome) s' := by
  unfold State.finish at h
  split at h
  · next job task =>
    obtain ⟨begun, h⟩ := Option.ite_none_right_eq_some.mp h
    cases outcome with
    | returns =>
      obtain rfl := Option.some.inj h
      exact .finishes _ task begun (by decide)
    | throws =>
      obtain rfl := Option.some.inj h
      exact .finishes _ task begun (by decide)
    | escapes =>
      obtain rfl := Option.some.inj h
      exact .terminates
  · cases h

theorem join_move {s s' : State} {call : Nat} (h : s.join call = some s') :
    Move s (.join call) s' := by
  unfold State.join at h
  split at h
  · next joined stopCall =>
    obtain ⟨place, ⟨⟩⟩ := Option.ite_none_right_eq_some.mp h
    exact .joins stopCall place
  · cases h

theorem step_move {s s' : State} {label : Label} (h : step s label = some s') :
    Move s label s' := by
  obtain ⟨-, h⟩ := Option.ite_none_left_eq_some.mp h
  cases label with
  | enqueue =>
    obtain rfl := Option.some.inj h
    exact enqueue_move s
  | notifyOne worker => exact notifyOne_move h
  | wake worker =>
    obtain ⟨place, ⟨⟩⟩ := Option.ite_none_right_eq_some.mp h
    exact .wakes place
  | look worker => exact look_move h
  | call worker => exact call_move h
  | finish worker outcome => exact finish_move h
  | stop =>
    obtain rfl := Option.some.inj h
    exact .stops
  | notifyAll call =>
    obtain ⟨stopCall, ⟨⟩⟩ := Option.ite_none_right_eq_some.mp h
    exact .notifiesAll stopCall
  | join call => exact join_move h

/-! ## The tasks -/

/-- The numbers of the tasks that are not yet called. -/
def unbegun (jobs : List Job) : List Nat := (jobs.filter fun job => !job.begun).map Job.number

def State.pending (s : State) : List Nat := unbegun s.pool.held

def State.executed (s : State) : List Nat := s.started.map Prod.snd

theorem unbegun_append (jobs jobs' : List Job) :
    unbegun (jobs ++ jobs') = unbegun jobs ++ unbegun jobs' := by
  simp only [unbegun, List.filter_append, List.map_append]

theorem unbegun_cons_of_begun {job : Job} (h : job.begun = true) (jobs : List Job) :
    unbegun (job :: jobs) = unbegun jobs := by
  simp [unbegun, h]

theorem unbegun_cons_of_not_begun {job : Job} (h : job.begun = false) (jobs : List Job) :
    unbegun (job :: jobs) = job.number :: unbegun jobs := by
  simp [unbegun, h]

theorem unbegun_of_fresh {jobs : List Job} (h : ∀ job ∈ jobs, job.begun = false) :
    unbegun jobs = jobs.map Job.number := by
  rw [unbegun, List.filter_eq_self.mpr]
  intro job hjob
  rw [h job hjob]
  rfl

theorem unbegun_perm {jobs jobs' : List Job} (h : jobs.Perm jobs') :
    (unbegun jobs).Perm (unbegun jobs') := (h.filter _).map _

/-- No task of the queue is called. -/
def Fresh (s : State) : Prop := ∀ job ∈ s.pool.tasks, job.begun = false

theorem Fresh.move {s s' : State} {label : Label} (h : Fresh s) (hmove : Move s label s') :
    Fresh s' := by
  cases hmove with
  | accepts running =>
    intro job hjob
    rw [ThreadPool.enqueue, if_pos running] at hjob
    rcases List.mem_append.mp hjob with hjob | hjob
    · exact h job hjob
    · rw [List.mem_singleton.mp hjob]
  | takes place idle takes =>
    obtain ⟨task, rest, -, htasks, rfl⟩ := ThreadPool.take_eq_some.mp takes
    intro job hjob
    exact h job (htasks ▸ List.mem_cons_of_mem task hjob)
  | stops =>
    intro job hjob
    cases hjob
  | refuses | notifies | unheard | wakes | sleeps | leaves | calls | finishes | terminates
  | notifiesAll | joins => exact h

/-- Every accepted task is called, discarded or still to be called, and only one of these,
once. -/
def Accounted (s : State) : Prop :=
  (s.executed ++ s.discarded ++ s.pending).Perm (List.range s.accepted)

theorem Accounted.accepts {s : State} (h : Accounted s) (running : s.pool.running = true)
    (notifies : Nat) :
    Accounted { s with
      pool := s.pool.enqueue { number := s.accepted }
      accepted := s.accepted + 1
      notifies := notifies } := by
  have hpending : (unbegun (s.pool.enqueue { number := s.accepted }).held).Perm
      (s.accepted :: s.pending) := unbegun_perm (ThreadPool.held_enqueue running _)
  show (s.executed ++ s.discarded ++ unbegun (s.pool.enqueue { number := s.accepted }).held).Perm
    (List.range (s.accepted + 1))
  rw [List.range_succ]
  calc s.executed ++ s.discarded ++ unbegun (s.pool.enqueue { number := s.accepted }).held
      ~ s.executed ++ s.discarded ++ s.accepted :: s.pending := hpending.append_left _
    _ ~ s.accepted :: (s.executed ++ s.discarded ++ s.pending) := List.perm_middle
    _ ~ s.accepted :: List.range s.accepted := h.cons _
    _ ~ List.range s.accepted ++ [s.accepted] := (List.perm_append_singleton _ _).symm

theorem Accounted.calls {s : State} (h : Accounted s) {worker : Nat} {job : Job}
    (task : s.pool.task? worker = some job) (begun : job.begun = false) :
    Accounted { s with
      pool := s.pool.set worker (some { job with begun := true })
      started := s.started ++ [(worker, job.number)] } := by
  obtain ⟨others, hold, hnew⟩ := ThreadPool.held_set task (some { job with begun := true })
  have hbefore : s.pending.Perm (job.number :: unbegun others) := by
    rw [← unbegun_cons_of_not_begun begun]
    exact unbegun_perm hold
  have hafter : (unbegun (s.pool.set worker (some { job with begun := true })).held).Perm
      (unbegun others) := by
    rw [← @unbegun_cons_of_begun { job with begun := true } rfl others]
    exact unbegun_perm hnew
  show ((s.started ++ [(worker, job.number)]).map Prod.snd ++ s.discarded ++
    unbegun (s.pool.set worker (some { job with begun := true })).held).Perm (List.range s.accepted)
  rw [List.map_append, List.map_singleton, List.append_assoc, List.append_assoc]
  calc s.executed ++ ([job.number] ++ (s.discarded ++
        unbegun (s.pool.set worker (some { job with begun := true })).held))
      ~ s.executed ++ (job.number :: (s.discarded ++ unbegun others)) :=
        ((hafter.append_left _).cons _).append_left _
    _ ~ s.executed ++ (s.discarded ++ job.number :: unbegun others) :=
        List.perm_middle.symm.append_left _
    _ ~ s.executed ++ (s.discarded ++ s.pending) := (hbefore.symm.append_left _).append_left _
    _ = s.executed ++ s.discarded ++ s.pending := (List.append_assoc ..).symm
    _ ~ List.range s.accepted := h

theorem Accounted.stops {s : State} (h : Accounted s) (hfresh : Fresh s) : Accounted s.stop := by
  have hpending : s.pending = s.pool.tasks.map Job.number ++ unbegun s.pool.busy := by
    rw [State.pending, ThreadPool.held, unbegun_append, unbegun_of_fresh hfresh]
  rw [Accounted, hpending, ← List.append_assoc] at h
  show (s.executed ++ (s.discarded ++ s.pool.tasks.map Job.number) ++ unbegun s.pool.busy).Perm
    (List.range s.accepted)
  rwa [← List.append_assoc]

/-- The tasks in the pool change by their order only, or by one that has been called. -/
theorem Accounted.of_pending {s s' : State} (h : Accounted s) (hstarted : s'.started = s.started)
    (hdiscarded : s'.discarded = s.discarded) (haccepted : s'.accepted = s.accepted)
    (hpending : s'.pending.Perm s.pending) : Accounted s' := by
  rw [Accounted, State.executed, hstarted, hdiscarded, haccepted]
  exact (hpending.append_left _).trans h

theorem Accounted.move {s s' : State} {label : Label} (h : Accounted s) (hfresh : Fresh s)
    (hmove : Move s label s') : Accounted s' := by
  cases hmove with
  | accepts running => exact h.accepts running _
  | takes place idle takes =>
    exact h.of_pending rfl rfl rfl (unbegun_perm (ThreadPool.held_take takes))
  | calls task begun => exact h.calls task begun
  | finishes logged task begun caught =>
    obtain ⟨others, hold, hnew⟩ := ThreadPool.held_set task none
    refine h.of_pending rfl rfl rfl ((unbegun_perm hnew).trans ?_)
    rw [Option.toList_none, List.nil_append, ← unbegun_cons_of_begun begun]
    exact unbegun_perm hold.symm
  | stops => exact h.stops hfresh
  | refuses | notifies | unheard | wakes | sleeps | leaves | terminates | notifiesAll | joins =>
    exact h

/-! ## The threads -/

theorem Move.workers_length {s s' : State} {label : Label} (h : Move s label s') :
    s'.pool.workers.length = s.pool.workers.length := by
  cases h with
  | accepts running => rw [ThreadPool.enqueue, if_pos running]
  | takes place idle takes =>
    obtain ⟨task, rest, -, -, rfl⟩ := ThreadPool.take_eq_some.mp takes
    exact List.length_set
  | calls | finishes => exact List.length_set
  | refuses | notifies | unheard | wakes | sleeps | leaves | terminates | stops | notifiesAll
  | joins => rfl

theorem Move.places_length {s s' : State} {label : Label} (h : Move s label s') :
    s'.places.length = s.places.length := by
  cases h with
  | notifies | wakes | sleeps | leaves => exact List.length_set
  | notifiesAll => exact List.length_map _
  | accepts | refuses | unheard | takes | calls | finishes | terminates | stops | joins => rfl

/-- The pool is never started again. -/
theorem Move.running {s s' : State} {label : Label} (h : Move s label s')
    (hrunning : s.pool.running = false) : s'.pool.running = false := by
  cases h with
  | accepts running =>
    rw [hrunning] at running
    cases running
  | takes place idle takes =>
    obtain ⟨task, rest, -, -, rfl⟩ := ThreadPool.take_eq_some.mp takes
    exact hrunning
  | stops => rfl
  | refuses | notifies | unheard | wakes | sleeps | leaves | calls | finishes | terminates
  | notifiesAll | joins => exact hrunning

theorem getElem?_moveTo_of_ne {places : List Place} {worker w : Nat} {place place' : Place}
    (hworker : places[worker]? = some place) (hne : places[w]? ≠ some place) :
    (places.set worker place')[w]? = places[w]? := by
  apply List.getElem?_set_ne
  rintro rfl
  exact hne hworker

/-- A worker that has left its loop is not seen there again. -/
theorem Move.left {s s' : State} {label : Label} (h : Move s label s') {w : Nat}
    (hleft : s.places[w]? = some .left) : s'.places[w]? = some .left := by
  cases h with
  | notifies due place | wakes place | sleeps place idle tasks running
  | leaves place idle tasks running =>
    refine (getElem?_moveTo_of_ne place ?_).trans hleft
    rw [hleft]
    decide
  | notifiesAll stopCall =>
    show (s.places.map wakeOne)[w]? = some .left
    rw [List.getElem?_map, hleft]
    rfl
  | accepts | refuses | unheard | takes | calls | finishes | terminates | stops | joins =>
    exact hleft

/-- A worker that is found in the wait was there, or went there while the pool ran. -/
theorem Move.asleep {s s' : State} {label : Label} (h : Move s label s')
    (hasleep : Place.asleep ∈ s'.places) :
    Place.asleep ∈ s.places ∨ s.pool.running = true := by
  have hset : ∀ {worker : Nat} {place : Place}, place ≠ .asleep →
      Place.asleep ∈ s.places.set worker place → Place.asleep ∈ s.places := by
    intro worker place hplace hmem
    exact (List.mem_or_eq_of_mem_set hmem).resolve_right hplace.symm
  cases h with
  | notifies | wakes => exact .inl (hset (by decide) hasleep)
  | leaves => exact .inl (hset (by decide) hasleep)
  | sleeps place idle tasks running => exact .inr running
  | notifiesAll stopCall =>
    obtain ⟨place, hplace, heq⟩ := List.mem_map.mp hasleep
    cases place <;> cases heq
  | accepts | refuses | unheard | takes | calls | finishes | terminates | stops | joins =>
    exact .inl hasleep

/-- How far a call of `stop` can be: where it was, behind its `notify_all`, or one join
further. -/
theorem Move.joining {s s' : State} {label : Label} (h : Move s label s') {joined : Nat}
    (hmem : .joining joined ∈ s'.stops) :
    .joining joined ∈ s.stops ∨
      (joined = 0 ∧ Place.asleep ∉ s'.places ∧ s.stops ≠ []) ∨
      ∃ before, joined = before + 1 ∧ .joining before ∈ s.stops ∧
        s.places[before]? = some .left := by
  cases h with
  | stops =>
    rcases List.mem_append.mp hmem with hmem | hmem
    · exact .inl hmem
    · cases List.mem_singleton.mp hmem
  | notifiesAll stopCall =>
    rcases List.mem_or_eq_of_mem_set hmem with hmem | heq
    · exact .inl hmem
    · refine .inr (.inl ⟨StopCall.joining.inj heq, ?_, ?_⟩)
      · intro hasleep
        obtain ⟨place, hplace, hwoken⟩ := List.mem_map.mp hasleep
        cases place <;> cases hwoken
      · exact List.ne_nil_of_mem (List.mem_of_getElem? stopCall)
  | joins stopCall place =>
    rcases List.mem_or_eq_of_mem_set hmem with hmem | heq
    · exact .inl hmem
    · exact .inr (.inr ⟨_, StopCall.joining.inj heq, List.mem_of_getElem? stopCall, place⟩)
  | accepts | refuses | notifies | unheard | wakes | takes | sleeps | leaves | calls | finishes
  | terminates => exact .inl hmem

theorem Move.stops_ne_nil {s s' : State} {label : Label} (h : Move s label s')
    (hstops : s'.stops ≠ []) : s.stops ≠ [] ∨ s'.pool.running = false := by
  cases h with
  | stops => exact .inr rfl
  | notifiesAll | joins =>
    left
    intro hnil
    apply hstops
    simp [hnil]
  | accepts | refuses | notifies | unheard | wakes | takes | sleeps | leaves | calls | finishes
  | terminates => exact .inl hstops

/-- Only an awake worker has a task. -/
def IdleUnlessAwake (s : State) : Prop :=
  ∀ worker job, s.pool.task? worker = some job → s.places[worker]? = some .awake

theorem task?_set_of_ne {p : ThreadPool Job} {worker w : Nat} {task : Option Job} {job : Job}
    (hne : worker ≠ w) (h : (p.set worker task).task? w = some job) : p.task? w = some job := by
  rw [ThreadPool.task?_eq_some] at h ⊢
  rwa [ThreadPool.set, List.getElem?_set_ne hne] at h

theorem IdleUnlessAwake.set {s : State} (h : IdleUnlessAwake s) {worker : Nat} {job : Job}
    (task : s.pool.task? worker = some job) (task' : Option Job) {w : Nat} {job' : Job}
    (hw : (s.pool.set worker task').task? w = some job') : s.places[w]? = some .awake := by
  by_cases heq : worker = w
  · subst heq
    exact h worker job task
  · exact h w job' (task?_set_of_ne heq hw)

theorem IdleUnlessAwake.moveTo {s : State} (h : IdleUnlessAwake s) {worker : Nat} {place : Place}
    (hworker : ∀ job, s.pool.task? worker = some job → place = .awake) {w : Nat} {job : Job}
    (hw : s.pool.task? w = some job) : (s.moveTo worker place).places[w]? = some .awake := by
  have hawake := h w job hw
  by_cases heq : worker = w
  · subst heq
    obtain ⟨hlt, -⟩ := List.getElem?_eq_some_iff.mp hawake
    rw [State.moveTo, List.getElem?_set_self hlt, hworker job hw]
  · rw [State.moveTo, List.getElem?_set_ne heq, hawake]

theorem IdleUnlessAwake.move {s s' : State} {label : Label} (h : IdleUnlessAwake s)
    (hmove : Move s label s') : IdleUnlessAwake s' := by
  have hidle : ∀ {worker : Nat} (place : Place), s.pool.workers[worker]? = some none →
      ∀ job, s.pool.task? worker = some job → place = .awake := by
    intro worker place idle job hjob
    rw [ThreadPool.task?_eq_some, idle] at hjob
    cases hjob
  cases hmove with
  | accepts running =>
    intro w job hw
    rw [ThreadPool.enqueue, if_pos running] at hw
    exact h w job hw
  | notifies | wakes => exact fun w job hw => h.moveTo (fun _ _ => rfl) hw
  | sleeps place idle | leaves place idle => exact fun w job hw => h.moveTo (hidle _ idle) hw
  | @takes worker pool place idle takes =>
    intro w job hw
    obtain ⟨task, rest, -, -, rfl⟩ := ThreadPool.take_eq_some.mp takes
    by_cases heq : worker = w
    · subst heq
      exact place
    · exact h w job (task?_set_of_ne heq hw)
  | calls task | finishes logged task => exact fun w job hw => h.set task _ hw
  | notifiesAll stopCall =>
    intro w job hw
    show (s.places.map wakeOne)[w]? = some .awake
    rw [List.getElem?_map, h w job hw]
    rfl
  | refuses | unheard | terminates | stops | joins => exact h

/-! ## The invariant -/

/-- What holds in every state of a pool with this many workers. -/
structure Sound (numThreads : Nat) (s : State) : Prop where
  places_length : s.places.length = numThreads
  workers_length : s.pool.workers.length = numThreads
  fresh : Fresh s
  idle : IdleUnlessAwake s
  empty : s.pool.running = false → s.pool.tasks = []
  leaving : Place.left ∈ s.places → s.pool.running = false
  stopping : s.stops ≠ [] → s.pool.running = false
  joined : ∀ joined, .joining joined ∈ s.stops → ∀ worker < joined,
    s.places[worker]? = some .left
  woken : ∀ joined, .joining joined ∈ s.stops → Place.asleep ∉ s.places
  /-- Where tasks wait, a worker will look at the queue. -/
  served : s.pool.tasks ≠ [] → 0 < numThreads → 0 < s.notifies ∨ Place.awake ∈ s.places

theorem sound_start (numThreads : Nat) : Sound numThreads (start numThreads) where
  places_length := List.length_replicate
  workers_length := List.length_replicate
  fresh := by
    intro job hjob
    cases hjob
  idle := by
    intro worker job hjob
    rw [ThreadPool.task?_eq_some] at hjob
    have hnone := List.eq_of_mem_replicate (List.mem_of_getElem? hjob)
    cases hnone
  empty := fun _ => rfl
  leaving := by
    intro hleft
    cases List.eq_of_mem_replicate hleft
  stopping := fun hstops => absurd rfl hstops
  joined := by
    intro joined hmem
    cases hmem
  woken := by
    intro joined hmem
    cases hmem
  served := fun htasks => absurd rfl htasks

theorem Move.empty {s s' : State} {label : Label} (h : Move s label s')
    (hempty : s.pool.running = false → s.pool.tasks = []) (hrunning : s'.pool.running = false) :
    s'.pool.tasks = [] := by
  cases h with
  | accepts running =>
    rw [ThreadPool.enqueue, if_pos running, running] at hrunning
    cases hrunning
  | takes place idle takes =>
    obtain ⟨task, rest, -, htasks, rfl⟩ := ThreadPool.take_eq_some.mp takes
    rw [hempty hrunning] at htasks
    cases htasks
  | stops => rfl
  | refuses | notifies | unheard | wakes | sleeps | leaves | calls | finishes | terminates
  | notifiesAll | joins => exact hempty hrunning

theorem Move.leaving {s s' : State} {label : Label} (h : Move s label s')
    (hleaving : Place.left ∈ s.places → s.pool.running = false)
    (hleft : Place.left ∈ s'.places) : s'.pool.running = false := by
  have hset : ∀ {worker : Nat} {place : Place}, place ≠ .left →
      Place.left ∈ s.places.set worker place → s.pool.running = false := by
    intro worker place hplace hmem
    exact hleaving ((List.mem_or_eq_of_mem_set hmem).resolve_right hplace.symm)
  have hstays : Place.left ∈ s.places → s'.pool.running = false := fun hmem =>
    h.running (hleaving hmem)
  cases h with
  | notifies | wakes | sleeps => exact hset (by decide) hleft
  | leaves place idle tasks running => exact running
  | notifiesAll stopCall =>
    obtain ⟨place, hplace, heq⟩ := List.mem_map.mp hleft
    cases place with
    | left => exact hleaving hplace
    | awake | asleep => cases heq
  | accepts | refuses | unheard | takes | calls | finishes | terminates | stops | joins =>
    exact hstays hleft

/-- With tasks in the queue, none of the workers has left; if none is in the wait either, any
of them is awake. -/
theorem Sound.awake_of_nobody_asleep {numThreads : Nat} {s : State} (h : Sound numThreads s)
    (htasks : s.pool.tasks ≠ []) (hpos : 0 < numThreads) (hnobody : Place.asleep ∉ s.places) :
    Place.awake ∈ s.places := by
  have hlt : 0 < s.places.length := h.places_length ▸ hpos
  have hmem := List.getElem_mem hlt
  cases hplace : s.places[0] with
  | awake => rwa [hplace] at hmem
  | asleep => exact absurd (hplace ▸ hmem) hnobody
  | left => exact absurd (h.empty (h.leaving (hplace ▸ hmem))) htasks

theorem Sound.served_move {numThreads : Nat} {s s' : State} {label : Label}
    (h : Sound numThreads s) (hmove : Move s label s') (htasks : s'.pool.tasks ≠ [])
    (hpos : 0 < numThreads) : 0 < s'.notifies ∨ Place.awake ∈ s'.places := by
  have hset : ∀ {worker : Nat} {place : Place}, s.places[worker]? = some place →
      Place.awake ∈ s.places.set worker .awake := fun hplace =>
    List.mem_set (List.getElem?_eq_some_iff.mp hplace).1 _
  cases hmove with
  | accepts => exact .inl (Nat.succ_pos _)
  | notifies due place => exact .inr (hset place)
  | wakes place => exact .inr (hset place)
  | unheard due nobody => exact .inr (h.awake_of_nobody_asleep htasks hpos nobody)
  | takes place => exact .inr (List.mem_of_getElem? place)
  | sleeps place idle tasks | leaves place idle tasks => exact absurd tasks htasks
  | stops => exact absurd rfl htasks
  | notifiesAll stopCall =>
    rcases h.served htasks hpos with hnotifies | hawake
    · exact .inl hnotifies
    · exact .inr (List.mem_map.mpr ⟨.awake, hawake, rfl⟩)
  | refuses | calls | finishes | terminates | joins => exact h.served htasks hpos

theorem Sound.move {numThreads : Nat} {s s' : State} {label : Label} (h : Sound numThreads s)
    (hmove : Move s label s') : Sound numThreads s' where
  places_length := hmove.places_length.trans h.places_length
  workers_length := hmove.workers_length.trans h.workers_length
  fresh := h.fresh.move hmove
  idle := h.idle.move hmove
  empty := hmove.empty h.empty
  leaving := hmove.leaving h.leaving
  stopping := by
    intro hstops
    rcases hmove.stops_ne_nil hstops with hstops | hrunning
    · exact hmove.running (h.stopping hstops)
    · exact hrunning
  joined := by
    intro joined hmem worker hworker
    rcases hmove.joining hmem with hmem | ⟨rfl, -⟩ | ⟨before, rfl, hmem, hleft⟩
    · exact hmove.left (h.joined joined hmem worker hworker)
    · omega
    · apply hmove.left
      rcases Nat.lt_succ_iff_lt_or_eq.mp hworker with hlt | rfl
      · exact h.joined before hmem worker hlt
      · exact hleft
  woken := by
    intro joined hmem
    have hstays : ∀ before, .joining before ∈ s.stops → Place.asleep ∉ s'.places := by
      intro before hbefore hasleep
      rcases hmove.asleep hasleep with hasleep | hrunning
      · exact h.woken before hbefore hasleep
      · rw [h.stopping (List.ne_nil_of_mem hbefore)] at hrunning
        cases hrunning
    rcases hmove.joining hmem with hmem | ⟨-, hnobody, -⟩ | ⟨before, -, hmem, -⟩
    · exact hstays joined hmem
    · exact hnobody
    · exact hstays before hmem
  served := h.served_move hmove

end MuonDetector.Core.WorkerLoop
