import MuonDetector.Library.Machine
import MuonDetector.Core.ThreadPool
import Mathlib.Data.List.Nodup
import Mathlib.Logic.Function.Basic

/-!
# The event bus

To publish an event is to give the pool one task that calls the handlers of its type one
after the other. The handlers are those registered when the bus was locked; the pool gets
the task a little later, and other threads may come in between. An event is known by its
number and by the thread that published it; its value does not matter here. Whether a
handler throws is decided when it returns. The state keeps what was published and which
handler was called with what.
-/

namespace MuonDetector.Core.EventBus

open MuonDetector.Library MuonDetector.Library.Machine

/-! ## The model -/

/-- An event with the type it has and the thread it comes from. -/
structure Event (Topic Thread : Type) where
  number : Nat
  topic : Topic
  source : Thread
  deriving DecidableEq, Repr

/-- The lambda that `publish` enqueues, with the handlers that have not returned. A
handler is known by the number of its registration. -/
structure Task (Topic Thread : Type) where
  event : Event Topic Thread
  handlers : List Nat
  deriving DecidableEq, Repr

/-- `underway` has the tasks of the threads that are between the two locks of `publish`,
the one of the bus and the one of the pool. -/
structure Bus (Topic Thread : Type) where
  subscribers : Topic → List Nat := fun _ => []
  registered : Nat := 0
  underway : List (Task Topic Thread) := []
  pool : ThreadPool (Task Topic Thread)
  published : List (Task Topic Thread) := []
  handled : List (Nat × Event Topic Thread) := []

/-- What can happen next. The two halves of a publication are labelled with its thread,
and the return of a handler with its worker and whether the handler throws a
`std::exception`. -/
inductive Label (Topic Thread : Type) where
  | subscribe (topic : Topic)
  | publish (source : Thread) (topic : Topic)
  | enqueue (source : Thread)
  | take (w : Nat)
  | call (w : Nat) (throws : Bool)
  | finish (w : Nat)
  | stop
  deriving DecidableEq, Repr

variable {Topic Thread : Type}

section Model

variable [DecidableEq Topic] [DecidableEq Thread]

def subscribe (b : Bus Topic Thread) (topic : Topic) : Bus Topic Thread :=
  { b with
    subscribers := Function.update b.subscribers topic (b.subscribers topic ++ [b.registered])
    registered := b.registered + 1 }

/-- The task that the thread is about to enqueue. -/
def underwayOf (b : Bus Topic Thread) (source : Thread) : Option (Task Topic Thread) :=
  b.underway.find? fun task => task.event.source = source

/-- `publish` up to the end of its lock: the handlers are copied. Without a handler it
returns. A thread publishes one event after the other. -/
def publish (b : Bus Topic Thread) (source : Thread) (topic : Topic) :
    Option (Bus Topic Thread) :=
  match underwayOf b source with
  | some _ => none
  | none =>
    let task : Task Topic Thread := ⟨⟨b.published.length, topic, source⟩, b.subscribers topic⟩
    some { b with
      underway := if task.handlers = [] then b.underway else b.underway ++ [task]
      published := b.published ++ [task] }

/-- The rest of `publish`. -/
def enqueue (b : Bus Topic Thread) (source : Thread) : Option (Bus Topic Thread) :=
  (underwayOf b source).map fun task => { b with
    underway := b.underway.erase task
    pool := b.pool.enqueue task }

/-- A handler returns. An exception leaves the loop over the handlers and ends the task. -/
def call (b : Bus Topic Thread) (w : Nat) (throws : Bool) : Option (Bus Topic Thread) :=
  match b.pool.task? w with
  | some ⟨event, handler :: rest⟩ => some { b with
      pool := b.pool.set w (if throws then none else some ⟨event, rest⟩)
      handled := b.handled ++ [(handler, event)] }
  | _ => none

/-- The loop over the handlers is done. -/
def finish (b : Bus Topic Thread) (w : Nat) : Option (Bus Topic Thread) :=
  match b.pool.task? w with
  | some ⟨_, []⟩ => some { b with pool := b.pool.set w none }
  | _ => none

def step (b : Bus Topic Thread) : Label Topic Thread → Option (Bus Topic Thread)
  | .subscribe topic => some (subscribe b topic)
  | .publish source topic => publish b source topic
  | .enqueue source => enqueue b source
  | .take w => (b.pool.take w).map fun pool => { b with pool := pool }
  | .call w throws => call b w throws
  | .finish w => finish b w
  | .stop => some { b with pool := b.pool.stop }

def start (numThreads : Nat) : Bus Topic Thread := { pool := ThreadPool.start numThreads }

end Model

/-- The tasks that are not done. -/
def inFlight (b : Bus Topic Thread) : List (Task Topic Thread) := b.underway ++ b.pool.held

theorem inFlight_start (numThreads : Nat) :
    inFlight (start numThreads : Bus Topic Thread) = [] := by
  simp [inFlight, start, ThreadPool.start, ThreadPool.held, ThreadPool.busy]

/-! ## One step -/

section Step

variable [DecidableEq Thread]

theorem underwayOf_eq_some {b : Bus Topic Thread} {source : Thread} {task : Task Topic Thread}
    (h : underwayOf b source = some task) : task ∈ b.underway ∧ task.event.source = source := by
  refine ⟨List.mem_of_find?_eq_some h, ?_⟩
  have hsource := List.find?_some h
  exact of_decide_eq_true hsource

variable [DecidableEq Topic]

theorem step_publish {b b' : Bus Topic Thread} {source : Thread} {topic : Topic}
    (h : step b (.publish source topic) = some b') :
    (∀ task ∈ b.underway, task.event.source ≠ source) ∧
      ∃ task : Task Topic Thread,
        task = ⟨⟨b.published.length, topic, source⟩, b.subscribers topic⟩ ∧
        b' = { b with
          underway := if task.handlers = [] then b.underway else b.underway ++ [task]
          published := b.published ++ [task] } := by
  rw [step, publish] at h
  split at h
  · cases h
  · rename_i hnone
    refine ⟨?_, _, rfl, (Option.some.inj h).symm⟩
    intro task hmem heq
    have hne := List.find?_eq_none.mp hnone task hmem
    exact hne (decide_eq_true heq)

theorem step_enqueue {b b' : Bus Topic Thread} {source : Thread}
    (h : step b (.enqueue source) = some b') :
    ∃ task, task ∈ b.underway ∧ task.event.source = source ∧
      b' = { b with underway := b.underway.erase task, pool := b.pool.enqueue task } := by
  obtain ⟨task, htask, heq⟩ := Option.map_eq_some_iff.mp h
  obtain ⟨hmem, hsource⟩ := underwayOf_eq_some htask
  exact ⟨task, hmem, hsource, heq.symm⟩

theorem step_take {b b' : Bus Topic Thread} {w : Nat} (h : step b (.take w) = some b') :
    ∃ pool, b.pool.take w = some pool ∧ b' = { b with pool := pool } := by
  obtain ⟨pool, hpool, heq⟩ := Option.map_eq_some_iff.mp h
  exact ⟨pool, hpool, heq.symm⟩

theorem step_call {b b' : Bus Topic Thread} {w : Nat} {throws : Bool}
    (h : step b (.call w throws) = some b') :
    ∃ event handler rest, b.pool.task? w = some ⟨event, handler :: rest⟩ ∧
      b' = { b with
        pool := b.pool.set w (if throws then none else some ⟨event, rest⟩)
        handled := b.handled ++ [(handler, event)] } := by
  rw [step, call] at h
  split at h
  · rename_i event handler rest htask
    exact ⟨event, handler, rest, htask, (Option.some.inj h).symm⟩
  · cases h

theorem step_finish {b b' : Bus Topic Thread} {w : Nat} (h : step b (.finish w) = some b') :
    ∃ event, b.pool.task? w = some ⟨event, []⟩ ∧
      b' = { b with pool := b.pool.set w none } := by
  rw [step, finish] at h
  split at h
  · rename_i event htask
    exact ⟨event, htask, (Option.some.inj h).symm⟩
  · cases h

/-- Only a publication adds to what was published. -/
theorem step_published {b b' : Bus Topic Thread} {l : Label Topic Thread}
    (h : step b l = some b') :
    b'.published = b.published ∨ ∃ source topic, b'.published =
      b.published ++ [⟨⟨b.published.length, topic, source⟩, b.subscribers topic⟩] := by
  cases l with
  | subscribe topic | stop =>
    cases h
    exact .inl rfl
  | publish source topic =>
    obtain ⟨-, task, rfl, rfl⟩ := step_publish h
    exact .inr ⟨source, topic, rfl⟩
  | enqueue source =>
    obtain ⟨task, -, -, rfl⟩ := step_enqueue h
    exact .inl rfl
  | take w =>
    obtain ⟨pool, -, rfl⟩ := step_take h
    exact .inl rfl
  | call w throws =>
    obtain ⟨event, handler, rest, -, rfl⟩ := step_call h
    exact .inl rfl
  | finish w =>
    obtain ⟨event, -, rfl⟩ := step_finish h
    exact .inl rfl

/-- Only a subscription changes the subscribers. -/
theorem step_subscribers {b b' : Bus Topic Thread} {l : Label Topic Thread}
    (h : step b l = some b') :
    (b'.subscribers = b.subscribers ∧ b'.registered = b.registered) ∨
      ∃ topic, b' = subscribe b topic := by
  cases l with
  | subscribe topic =>
    cases h
    exact .inr ⟨topic, rfl⟩
  | publish source topic =>
    obtain ⟨-, task, -, rfl⟩ := step_publish h
    exact .inl ⟨rfl, rfl⟩
  | enqueue source =>
    obtain ⟨task, -, -, rfl⟩ := step_enqueue h
    exact .inl ⟨rfl, rfl⟩
  | take w =>
    obtain ⟨pool, -, rfl⟩ := step_take h
    exact .inl ⟨rfl, rfl⟩
  | call w throws =>
    obtain ⟨event, handler, rest, -, rfl⟩ := step_call h
    exact .inl ⟨rfl, rfl⟩
  | finish w =>
    obtain ⟨event, -, rfl⟩ := step_finish h
    exact .inl ⟨rfl, rfl⟩
  | stop =>
    cases h
    exact .inl ⟨rfl, rfl⟩

/-- The pool keeps its workers. -/
theorem step_workers {b b' : Bus Topic Thread} {l : Label Topic Thread}
    (h : step b l = some b') : b'.pool.workers.length = b.pool.workers.length := by
  cases l with
  | subscribe topic | stop =>
    cases h
    rfl
  | publish source topic =>
    obtain ⟨-, task, -, rfl⟩ := step_publish h
    rfl
  | enqueue source =>
    obtain ⟨task, -, -, rfl⟩ := step_enqueue h
    show (ThreadPool.enqueue _ _).workers.length = _
    rw [ThreadPool.enqueue]
    split_ifs <;> rfl
  | take w =>
    obtain ⟨pool, hpool, rfl⟩ := step_take h
    obtain ⟨task, rest, -, -, rfl⟩ := ThreadPool.take_eq_some.mp hpool
    exact List.length_set ..
  | call w throws =>
    obtain ⟨event, handler, rest, -, rfl⟩ := step_call h
    exact List.length_set ..
  | finish w =>
    obtain ⟨event, -, rfl⟩ := step_finish h
    exact List.length_set ..

/-- A task stays in flight with the handlers it still has, and every other one is new. -/
theorem step_inFlight {b b' : Bus Topic Thread} {l : Label Topic Thread}
    (h : step b l = some b') :
    ∀ task ∈ inFlight b', task ∈ inFlight b ∨ task ∈ b'.published ∨
      ∃ handler, ⟨task.event, handler :: task.handlers⟩ ∈ inFlight b := by
  intro task hmem
  cases l with
  | subscribe topic =>
    cases h
    exact .inl hmem
  | publish source topic =>
    obtain ⟨-, new, -, rfl⟩ := step_publish h
    rcases List.mem_append.mp hmem with hmem | hmem
    · split_ifs at hmem
      · exact .inl (List.mem_append_left _ hmem)
      · rcases List.mem_append.mp hmem with hmem | hmem
        · exact .inl (List.mem_append_left _ hmem)
        · exact .inr (.inl (List.mem_append_right _ hmem))
    · exact .inl (List.mem_append_right _ hmem)
  | enqueue source =>
    obtain ⟨new, hnew, -, rfl⟩ := step_enqueue h
    rcases List.mem_append.mp hmem with hmem | hmem
    · exact .inl (List.mem_append_left _ (List.mem_of_mem_erase hmem))
    · rcases ThreadPool.mem_held_enqueue hmem with rfl | hmem
      · exact .inl (List.mem_append_left _ hnew)
      · exact .inl (List.mem_append_right _ hmem)
  | take w =>
    obtain ⟨pool, hpool, rfl⟩ := step_take h
    refine .inl ?_
    rwa [inFlight, List.mem_append, ← (ThreadPool.held_take hpool).mem_iff, ← List.mem_append]
  | call w throws =>
    obtain ⟨event, handler, rest, htask, rfl⟩ := step_call h
    obtain ⟨others, hold, hnew⟩ := ThreadPool.held_set htask (if throws then none else
      some ⟨event, rest⟩)
    rcases List.mem_append.mp hmem with hmem | hmem
    · exact .inl (List.mem_append_left _ hmem)
    · rcases List.mem_append.mp (hnew.mem_iff.mp hmem) with hmem | hmem
      · cases throws with
        | true => cases hmem
        | false =>
          cases List.mem_singleton.mp hmem
          refine .inr (.inr ⟨handler, List.mem_append_right _ (hold.mem_iff.mpr ?_)⟩)
          exact List.mem_cons_self ..
      · refine .inl (List.mem_append_right _ (hold.mem_iff.mpr ?_))
        exact List.mem_cons_of_mem _ hmem
  | finish w =>
    obtain ⟨event, htask, rfl⟩ := step_finish h
    obtain ⟨others, hold, hnew⟩ := ThreadPool.held_set htask none
    rcases List.mem_append.mp hmem with hmem | hmem
    · exact .inl (List.mem_append_left _ hmem)
    · refine .inl (List.mem_append_right _ (hold.mem_iff.mpr ?_))
      exact List.mem_cons_of_mem _ (hnew.mem_iff.mp hmem)
  | stop =>
    cases h
    rcases List.mem_append.mp hmem with hmem | hmem
    · exact .inl (List.mem_append_left _ hmem)
    · exact .inl (List.mem_append_right _ (List.mem_append_right _ hmem))

end Step

/-! ## The registrations -/

/-- No handler is registered twice under one number, or called twice for one event. -/
structure Registered (b : Bus Topic Thread) : Prop where
  nodup : ∀ topic, (b.subscribers topic).Nodup
  known : ∀ topic, ∀ h ∈ b.subscribers topic, h < b.registered
  copied : ∀ task ∈ b.published, task.handlers.Nodup
  left : ∀ task ∈ inFlight b, task.handlers.Nodup

theorem registered_start (numThreads : Nat) :
    Registered (start numThreads : Bus Topic Thread) where
  nodup _ := List.nodup_nil
  known _ h hmem := by cases hmem
  copied task hmem := by cases hmem
  left task hmem := by
    rw [inFlight_start] at hmem
    cases hmem

variable [DecidableEq Topic]

theorem registered_subscribe {b : Bus Topic Thread} (hb : Registered b) (topic : Topic) :
    Registered (subscribe b topic) := by
  have hnew : ∀ t, (subscribe b topic).subscribers t = b.subscribers t ∨
      (subscribe b topic).subscribers t = b.subscribers t ++ [b.registered] := by
    intro t
    by_cases ht : t = topic
    · subst ht
      exact .inr (Function.update_self ..)
    · exact .inl (Function.update_of_ne ht ..)
  have hfresh : ∀ t, b.registered ∉ b.subscribers t := fun t hmem =>
    Nat.lt_irrefl _ (hb.known t _ hmem)
  constructor
  · intro t
    rcases hnew t with h | h <;> rw [h]
    · exact hb.nodup t
    · rw [← List.concat_eq_append]
      exact (hb.nodup t).concat (hfresh t)
  · intro t h hmem
    show h < b.registered + 1
    rcases hnew t with heq | heq <;> rw [heq] at hmem
    · exact Nat.lt_succ_of_lt (hb.known t h hmem)
    · rcases List.mem_append.mp hmem with hmem | hmem
      · exact Nat.lt_succ_of_lt (hb.known t h hmem)
      · rw [List.mem_singleton.mp hmem]
        exact Nat.lt_succ_self _
  · exact hb.copied
  · exact hb.left

theorem step_registered [DecidableEq Thread] {b b' : Bus Topic Thread} {l : Label Topic Thread}
    (hb : Registered b) (h : step b l = some b') : Registered b' := by
  have hcopied : ∀ task ∈ b'.published, task.handlers.Nodup := by
    intro task hmem
    rcases step_published h with heq | ⟨source, topic, heq⟩ <;> rw [heq] at hmem
    · exact hb.copied task hmem
    · rcases List.mem_append.mp hmem with hmem | hmem
      · exact hb.copied task hmem
      · rw [List.mem_singleton.mp hmem]
        exact hb.nodup topic
  have hleft : ∀ task ∈ inFlight b', task.handlers.Nodup := by
    intro task hmem
    rcases step_inFlight h task hmem with hold | hnew | ⟨handler, hold⟩
    · exact hb.left task hold
    · exact hcopied task hnew
    · exact (hb.left _ hold).of_cons
  rcases step_subscribers h with ⟨hsubs, hcount⟩ | ⟨topic, rfl⟩
  · refine ⟨?_, ?_, hcopied, hleft⟩
    · rw [hsubs]
      exact hb.nodup
    · rw [hsubs, hcount]
      exact hb.known
  · exact registered_subscribe hb topic

end MuonDetector.Core.EventBus
