import Mathlib.Data.List.Perm.Basic

/-!
# The thread pool

A queue of tasks and a number of workers, each of which takes the task at the front of
the queue, runs it, and comes back. The mutex makes the queue operations atomic, so the
pool is a value and each operation a function. What a task is and how far a worker is
with one is left to the user of the pool.
-/

namespace MuonDetector.Core

structure ThreadPool (τ : Type*) where
  tasks : List τ := []
  workers : List (Option τ)
  running : Bool := true
  deriving DecidableEq, Repr

namespace ThreadPool

open scoped List

variable {τ : Type*}

/-- The constructor. Every worker waits for a task. -/
def start (numThreads : Nat) : ThreadPool τ := { workers := List.replicate numThreads none }

def enqueue (p : ThreadPool τ) (task : τ) : ThreadPool τ :=
  if p.running then { p with tasks := p.tasks ++ [task] } else p

def stop (p : ThreadPool τ) : ThreadPool τ := { p with running := false, tasks := [] }

/-- The critical section of `worker_loop`, for a worker that waits for a task. -/
def take (p : ThreadPool τ) (w : Nat) : Option (ThreadPool τ) :=
  match p.workers[w]?, p.tasks with
  | some none, task :: rest => some { p with tasks := rest, workers := p.workers.set w (some task) }
  | _, _ => none

/-- What the worker runs. -/
def task? (p : ThreadPool τ) (w : Nat) : Option τ := p.workers[w]?.join

/-- The worker goes on with its task, or comes back from it. -/
def set (p : ThreadPool τ) (w : Nat) (task : Option τ) : ThreadPool τ :=
  { p with workers := p.workers.set w task }

/-! ## The tasks in the pool -/

/-- The tasks that run. -/
def busy (p : ThreadPool τ) : List τ := p.workers.filterMap id

/-- The tasks that wait and the tasks that run. -/
def held (p : ThreadPool τ) : List τ := p.tasks ++ p.busy

theorem task?_eq_some {p : ThreadPool τ} {w : Nat} {task : τ} :
    task? p w = some task ↔ p.workers[w]? = some (some task) := by
  rw [task?, Option.join_eq_some_iff]

theorem take_eq_some {p p' : ThreadPool τ} {w : Nat} :
    take p w = some p' ↔ ∃ task rest, p.workers[w]? = some none ∧ p.tasks = task :: rest ∧
      p' = { p with tasks := rest, workers := p.workers.set w (some task) } := by
  rw [take]
  constructor
  · intro h
    split at h
    · rename_i task rest hw htasks
      exact ⟨task, rest, hw, htasks, (Option.some.inj h).symm⟩
    · cases h
  · rintro ⟨task, rest, hw, htasks, rfl⟩
    rw [hw, htasks]

/-- The tasks that run, around the one of a worker. -/
theorem busy_split {p : ThreadPool τ} {w : Nat} {task : Option τ}
    (h : p.workers[w]? = some task) :
    ∃ before after, busy p = before ++ task.toList ++ after ∧
      ∀ task' : Option τ, busy (set p w task') = before ++ task'.toList ++ after := by
  obtain ⟨hw, hget⟩ := List.getElem?_eq_some_iff.mp h
  have hcons : ∀ (t : Option τ) (ts : List (Option τ)),
      (t :: ts).filterMap id = t.toList ++ ts.filterMap id := by
    intro t ts
    cases t <;> rfl
  refine ⟨(p.workers.take w).filterMap id, (p.workers.drop (w + 1)).filterMap id, ?_, ?_⟩
  · rw [List.append_assoc, ← hcons, ← List.filterMap_append, ← hget, List.getElem_cons_drop,
      List.take_append_drop, busy]
  · intro task'
    rw [busy, set, List.append_assoc, ← hcons, ← List.filterMap_append,
      ← List.set_eq_take_cons_drop task' hw]

/-- The tasks that run, when a worker takes the task in front. -/
theorem busy_take {p p' : ThreadPool τ} {w : Nat} (h : take p w = some p') :
    ∃ task rest before after, p.tasks = task :: rest ∧ p'.tasks = rest ∧
      busy p = before ++ after ∧ busy p' = before ++ [task] ++ after := by
  obtain ⟨task, rest, hw, htasks, rfl⟩ := take_eq_some.mp h
  obtain ⟨before, after, hold, hnew⟩ := busy_split hw
  refine ⟨task, rest, before, after, htasks, rfl, ?_, hnew (some task)⟩
  rw [hold, Option.toList_none, List.append_nil]

theorem mem_held_enqueue {p : ThreadPool τ} {task t : τ} (h : t ∈ held (enqueue p task)) :
    t = task ∨ t ∈ held p := by
  rw [enqueue] at h
  split_ifs at h
  · simp only [held, List.mem_append, List.mem_singleton] at h ⊢
    rcases h with (h | h) | h
    · exact .inr (.inl h)
    · exact .inl h
    · exact .inr (.inr h)
  · exact .inr h

theorem held_enqueue {p : ThreadPool τ} (h : p.running = true) (task : τ) :
    (held (enqueue p task)).Perm (task :: held p) := by
  rw [enqueue, if_pos h, held, held, List.append_assoc]
  exact List.perm_middle

/-- A task that is taken stays in the pool. -/
theorem held_take {p p' : ThreadPool τ} {w : Nat} (h : take p w = some p') :
    (held p').Perm (held p) := by
  obtain ⟨task, rest, before, after, htasks, htasks', hold, hnew⟩ := busy_take h
  rw [held, held, htasks, htasks', hold, hnew, List.cons_append]
  calc rest ++ (before ++ [task] ++ after)
      = (rest ++ before) ++ task :: after := by simp
    _ ~ task :: ((rest ++ before) ++ after) := List.perm_middle
    _ = task :: (rest ++ (before ++ after)) := by simp

/-- A worker that goes on with its task, or comes back, changes no other task. -/
theorem held_set {p : ThreadPool τ} {w : Nat} {task : τ} (h : task? p w = some task)
    (task' : Option τ) :
    ∃ others, (held p).Perm (task :: others) ∧
      (held (set p w task')).Perm (task'.toList ++ others) := by
  obtain ⟨before, after, hold, hnew⟩ := busy_split (task?_eq_some.mp h)
  have hmove : ∀ ts : List τ, (p.tasks ++ (before ++ ts ++ after)).Perm
      (ts ++ (p.tasks ++ (before ++ after))) := by
    intro ts
    calc p.tasks ++ (before ++ ts ++ after)
        = (p.tasks ++ before) ++ ts ++ after := by simp
      _ ~ ts ++ (p.tasks ++ before) ++ after := List.perm_append_comm.append_right after
      _ = ts ++ (p.tasks ++ (before ++ after)) := by simp
  refine ⟨p.tasks ++ (before ++ after), ?_, ?_⟩
  · rw [held, hold]
    exact hmove [task]
  · rw [held, hnew]
    exact hmove task'.toList

theorem mem_held_of_task? {p : ThreadPool τ} {w : Nat} {task : τ} (h : task? p w = some task) :
    task ∈ held p := by
  obtain ⟨others, hperm, -⟩ := held_set h none
  exact hperm.mem_iff.mpr (List.mem_cons_self ..)

end ThreadPool

end MuonDetector.Core
