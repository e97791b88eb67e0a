import MuonDetector.Core.EventBus
import Mathlib.Data.List.Range
import Mathlib.Tactic.Ring

/-!
# Delivery of events

One task calls all handlers of an event, and an exception of one of them ends the task.
As long as only the last handler of a task throws, every event comes to every handler
that was registered when it was published, and it comes once. The work that is left
bounds the number of steps in which the threads can get there.
-/

namespace MuonDetector.Core.EventDelivery

open scoped List
open MuonDetector.Library MuonDetector.Library.Machine
open MuonDetector.Core.EventBus

variable {Topic Thread : Type}

/-! ## The property -/

/-- The calls that a task still makes. -/
def duties (t : Task Topic Thread) : List (Nat × Event Topic Thread) :=
  t.handlers.map fun h => (h, t.event)

/-- A call for each published event and each handler registered when it was published. -/
def due (b : Bus Topic Thread) : List (Nat × Event Topic Thread) := b.published.flatMap duties

/-- The steps that the publishing threads and the workers take by themselves. -/
def Internal : Label Topic Thread → Prop
  | .enqueue _ | .take _ | .call _ _ | .finish _ => True
  | .subscribe _ | .publish _ _ | .stop => False

section Property

variable [DecidableEq Topic] [DecidableEq Thread]

def Idle (b : Bus Topic Thread) : Prop := ∀ l, Internal l → step b l = none

/-- Every event is handled exactly once by every subscriber. -/
structure Delivered (b : Bus Topic Thread) : Prop where
  once : b.handled.Nodup
  only : ∀ c ∈ b.handled, c ∈ due b
  all : Idle b → ∀ c ∈ due b, c ∈ b.handled

end Property

/-- A handler that throws is the last one of its task. -/
def Completes (b : Bus Topic Thread) : Label Topic Thread → Prop
  | .call w true => ∀ task ∈ b.pool.task? w, task.handlers.tail = []
  | _ => True

instance Completes.decidable (b : Bus Topic Thread) : ∀ l, Decidable (Completes b l)
  | .call w true => inferInstanceAs (Decidable (∀ task ∈ b.pool.task? w, _ = []))
  | .call _ false | .subscribe _ | .publish _ _ | .enqueue _ | .take _ | .finish _ | .stop =>
    .isTrue trivial

/-! ## The account of calls -/

/-- Every call that is due is made or left to a task. -/
structure Accounted (b : Bus Topic Thread) : Prop where
  registered : Registered b
  numbers : b.published.map (fun t => t.event.number) = List.range b.published.length
  running : b.pool.running = true
  account : (b.handled ++ (inFlight b).flatMap duties).Perm (due b)

theorem accounted_start (numThreads : Nat) :
    Accounted (start numThreads : Bus Topic Thread) := by
  constructor
  · exact registered_start numThreads
  · rfl
  · rfl
  · rw [inFlight_start]
    exact List.Perm.refl []

variable {b b' : Bus Topic Thread}

/-- No call is due twice. -/
theorem due_nodup (hb : Accounted b) : (due b).Nodup := by
  have hnumbers : (b.published.map fun t => t.event.number).Nodup := by
    rw [hb.numbers]
    exact List.nodup_range
  refine List.nodup_flatMap.mpr ⟨?_, ?_⟩
  · intro t hmem
    refine (hb.registered.copied t hmem).map ?_
    intro h₁ h₂ heq
    exact (Prod.mk.inj heq).1
  · refine (List.pairwise_map.mp hnumbers).imp ?_
    intro t₁ t₂ hne c hc₁ hc₂
    obtain ⟨h₁, -, rfl⟩ := List.mem_map.mp hc₁
    obtain ⟨h₂, -, heq⟩ := List.mem_map.mp hc₂
    have hevent : t₂.event = t₁.event := (Prod.mk.inj heq).2
    exact hne (congrArg Event.number hevent.symm)

variable [DecidableEq Topic] [DecidableEq Thread]

theorem account_publish {s : Thread} {topic : Topic} (hb : Accounted b)
    (h : step b (.publish s topic) = some b') :
    (b'.handled ++ (inFlight b').flatMap duties).Perm (due b') := by
  obtain ⟨-, task, -, rfl⟩ := step_publish h
  have hnew : ((if task.handlers = [] then b.underway else b.underway ++ [task]).flatMap
      duties) = b.underway.flatMap duties ++ duties task := by
    split_ifs with hnone
    · rw [duties, hnone, List.map_nil, List.append_nil]
    · simp
  have hdue : due b ++ duties task = (b.published ++ [task]).flatMap duties := by
    simp [due]
  show (b.handled ++ ((if task.handlers = [] then b.underway else b.underway ++ [task]) ++
    b.pool.held).flatMap duties).Perm ((b.published ++ [task]).flatMap duties)
  rw [← hdue, List.flatMap_append, hnew]
  have haccount := hb.account
  rw [inFlight, List.flatMap_append] at haccount
  calc b.handled ++ (b.underway.flatMap duties ++ duties task ++ b.pool.held.flatMap duties)
      ~ b.handled ++ (b.underway.flatMap duties ++ b.pool.held.flatMap duties ++ duties task) := by
        refine List.Perm.append_left _ ?_
        rw [List.append_assoc, List.append_assoc]
        exact List.perm_append_comm.append_left _
    _ = b.handled ++ (b.underway.flatMap duties ++ b.pool.held.flatMap duties) ++ duties task :=
        (List.append_assoc ..).symm
    _ ~ due b ++ duties task := haccount.append_right _

theorem account_enqueue {s : Thread} (hb : Accounted b)
    (h : step b (.enqueue s) = some b') : (inFlight b').Perm (inFlight b) := by
  obtain ⟨task, hmem, -, rfl⟩ := step_enqueue h
  calc b.underway.erase task ++ (b.pool.enqueue task).held
      ~ b.underway.erase task ++ task :: b.pool.held :=
        (ThreadPool.held_enqueue hb.running task).append_left _
    _ ~ task :: b.underway.erase task ++ b.pool.held := List.perm_middle
    _ ~ b.underway ++ b.pool.held := (List.perm_cons_erase hmem).symm.append_right _

theorem account_call {w : Nat} {throws : Bool} (hlast : Completes b (.call w throws))
    (h : step b (.call w throws) = some b') :
    (b'.handled ++ (inFlight b').flatMap duties).Perm
      (b.handled ++ (inFlight b).flatMap duties) := by
  obtain ⟨event, handler, rest, htask, rfl⟩ := step_call h
  obtain ⟨others, hold, hnew⟩ := ThreadPool.held_set htask (if throws then none else
    some ⟨event, rest⟩)
  -- the calls left to the task after this one
  have hleft : (if throws then none else some ⟨event, rest⟩ :
      Option (Task Topic Thread)).toList.flatMap duties = duties ⟨event, rest⟩ := by
    cases throws with
    | true =>
      have hrest : rest = [] := hlast ⟨event, handler :: rest⟩ htask
      rw [hrest]
      rfl
    | false => simp
  have hnew' := hnew.flatMap_right duties
  rw [List.flatMap_append, hleft] at hnew'
  have hold' := hold.flatMap_right duties
  rw [List.flatMap_cons] at hold'
  show ((b.handled ++ [(handler, event)]) ++ (b.underway ++
    (b.pool.set w _).held).flatMap duties).Perm _
  rw [inFlight, List.flatMap_append, List.flatMap_append, List.append_assoc]
  refine List.Perm.append_left _ ?_
  rw [List.singleton_append]
  calc (handler, event) :: (b.underway.flatMap duties ++ (b.pool.set w _).held.flatMap duties)
      ~ (handler, event) :: (b.underway.flatMap duties ++
          (duties ⟨event, rest⟩ ++ others.flatMap duties)) := (hnew'.append_left _).cons _
    _ ~ b.underway.flatMap duties ++
          (handler, event) :: (duties ⟨event, rest⟩ ++ others.flatMap duties) :=
        List.perm_middle.symm
    _ ~ b.underway.flatMap duties ++ b.pool.held.flatMap duties := hold'.symm.append_left _

theorem account_finish {w : Nat} (h : step b (.finish w) = some b') :
    ((inFlight b').flatMap duties).Perm ((inFlight b).flatMap duties) := by
  obtain ⟨event, htask, rfl⟩ := step_finish h
  obtain ⟨others, hold, hnew⟩ := ThreadPool.held_set htask none
  show ((b.underway ++ (b.pool.set w none).held).flatMap duties).Perm
    ((b.underway ++ b.pool.held).flatMap duties)
  rw [List.flatMap_append, List.flatMap_append]
  refine List.Perm.append_left _ ?_
  exact (hnew.flatMap_right duties).trans (hold.flatMap_right duties).symm

theorem numbers_step {l : Label Topic Thread} (hb : Accounted b) (h : step b l = some b') :
    b'.published.map (fun t => t.event.number) = List.range b'.published.length := by
  rcases step_published h with heq | ⟨source, topic, heq⟩
  · rw [heq]
    exact hb.numbers
  · rw [heq, List.map_append, hb.numbers, List.length_append, List.length_singleton,
      List.range_succ]
    rfl

/-- **The account in one step.** -/
theorem step_accounted {l : Label Topic Thread} (hb : Accounted b) (hlast : Completes b l)
    (hstop : l ≠ .stop) (h : step b l = some b') : Accounted b' := by
  have hregistered := step_registered hb.registered h
  have hnumbers := numbers_step hb h
  have haccount := hb.account
  have hrunning := hb.running
  cases l with
  | subscribe topic =>
    cases h
    exact ⟨hregistered, hnumbers, hrunning, haccount⟩
  | publish source topic =>
    have hpublish := account_publish hb h
    obtain ⟨-, task, -, rfl⟩ := step_publish h
    exact ⟨hregistered, hnumbers, hrunning, hpublish⟩
  | enqueue source =>
    have hperm := account_enqueue hb h
    obtain ⟨task, -, -, rfl⟩ := step_enqueue h
    refine ⟨hregistered, hnumbers, ?_, ?_⟩
    · rw [ThreadPool.enqueue, if_pos hrunning]
      exact hrunning
    · exact ((hperm.flatMap_right duties).append_left _).trans haccount
  | take w =>
    obtain ⟨pool, hpool, rfl⟩ := step_take h
    have hperm := (ThreadPool.held_take hpool).append_left b.underway
    refine ⟨hregistered, hnumbers, ?_, ?_⟩
    · obtain ⟨task, rest, -, -, rfl⟩ := ThreadPool.take_eq_some.mp hpool
      exact hrunning
    · exact ((hperm.flatMap_right duties).append_left _).trans haccount
  | call w throws =>
    have hperm := account_call hlast h
    obtain ⟨event, handler, rest, -, rfl⟩ := step_call h
    exact ⟨hregistered, hnumbers, hrunning, hperm.trans haccount⟩
  | finish w =>
    have hperm := account_finish h
    obtain ⟨event, -, rfl⟩ := step_finish h
    exact ⟨hregistered, hnumbers, hrunning, (hperm.append_left _).trans haccount⟩
  | stop => exact absurd rfl hstop

/-! ## Nothing is left behind -/

/-- While a task is in flight some thread can go on. -/
theorem inFlight_eq_nil_of_idle (hworkers : 0 < b.pool.workers.length) (hidle : Idle b) :
    inFlight b = [] := by
  have hunderway : b.underway = [] := by
    cases hsplit : b.underway with
    | nil => rfl
    | cons task rest =>
      have hfind : underwayOf b task.event.source = some task := by
        rw [underwayOf, hsplit]
        exact List.find?_cons_of_pos (decide_eq_true rfl)
      have hnone := hidle (.enqueue task.event.source) trivial
      rw [step, enqueue, hfind] at hnone
      cases hnone
  have hworker : ∀ w, b.pool.task? w = none := by
    intro w
    cases htask : b.pool.task? w with
    | none => rfl
    | some task =>
      obtain ⟨event, handlers⟩ := task
      cases handlers with
      | nil =>
        have hnone := hidle (.finish w) trivial
        rw [step, finish, htask] at hnone
        cases hnone
      | cons handler rest =>
        have hnone := hidle (.call w false) trivial
        rw [step, call, htask] at hnone
        cases hnone
  have hbusy : b.pool.busy = [] := by
    refine List.filterMap_eq_nil_iff.mpr ?_
    intro worker hmem
    obtain ⟨w, hw⟩ := List.getElem?_of_mem hmem
    have hnone := hworker w
    rw [ThreadPool.task?, hw] at hnone
    exact hnone
  have htasks : b.pool.tasks = [] := by
    cases hqueue : b.pool.tasks with
    | nil => rfl
    | cons task rest =>
      have hfree : b.pool.workers[0]? = some none := by
        have hsome := List.getElem?_eq_getElem hworkers
        have hnone := hworker 0
        rw [ThreadPool.task?, hsome] at hnone
        rw [hsome]
        exact congrArg some hnone
      have hnone := hidle (.take 0) trivial
      rw [step, ThreadPool.take, hfree, hqueue] at hnone
      cases hnone
  rw [inFlight, ThreadPool.held, hunderway, hbusy, htasks]
  rfl

theorem Accounted.delivered (hb : Accounted b) (hworkers : 0 < b.pool.workers.length) :
    Delivered b := by
  have hnodup : (b.handled ++ (inFlight b).flatMap duties).Nodup :=
    hb.account.nodup_iff.mpr (due_nodup hb)
  constructor
  · exact hnodup.of_append_left
  · intro c hmem
    exact hb.account.mem_iff.mp (List.mem_append_left _ hmem)
  · intro hidle c hmem
    have haccount := hb.account
    rw [inFlight_eq_nil_of_idle hworkers hidle, List.flatMap_nil, List.append_nil] at haccount
    exact haccount.mem_iff.mpr hmem

/-! ## The threads get there -/

/-- The steps that are left to the threads. -/
def work (b : Bus Topic Thread) : Nat :=
  (b.underway.map fun t => t.handlers.length + 3).sum +
    (b.pool.tasks.map fun t => t.handlers.length + 2).sum +
    (b.pool.busy.map fun t => t.handlers.length + 1).sum

theorem step_work {l : Label Topic Thread} (hl : Internal l) (h : step b l = some b') :
    work b' < work b := by
  cases l with
  | subscribe _ | publish _ _ | stop => cases hl
  | enqueue source =>
    obtain ⟨task, hmem, -, rfl⟩ := step_enqueue h
    have herase := ((List.perm_cons_erase hmem).map fun t => t.handlers.length + 3).sum_nat
    rw [List.map_cons, List.sum_cons] at herase
    simp only [work, ThreadPool.enqueue]
    split_ifs
    · simp only [List.map_append, List.map_singleton, List.sum_append, List.sum_singleton,
        ThreadPool.busy]
      omega
    · omega
  | take w =>
    obtain ⟨pool, hpool, rfl⟩ := step_take h
    obtain ⟨task, rest, before, after, htasks, htasks', hbusy, hbusy'⟩ :=
      ThreadPool.busy_take hpool
    simp only [work, htasks, htasks', hbusy, hbusy', List.map_append, List.map_cons,
      List.map_nil, List.sum_append, List.sum_cons, List.sum_nil]
    omega
  | call w throws =>
    obtain ⟨event, handler, rest, htask, rfl⟩ := step_call h
    obtain ⟨before, after, hbusy, hbusy'⟩ :=
      ThreadPool.busy_split (ThreadPool.task?_eq_some.mp htask)
    simp only [work, hbusy, hbusy', List.map_append, List.sum_append]
    cases throws <;> simp [ThreadPool.set]
  | finish w =>
    obtain ⟨event, htask, rfl⟩ := step_finish h
    obtain ⟨before, after, hbusy, hbusy'⟩ :=
      ThreadPool.busy_split (ThreadPool.task?_eq_some.mp htask)
    simp only [work, hbusy, hbusy', List.map_append, List.sum_append]
    simp [ThreadPool.set]

/-- The threads are done after as many steps as there is work at most. -/
theorem run_work {ls : List (Label Topic Thread)} (hls : ∀ l ∈ ls, Internal l)
    (hrun : run step b ls = some b') : ls.length + work b' ≤ work b := by
  induction ls generalizing b with
  | nil =>
    cases hrun
    exact (Nat.zero_add _).le
  | cons l ls ih =>
    obtain ⟨next, hstep, hrest⟩ := run_cons_some.mp hrun
    have hless := step_work (hls l (List.mem_cons_self ..)) hstep
    have hmore := ih (fun l hl => hls l (List.mem_cons_of_mem _ hl)) hrest
    rw [List.length_cons]
    omega

/-! ## The run -/

theorem run_accounted {numThreads : Nat} {ls : List (Label Topic Thread)}
    (hlast : Meets step Completes (start numThreads) ls) (hstop : .stop ∉ ls)
    (hrun : run step (start numThreads) ls = some b) :
    Accounted b ∧ b.pool.workers.length = numThreads := by
  have hmain := run_history_of_meets (P := Completes)
    (I := fun ls b => .stop ∉ ls → Accounted b ∧ b.pool.workers.length = numThreads)
    ?_ (fun _ => ⟨accounted_start numThreads, List.length_replicate ..⟩) hlast hrun
  · exact hmain hstop
  · intro ls b l b' hI hl hstep hls
    rw [List.mem_append, not_or] at hls
    obtain ⟨hb, hcount⟩ := hI hls.1
    refine ⟨step_accounted hb hl ?_ hstep, (step_workers hstep).trans hcount⟩
    rintro rfl
    exact hls.2 (List.mem_singleton_self _)

/-- **Before the pool is stopped, and as long as only the last handler of a task throws,
every published event is handled exactly once by every subscriber registered for its type
at publish time**: once when it is handled, and handled when the threads are idle, which
they are after a bounded number of steps. -/
theorem delivered_exactly_once {numThreads : Nat} (hthreads : 0 < numThreads)
    {ls : List (Label Topic Thread)} {b : Bus Topic Thread}
    (hlast : Meets step Completes (start numThreads) ls) (hstop : .stop ∉ ls)
    (hrun : run step (start numThreads) ls = some b) :
    Delivered b ∧ ∀ ls' b', (∀ l ∈ ls', Internal l) → run step b ls' = some b' →
      ls'.length + work b' ≤ work b := by
  obtain ⟨hb, hworkers⟩ := run_accounted hlast hstop hrun
  refine ⟨hb.delivered ?_, fun ls' b' hls' hrun' => run_work hls' hrun'⟩
  rw [hworkers]
  exact hthreads

/-- Two subscribers, the second of which throws. -/
def lastThrows : List (Label Nat Nat) :=
  [.subscribe 0, .subscribe 0, .publish 1 0, .enqueue 1, .take 0, .call 0 false, .call 0 true]

theorem delivered_exactly_once_lastThrows :
    ∃ b, run step (start 1) lastThrows = some b ∧ (Delivered b ∧
      ∀ ls' b', (∀ l ∈ ls', Internal l) → run step b ls' = some b' →
        ls'.length + work b' ≤ work b) :=
  have hlast : Meets step Completes (start 1) lastThrows := by decide
  ⟨_, rfl, delivered_exactly_once (by decide) hlast (by decide) rfl⟩

/-- The first of two subscribers throws, and the second one never sees the event. -/
def firstThrows : List (Label Nat Nat) :=
  [.subscribe 0, .subscribe 0, .publish 1 0, .enqueue 1, .take 0, .call 0 true]

theorem not_delivered_firstThrows :
    ∃ b, run step (start 1) firstThrows = some b ∧ ¬Delivered b := by
  refine ⟨_, rfl, ?_⟩
  intro h
  have hmissed := h.all ?_ (1, ⟨0, 0, 1⟩) (by decide)
  · revert hmissed
    decide
  · intro l hl
    cases l with
    | enqueue s => rfl
    | take w | call w throws | finish w =>
      -- there is one worker
      cases w <;> rfl
    | subscribe _ | publish _ _ | stop => cases hl

end MuonDetector.Core.EventDelivery
