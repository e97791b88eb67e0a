import MuonDetector.Core.WorkerLoop
import Mathlib.Algebra.BigOperators.Group.Finset.Basic
import Mathlib.Algebra.GroupWithZero.Nat
import Mathlib.Algebra.Order.BigOperators.Group.Finset

/-!
# Each task once

What a state says of the tasks is an account of the accepted ones: called, discarded, or
still to be called. The threads bring the last of these to nothing by themselves: each of
their steps takes something from a measure of the work that is left, and where none of
them can take a step there is no task to be called.
-/

namespace MuonDetector.Core.WorkerLoop

open MuonDetector.Library MuonDetector.Library.Machine

/-! ## The property -/

/-- The steps that the threads take by themselves, once `enqueue` or `stop` has released the
mutex, with tasks that return or throw a `std::exception`. -/
def Internal : Label → Prop
  | .notifyOne _ | .look _ | .call _ | .finish _ .returns | .finish _ .throws | .notifyAll _
  | .join _ => True
  | .enqueue | .wake _ | .finish _ .escapes | .stop => False

def Returned (s : State) (stopCall : StopCall) : Prop := stopCall = .joining s.places.length

/-- No thread can take a step by itself. -/
def Settled (s : State) : Prop := ∀ label, Internal label → step s label = none

/-- The threads come to rest after so many steps at most, with nothing left to be called. -/
structure Settles (s : State) (bound : Nat) : Prop where
  bounded : ∀ labels t, (∀ label ∈ labels, Internal label) → run step s labels = some t →
    labels.length ≤ bound
  settled : ∀ labels t, (∀ label ∈ labels, Internal label) → run step s labels = some t →
    Settled t → t.pending = [] ∧ t.discarded = s.discarded ∧
      ∀ stopCall ∈ t.stops, Returned t stopCall

/-- Each accepted task is called once or discarded, by one worker or by `stop`. -/
structure TaskLaw (s : State) : Prop where
  /-- Called, discarded or still to be called: one of these, once. -/
  once : Accounted s
  /-- When `stop` has returned nothing is to be called, and nothing is called any more. -/
  stopped : ∀ stopCall ∈ s.stops, Returned s stopCall →
    s.pending = [] ∧ ∀ labels t, run step s labels = some t → t.started = s.started
  /-- Tasks that return or throw leave the workers to the next tasks, until none is left. -/
  progress : 0 < s.places.length → s.terminated = false → ∃ bound, Settles s bound

/-! ## After the return of `stop` -/

theorem Sound.idle_of_returned {numThreads : Nat} {s : State} (h : Sound numThreads s)
    {stopCall : StopCall} (hmem : stopCall ∈ s.stops) (hreturned : Returned s stopCall)
    (worker : Nat) : s.pool.task? worker = none := by
  obtain rfl : stopCall = .joining s.places.length := hreturned
  cases htask : s.pool.task? worker with
  | none => rfl
  | some job =>
    have hawake := h.idle worker job htask
    have hlt := (List.getElem?_eq_some_iff.mp hawake).1
    rw [h.joined _ hmem worker hlt] at hawake
    cases hawake

theorem busy_eq_nil {p : ThreadPool Job} (h : ∀ worker, p.task? worker = none) : p.busy = [] := by
  refine List.filterMap_eq_nil_iff.mpr ?_
  intro task hmem
  obtain ⟨worker, hworker⟩ := List.getElem?_of_mem hmem
  cases task with
  | none => rfl
  | some job =>
    have hjob := h worker
    rw [ThreadPool.task?_eq_some.mpr hworker] at hjob
    cases hjob

theorem pending_eq_nil {s : State} (htasks : s.pool.tasks = [])
    (hidle : ∀ worker, s.pool.task? worker = none) : s.pending = [] := by
  rw [State.pending, ThreadPool.held, htasks, busy_eq_nil hidle]
  rfl

/-- A call of `stop` stays where it is when it has returned. -/
theorem Move.returned {s s' : State} {label : Label} (h : Move s label s') {stopCall : StopCall}
    (hmem : stopCall ∈ s.stops) (hreturned : Returned s stopCall) :
    stopCall ∈ s'.stops ∧ Returned s' stopCall := by
  obtain rfl : stopCall = .joining s.places.length := hreturned
  have hset : ∀ {call : Nat} {old new : StopCall}, s.stops[call]? = some old →
      old ≠ .joining s.places.length →
        .joining s.places.length ∈ s.stops.set call new := by
    intro call old new hold hne
    obtain ⟨i, hi⟩ := List.getElem?_of_mem hmem
    have hcall : call ≠ i := by
      rintro rfl
      exact hne (Option.some.inj (hold.symm.trans hi))
    exact List.mem_of_getElem? ((List.getElem?_set_ne hcall).trans hi)
  refine ⟨?_, congrArg StopCall.joining h.places_length.symm⟩
  cases h with
  | stops => exact List.mem_append_left _ hmem
  | notifiesAll stopCall => exact hset stopCall (by simp)
  | @joins call joined stopCall place =>
    have hlt := (List.getElem?_eq_some_iff.mp place).1
    refine hset stopCall ?_
    intro heq
    have := StopCall.joining.inj heq
    omega
  | accepts | refuses | notifies | unheard | wakes | takes | sleeps | leaves | calls | finishes
  | terminates => exact hmem

theorem Sound.started_of_returned {numThreads : Nat} {s s' : State} {label : Label}
    (h : Sound numThreads s) (hmove : Move s label s') {stopCall : StopCall}
    (hmem : stopCall ∈ s.stops) (hreturned : Returned s stopCall) : s'.started = s.started := by
  cases hmove with
  | calls task begun =>
    rw [h.idle_of_returned hmem hreturned] at task
    cases task
  | accepts | refuses | notifies | unheard | wakes | takes | sleeps | leaves | finishes
  | terminates | stops | notifiesAll | joins => rfl

/-- The run lemma of the step lemma above. -/
theorem Sound.run_started_of_returned {numThreads : Nat} {s t : State} {labels : List Label}
    (h : Sound numThreads s) {stopCall : StopCall} (hmem : stopCall ∈ s.stops)
    (hreturned : Returned s stopCall) (hrun : run step s labels = some t) :
    t.started = s.started := by
  induction labels generalizing s with
  | nil =>
    cases hrun
    rfl
  | cons label labels ih =>
    obtain ⟨u, hstep, hrun⟩ := run_cons_some.mp hrun
    have hmove := step_move hstep
    obtain ⟨hmem', hreturned'⟩ := hmove.returned hmem hreturned
    rw [ih (h.move hmove) hmem' hreturned' hrun]
    exact h.started_of_returned hmove hmem hreturned

/-! ## The work that is left -/

/-- A call and a return, and at last the way into the wait or out of the loop. -/
def stepsOf : Option (Option Job) → Option Place → Nat
  | some (some job), _ => if job.begun then 2 else 3
  | some none, some .awake => 1
  | _, _ => 0

theorem stepsOf_le_succ (task : Option (Option Job)) (place place' : Option Place) :
    stepsOf task place' ≤ stepsOf task place + 1 := by
  match task with
  | none => exact Nat.zero_le _
  | some (some job) => exact Nat.le_succ _
  | some none =>
    have hone : stepsOf (some none) place' ≤ 1 := by
      unfold stepsOf
      split <;> simp_all
    omega

def workerWeight (s : State) (worker : Nat) : Nat :=
  stepsOf s.pool.workers[worker]? s.places[worker]?

/-- `notify_all` wakes any number of workers. -/
def stopWeight (numThreads : Nat) : StopCall → Nat
  | .notifying => 2 * numThreads + 1
  | .joining joined => numThreads - joined

def stopsWeight (s : State) : Nat := (s.stops.map (stopWeight s.places.length)).sum

def workersWeight (s : State) : Nat := ∑ w ∈ Finset.range s.places.length, workerWeight s w

def weight (s : State) : Nat :=
  3 * s.pool.tasks.length + 2 * s.notifies + workersWeight s + stopsWeight s

theorem sum_set_add (ns : List Nat) (i n : Nat) {old : Nat} (h : ns[i]? = some old) :
    (ns.set i n).sum + old = ns.sum + n := by
  induction ns generalizing i with
  | nil => cases h
  | cons m ns ih =>
    cases i with
    | zero =>
      obtain rfl := Option.some.inj h
      simp only [List.set_cons_zero, List.sum_cons]
      omega
    | succ i =>
      have hrest := ih i h
      simp only [List.set_cons_succ, List.sum_cons]
      omega

theorem sum_range_change {f g : Nat → Nat} {n i : Nat} (hi : i < n)
    (h : ∀ j, j ≠ i → g j = f j) :
    ∑ j ∈ Finset.range n, g j + f i = ∑ j ∈ Finset.range n, f j + g i := by
  have hmem := Finset.mem_range.mpr hi
  rw [← Finset.add_sum_erase _ g hmem, ← Finset.add_sum_erase _ f hmem]
  have hrest : ∑ j ∈ (Finset.range n).erase i, g j = ∑ j ∈ (Finset.range n).erase i, f j :=
    Finset.sum_congr rfl fun j hj => h j (Finset.ne_of_mem_erase hj)
  omega

/-- A step of one worker counts as what it does to the weight of this worker. -/
theorem workersWeight_change {s s' : State} {worker : Nat} (hworker : worker < s.places.length)
    (hlength : s'.places.length = s.places.length)
    (hothers : ∀ w, w ≠ worker → s'.pool.workers[w]? = s.pool.workers[w]? ∧
      s'.places[w]? = s.places[w]?) :
    workersWeight s' + workerWeight s worker = workersWeight s + workerWeight s' worker := by
  rw [workersWeight, workersWeight, hlength]
  refine sum_range_change hworker ?_
  intro w hw
  rw [workerWeight, workerWeight, (hothers w hw).1, (hothers w hw).2]

theorem stopsWeight_set {s : State} {call : Nat} {old new : StopCall}
    (hcall : s.stops[call]? = some old) (places : List Place)
    (hlength : places.length = s.places.length) :
    stopsWeight { s with places := places, stops := s.stops.set call new } +
      stopWeight s.places.length old = stopsWeight s + stopWeight s.places.length new := by
  rw [stopsWeight, stopsWeight, hlength, List.map_set]
  apply sum_set_add
  rw [List.getElem?_map, hcall]
  rfl

theorem workersWeight_wakeAll (s : State) (stops : List StopCall) :
    workersWeight { s with places := s.places.map wakeOne, stops := stops } ≤
      workersWeight s + s.places.length := by
  have hone : ∀ w ∈ Finset.range s.places.length,
      workerWeight { s with places := s.places.map wakeOne, stops := stops } w ≤
        workerWeight s w + 1 := by
    intro w hw
    rw [workerWeight, List.getElem?_map]
    exact stepsOf_le_succ _ _ _
  calc workersWeight { s with places := s.places.map wakeOne, stops := stops }
      ≤ ∑ w ∈ Finset.range s.places.length, (workerWeight s w + 1) := by
        rw [workersWeight, List.length_map]
        exact Finset.sum_le_sum hone
    _ = workersWeight s + s.places.length := by
        simp [Finset.sum_add_distrib, workersWeight]

theorem moveTo_change {s : State} {worker : Nat} {old : Place} (place : Place) (notifies : Nat)
    (h : s.places[worker]? = some old) :
    workersWeight { s.moveTo worker place with notifies := notifies } + workerWeight s worker =
      workersWeight s + stepsOf s.pool.workers[worker]? (some place) := by
  have hlt := (List.getElem?_eq_some_iff.mp h).1
  have hnew : workerWeight { s.moveTo worker place with notifies := notifies } worker =
      stepsOf s.pool.workers[worker]? (some place) :=
    congrArg (stepsOf s.pool.workers[worker]?) (List.getElem?_set_self hlt)
  rw [← hnew]
  refine workersWeight_change hlt List.length_set ?_
  intro w hw
  exact ⟨rfl, List.getElem?_set_ne hw.symm⟩

theorem set_change {s s' : State} {worker : Nat} {old : Option Job} {task : Option Job}
    (hpool : s'.pool.workers = s.pool.workers.set worker task) (hplaces : s'.places = s.places)
    (hworker : worker < s.places.length) (hold : s.pool.workers[worker]? = some old) :
    workersWeight s' + workerWeight s worker =
      workersWeight s + stepsOf (some task) s.places[worker]? := by
  have hlt := (List.getElem?_eq_some_iff.mp hold).1
  have hnew : workerWeight s' worker = stepsOf (some task) s.places[worker]? := by
    rw [workerWeight, hpool, hplaces, List.getElem?_set_self hlt]
  rw [← hnew]
  refine workersWeight_change hworker (by rw [hplaces]) ?_
  intro w hw
  rw [hpool, hplaces, List.getElem?_set_ne hw.symm]
  exact ⟨rfl, rfl⟩

theorem stopsWeight_moveTo (s : State) (worker : Nat) (place : Place) (notifies : Nat) :
    stopsWeight { s.moveTo worker place with notifies := notifies } = stopsWeight s := by
  rw [stopsWeight, stopsWeight, State.moveTo, List.length_set]

theorem weight_lt_of_worker {s s' : State} {old new : Nat} (hstops : stopsWeight s' = stopsWeight s)
    (hworkers : workersWeight s' + old = workersWeight s + new)
    (hless : 3 * s'.pool.tasks.length + 2 * s'.notifies + new <
      3 * s.pool.tasks.length + 2 * s.notifies + old) : weight s' < weight s := by
  unfold weight
  omega

theorem workerWeight_idle {s : State} {worker : Nat} (hidle : s.pool.workers[worker]? = some none)
    (hplace : s.places[worker]? = some .awake) : workerWeight s worker = 1 := by
  rw [workerWeight, hidle, hplace, stepsOf]

theorem workerWeight_job {s : State} {worker : Nat} {job : Job}
    (hjob : s.pool.workers[worker]? = some (some job)) :
    workerWeight s worker = if job.begun then 2 else 3 := by
  rw [workerWeight, hjob, stepsOf]

/-- An idle worker that is no longer awake takes nothing more. -/
theorem weight_moveTo_lt {s : State} {worker : Nat} {place : Place}
    (hidle : s.pool.workers[worker]? = some none) (hawake : s.places[worker]? = some .awake)
    (hplace : place ≠ .awake) : weight (s.moveTo worker place) < weight s := by
  have hnew : stepsOf (some none) (some place) = 0 := by
    cases place with
    | awake => exact absurd rfl hplace
    | asleep | left => rfl
  refine weight_lt_of_worker (stopsWeight_moveTo ..) (moveTo_change place s.notifies hawake) ?_
  rw [workerWeight_idle hidle hawake, hidle, hnew]
  exact Nat.lt_succ_self _

/-- Every internal step takes from the work that is left. -/
theorem Sound.weight_lt {numThreads : Nat} {s s' : State} {label : Label}
    (h : Sound numThreads s) (hmove : Move s label s') (hinternal : Internal label) :
    weight s' < weight s := by
  cases hmove with
  | @notifies worker due place =>
    have hsucc : stepsOf s.pool.workers[worker]? (some .awake) ≤ workerWeight s worker + 1 :=
      stepsOf_le_succ _ _ _
    refine weight_lt_of_worker (stopsWeight_moveTo ..) (moveTo_change .awake _ place) ?_
    show 3 * s.pool.tasks.length + 2 * (s.notifies - 1) + _ < _
    omega
  | unheard due nobody =>
    show 3 * s.pool.tasks.length + 2 * (s.notifies - 1) + workersWeight s + stopsWeight s < weight s
    rw [weight]
    omega
  | @takes worker pool place idle takes =>
    obtain ⟨task, rest, -, htasks, rfl⟩ := ThreadPool.take_eq_some.mp takes
    have hlt := (List.getElem?_eq_some_iff.mp place).1
    have hnew : stepsOf (some (some task)) s.places[worker]? = 3 := by
      rw [stepsOf, h.fresh task (htasks ▸ List.mem_cons_self ..)]
      rfl
    refine weight_lt_of_worker rfl (set_change rfl rfl hlt idle) ?_
    show 3 * rest.length + 2 * s.notifies + _ < _
    rw [workerWeight_idle idle place, hnew, htasks, List.length_cons]
    omega
  | @sleeps worker place idle => exact weight_moveTo_lt idle place (by decide)
  | @leaves worker place idle => exact weight_moveTo_lt idle place (by decide)
  | @calls worker job task begun =>
    have hlt := (List.getElem?_eq_some_iff.mp (h.idle worker job task)).1
    have hworker := ThreadPool.task?_eq_some.mp task
    refine weight_lt_of_worker rfl (set_change rfl rfl hlt hworker) ?_
    rw [workerWeight_job hworker, begun]
    exact Nat.lt_succ_self _
  | @finishes worker outcome job logged task begun =>
    have hawake := h.idle worker job task
    have hlt := (List.getElem?_eq_some_iff.mp hawake).1
    have hworker := ThreadPool.task?_eq_some.mp task
    refine weight_lt_of_worker rfl (set_change rfl rfl hlt hworker) ?_
    rw [workerWeight_job hworker, if_pos begun, hawake]
    exact Nat.lt_succ_self _
  | @notifiesAll call stopCall =>
    have hwake := workersWeight_wakeAll s (s.stops.set call (.joining 0))
    have hstops := @stopsWeight_set _ _ _ (.joining 0) stopCall (s.places.map wakeOne)
      (List.length_map _)
    simp only [stopWeight] at hstops
    show 3 * s.pool.tasks.length + 2 * s.notifies + workersWeight _ + stopsWeight _ < weight s
    rw [weight]
    omega
  | @joins call joined stopCall place =>
    have hlt := (List.getElem?_eq_some_iff.mp place).1
    have hstops := @stopsWeight_set _ _ _ (.joining (joined + 1)) stopCall s.places rfl
    simp only [stopWeight] at hstops
    show 3 * s.pool.tasks.length + 2 * s.notifies + workersWeight s + stopsWeight _ < weight s
    rw [weight]
    omega
  | accepts | refuses | wakes | terminates | stops => exact absurd hinternal (by simp [Internal])

/-! ## Where the threads come to rest -/

theorem weight_run {numThreads : Nat} {s t : State} {labels : List Label}
    (h : Sound numThreads s) (hinternal : ∀ label ∈ labels, Internal label)
    (hrun : run step s labels = some t) : labels.length + weight t ≤ weight s := by
  induction labels generalizing s with
  | nil =>
    cases hrun
    simp
  | cons label labels ih =>
    obtain ⟨u, hstep, hrun⟩ := run_cons_some.mp hrun
    have hmove := step_move hstep
    have hlt := h.weight_lt hmove (hinternal label (List.mem_cons_self ..))
    have hrest := ih (h.move hmove) (fun l hl => hinternal l (List.mem_cons_of_mem _ hl)) hrun
    rw [List.length_cons]
    omega

theorem Settled.idle {s : State} (h : Settled s) (hrunning : s.terminated = false)
    (worker : Nat) : s.pool.task? worker = none := by
  cases htask : s.pool.task? worker with
  | none => rfl
  | some job =>
    have hcall := h (.call worker) trivial
    have hfinish := h (.finish worker .returns) trivial
    simp only [step, hrunning, Bool.false_eq_true, if_false, State.call, State.finish,
      htask] at hcall hfinish
    cases hbegun : job.begun <;> simp [hbegun] at hcall hfinish

theorem Settled.nobody_awake {numThreads : Nat} {s : State} (h : Settled s)
    (hsound : Sound numThreads s) (hrunning : s.terminated = false) :
    Place.awake ∉ s.places := by
  intro hawake
  obtain ⟨worker, hworker⟩ := List.getElem?_of_mem hawake
  have hlt : worker < s.pool.workers.length := by
    have := (List.getElem?_eq_some_iff.mp hworker).1
    have := hsound.places_length
    have := hsound.workers_length
    omega
  have hidle : s.pool.workers[worker]? = some none := by
    cases htask : s.pool.workers[worker] with
    | none => rw [List.getElem?_eq_getElem hlt, htask]
    | some job =>
      have hnone := h.idle hrunning worker
      rw [ThreadPool.task?, List.getElem?_eq_getElem hlt, htask] at hnone
      cases hnone
  have hlook := h (.look worker) trivial
  rw [step, if_neg (ne_true_of_eq_false hrunning)] at hlook
  simp only [State.look, hworker, hidle, and_self, if_true] at hlook
  split at hlook <;> cases hlook

theorem Settled.notifies {s : State} (h : Settled s) (hrunning : s.terminated = false) :
    s.notifies = 0 := by
  by_contra hne
  have hpos : 0 < s.notifies := Nat.pos_of_ne_zero hne
  by_cases hasleep : Place.asleep ∈ s.places
  · obtain ⟨worker, hworker⟩ := List.getElem?_of_mem hasleep
    have hnotify := h (.notifyOne (some worker)) trivial
    rw [step, if_neg (ne_true_of_eq_false hrunning)] at hnotify
    simp [State.notifyOne, hpos, hworker] at hnotify
  · have hnotify := h (.notifyOne none) trivial
    rw [step, if_neg (ne_true_of_eq_false hrunning)] at hnotify
    simp [State.notifyOne, hpos, hasleep] at hnotify

theorem Settled.returned {numThreads : Nat} {s : State} (h : Settled s)
    (hsound : Sound numThreads s) (hrunning : s.terminated = false) {stopCall : StopCall}
    (hmem : stopCall ∈ s.stops) : Returned s stopCall := by
  obtain ⟨call, hcall⟩ := List.getElem?_of_mem hmem
  cases stopCall with
  | notifying =>
    have hnotify := h (.notifyAll call) trivial
    rw [step, if_neg (ne_true_of_eq_false hrunning)] at hnotify
    simp [State.notifyAll, hcall] at hnotify
  | joining joined =>
    have hjoin := h (.join call) trivial
    rw [step, if_neg (ne_true_of_eq_false hrunning)] at hjoin
    by_contra hreturned
    have hlt : joined < s.places.length := by
      have hle : joined ≤ s.places.length := by
        by_contra hgt
        have hleft := hsound.joined joined hmem s.places.length (by omega)
        have := (List.getElem?_eq_some_iff.mp hleft).1
        omega
      have hne : joined ≠ s.places.length := fun heq => hreturned (congrArg StopCall.joining heq)
      omega
    have hplace := List.getElem_mem hlt
    -- nobody is in the wait behind `notify_all`, and nobody is awake where the threads rest
    have hleft : s.places[joined]? = some .left := by
      rw [List.getElem?_eq_getElem hlt]
      cases heq : s.places[joined] with
      | left => rfl
      | asleep => exact absurd (heq ▸ hplace) (hsound.woken joined hmem)
      | awake => exact absurd (heq ▸ hplace) (h.nobody_awake hsound hrunning)
    simp [State.join, hcall, hleft] at hjoin

theorem Settled.pending {numThreads : Nat} {s : State} (h : Settled s)
    (hsound : Sound numThreads s) (hrunning : s.terminated = false) (hpos : 0 < numThreads) :
    s.pending = [] := by
  apply pending_eq_nil _ (h.idle hrunning)
  by_contra htasks
  rcases hsound.served htasks hpos with hnotifies | hawake
  · have := h.notifies hrunning
    omega
  · exact h.nobody_awake hsound hrunning hawake

/-- What internal steps leave as it is. -/
theorem Move.internal {s s' : State} {label : Label} (h : Move s label s')
    (hinternal : Internal label) (hrunning : s.terminated = false) :
    s'.terminated = false ∧ s'.discarded = s.discarded := by
  cases h with
  | terminates | stops => exact absurd hinternal (by simp [Internal])
  | accepts | refuses | notifies | unheard | wakes | takes | sleeps | leaves | calls | finishes
  | notifiesAll | joins => exact ⟨hrunning, rfl⟩

theorem Sound.internal_run {numThreads : Nat} {s t : State} {labels : List Label}
    (h : Sound numThreads s) (hrunning : s.terminated = false)
    (hinternal : ∀ label ∈ labels, Internal label) (hrun : run step s labels = some t) :
    Sound numThreads t ∧ t.terminated = false ∧ t.discarded = s.discarded := by
  induction labels generalizing s with
  | nil =>
    cases hrun
    exact ⟨h, hrunning, rfl⟩
  | cons label labels ih =>
    obtain ⟨u, hstep, hrun⟩ := run_cons_some.mp hrun
    have hmove := step_move hstep
    obtain ⟨hu, hdiscarded⟩ := hmove.internal (hinternal label (List.mem_cons_self ..)) hrunning
    rw [← hdiscarded]
    exact ih (h.move hmove) hu (fun l hl => hinternal l (List.mem_cons_of_mem _ hl)) hrun

theorem Sound.settles {numThreads : Nat} {s : State} (h : Sound numThreads s)
    (hrunning : s.terminated = false) (hpos : 0 < numThreads) : Settles s (weight s) where
  bounded := by
    intro labels t hinternal hrun
    have := weight_run h hinternal hrun
    omega
  settled := by
    intro labels t hinternal hrun hsettled
    obtain ⟨ht, hrunning', hdiscarded⟩ := h.internal_run hrunning hinternal hrun
    exact ⟨hsettled.pending ht hrunning' hpos, hdiscarded,
      fun stopCall hmem => hsettled.returned ht hrunning' hmem⟩

theorem TaskLaw.of_sound {numThreads : Nat} {s : State} (h : Sound numThreads s)
    (haccount : Accounted s) : TaskLaw s where
  once := haccount
  stopped := by
    intro stopCall hmem hreturned
    have hrunning := h.stopping (List.ne_nil_of_mem hmem)
    exact ⟨pending_eq_nil (h.empty hrunning) (h.idle_of_returned hmem hreturned),
      fun labels t hrun => h.run_started_of_returned hmem hreturned hrun⟩
  progress := fun hpos hrunning =>
    ⟨weight s, h.settles hrunning (h.places_length ▸ hpos)⟩

theorem sound_run {numThreads : Nat} {labels : List Label} {s : State}
    (h : run step (start numThreads) labels = some s) : Sound numThreads s ∧ Accounted s := by
  refine @run_history _ _ step (fun _ s => Sound numThreads s ∧ Accounted s) ?_ _ _
    ⟨sound_start numThreads, ?_⟩ labels h
  · rintro _ s label s' ⟨hsound, haccount⟩ hstep
    have hmove := step_move hstep
    exact ⟨hsound.move hmove, haccount.move hsound.fresh hmove⟩
  · have hpending : (start numThreads).pending = [] := by
      refine pending_eq_nil rfl ?_
      intro worker
      cases htask : (start numThreads).pool.task? worker with
      | none => rfl
      | some job =>
        have := (sound_start numThreads).idle worker job htask
        rw [ThreadPool.task?_eq_some] at htask
        cases List.eq_of_mem_replicate (List.mem_of_getElem? htask)
    rw [Accounted, hpending]
    exact List.Perm.refl _

/-! ## The result -/

/-- The tasks of a pool with any number of workers, in every state that a run leads to. -/
theorem each_task_once (numThreads : Nat) (labels : List Label) (s : State)
    (h : run step (start numThreads) labels = some s) : TaskLaw s := by
  obtain ⟨hsound, haccount⟩ := sound_run h
  exact .of_sound hsound haccount

/-- A worker in the wait was woken, a task threw, and `stop` discarded the third task. -/
theorem each_task_once_stopped :
    TaskLaw {
      pool := { workers := [none, none], running := false }
      places := [.left, .left]
      stops := [.joining 2]
      accepted := 3
      started := [(1, 0), (0, 1)]
      discarded := [2]
      logged := [0] } :=
  each_task_once 2 [.look 0, .enqueue, .notifyOne (some 0), .enqueue, .notifyOne none, .look 1,
    .enqueue, .look 0, .call 1, .finish 1 .throws, .notifyOne none, .stop, .notifyAll 0, .call 0,
    .look 1, .finish 0 .returns, .look 0, .join 0, .join 0] _ (by decide)

end MuonDetector.Core.WorkerLoop
