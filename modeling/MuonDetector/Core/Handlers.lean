import MuonDetector.Core.ThreadPool
import MuonDetector.Library.Machine

/-!
# Handlers on the workers

A handler is a program: it publishes tasks, makes operations on what the handlers share, and
goes on with what these give. The pool runs the handlers of several tasks at once, one
operation at a time; other threads publish tasks in between. Two rules carry properties of
the handlers to all runs: one for any interleaving, by what may be published when, and one for
handlers that do not overlap, by what holds when no handler is running.
-/

namespace MuonDetector.Core.Handlers

open MuonDetector.Library

/-! ## Programs -/

inductive Program (Task Op : Type) (Res : Op → Type) where
  | done
  | throws
  | publish (task : Task) (next : Program Task Op Res)
  | call (op : Op) (next : Res op → Program Task Op Res)

variable {σ Task Op Choice : Type} {Res : Op → Type}

/-- The handlers of the tasks, and what an operation does and gives. The choice is that of
the hardware. -/
structure Bindings (σ Task Op Choice : Type) (Res : Op → Type) where
  handler : Task → Program Task Op Res
  exec : Choice → σ → (op : Op) → σ × Res op

structure Job (Task Op : Type) (Res : Op → Type) where
  task : Task
  program : Program Task Op Res

structure World (σ Task Op : Type) (Res : Op → Type) where
  shared : σ
  pool : ThreadPool (Job Task Op Res)

/-- What can happen next: another thread publishes a task, a worker takes one, and a worker
makes the next operation of its handler. -/
inductive Label (Task Choice : Type) where
  | publish (task : Task)
  | take (w : Nat)
  | run (w : Nat) (c : Choice)

variable (b : Bindings σ Task Op Choice Res)

def start (numThreads : Nat) (shared : σ) : World σ Task Op Res :=
  ⟨shared, ThreadPool.start numThreads⟩

/-- The task of an event with its handlers. -/
def jobOf (task : Task) : Job Task Op Res := ⟨task, b.handler task⟩

def goOn (s : World σ Task Op Res) (w : Nat) (c : Choice) (job : Job Task Op Res) :
    World σ Task Op Res :=
  match job.program with
  | .done => { s with pool := s.pool.set w none }
  | .throws => { s with pool := s.pool.set w none }
  | .publish task next =>
    { s with pool := (s.pool.set w (some ⟨job.task, next⟩)).enqueue (jobOf b task) }
  | .call op next =>
    let r := b.exec c s.shared op
    ⟨r.1, s.pool.set w (some ⟨job.task, next r.2⟩)⟩

def step (s : World σ Task Op Res) : Label Task Choice → Option (World σ Task Op Res)
  | .publish task => some { s with pool := s.pool.enqueue (jobOf b task) }
  | .take w => (s.pool.take w).map fun pool => { s with pool := pool }
  | .run w c => (s.pool.task? w).map (goOn b s w c)

abbrev run (s : World σ Task Op Res) (ls : List (Label Task Choice)) :
    Option (World σ Task Op Res) := Machine.run (step b) s ls

variable {b} {s s' : World σ Task Op Res}

/-! ## Any interleaving -/

/-- What holds of what is shared, how it may change, which tasks may be published, when an
operation may be made and what is known after it, whatever others do. -/
structure Guards (σ Task Op : Type) (Res : Op → Type) where
  Holds : σ → Prop
  Later : σ → σ → Prop
  Allowed : σ → Task → Prop
  Pre : σ → Op → Prop
  Post : (op : Op) → Res op → σ → Prop

variable {g : Guards σ Task Op Res}

/-- From here on the program does only what it may. -/
def Program.Safe (g : Guards σ Task Op Res) : Program Task Op Res → σ → Prop
  | .done, _ => True
  | .throws, _ => True
  | .publish task next, s => g.Allowed s task ∧ Safe g next s
  | .call op next, s => g.Pre s op ∧
    ∀ s' r, g.Later s s' → g.Post op r s' → Safe g (next r) s'

/-- The guards are kept by the operations, by the handlers and by what others do. -/
structure Guards.Sound (g : Guards σ Task Op Res) (b : Bindings σ Task Op Choice Res) :
    Prop where
  refl : ∀ s, g.Later s s
  trans : ∀ {s s' s''}, g.Later s s' → g.Later s' s'' → g.Later s s''
  allowed : ∀ {s s' task}, g.Later s s' → g.Allowed s task → g.Allowed s' task
  pre : ∀ {s s' op}, g.Later s s' → g.Pre s op → g.Pre s' op
  exec : ∀ c {s op}, g.Holds s → g.Pre s op → g.Later s (b.exec c s op).1 ∧
    g.Holds (b.exec c s op).1 ∧ g.Post op (b.exec c s op).2 (b.exec c s op).1
  handler : ∀ {s task}, g.Allowed s task → (b.handler task).Safe g s

theorem Program.Safe.later (hg : g.Sound b) {p : Program Task Op Res} {s s' : σ}
    (h : p.Safe g s) (hl : g.Later s s') : p.Safe g s' := by
  induction p generalizing s s' with
  | done => trivial
  | throws => trivial
  | publish task next ih => exact ⟨hg.allowed hl h.1, ih h.2 hl⟩
  | call op next ih =>
    exact ⟨hg.pre hl h.1, fun s'' r hl' hpost => h.2 s'' r (hg.trans hl hl') hpost⟩

/-- Every job in the pool is safe. -/
structure AllSafe (g : Guards σ Task Op Res) (s : World σ Task Op Res) : Prop where
  shared : g.Holds s.shared
  jobs : ∀ job ∈ s.pool.held, job.program.Safe g s.shared

/-- The tasks of other threads are allowed. -/
def PublishesAllowed (g : Guards σ Task Op Res) (s : World σ Task Op Res) :
    Label Task Choice → Prop
  | .publish task => g.Allowed s.shared task
  | _ => True

theorem AllSafe.goOn (hg : g.Sound b) (hs : AllSafe g s) {w : Nat} {c : Choice}
    {job : Job Task Op Res} (hjob : s.pool.task? w = some job) :
    AllSafe g (Handlers.goOn b s w c job) := by
  have hsafe := hs.jobs job (ThreadPool.mem_held_of_task? hjob)
  have hothers : ∀ next : Option (Job Task Op Res), ∀ j ∈ (s.pool.set w next).held,
      next = some j ∨ j ∈ s.pool.held := by
    intro next j hj
    obtain ⟨others, hold, hnew⟩ := ThreadPool.held_set hjob next
    rcases List.mem_append.mp (hnew.mem_iff.mp hj) with hj | hj
    · exact .inl (Option.mem_toList.mp hj)
    · exact .inr (hold.mem_iff.mpr (List.mem_cons_of_mem _ hj))
  have hended : AllSafe g { s with pool := s.pool.set w none } := by
    refine ⟨hs.shared, fun j hj => ?_⟩
    rcases hothers none j hj with hj | hj
    · cases hj
    · exact hs.jobs j hj
  obtain ⟨task, program⟩ := job
  cases program with
  | done => exact hended
  | throws => exact hended
  | publish next rest =>
    refine ⟨hs.shared, fun j hj => ?_⟩
    rcases ThreadPool.mem_held_enqueue hj with rfl | hj
    · exact hg.handler hsafe.1
    · rcases hothers _ j hj with hj | hj
      · obtain rfl := Option.some.inj hj
        exact hsafe.2
      · exact hs.jobs j hj
  | call op next =>
    obtain ⟨hlater, hholds, hpost⟩ := hg.exec c hs.shared hsafe.1
    refine ⟨hholds, fun j hj => ?_⟩
    rcases hothers _ j hj with hj | hj
    · obtain rfl := Option.some.inj hj
      exact hsafe.2 _ _ hlater hpost
    · exact (hs.jobs j hj).later hg hlater

theorem AllSafe.step (hg : g.Sound b) (hs : AllSafe g s) {l : Label Task Choice}
    (hl : PublishesAllowed g s l) (h : Handlers.step b s l = some s') : AllSafe g s' := by
  cases l with
  | publish task =>
    obtain rfl := Option.some.inj h
    refine ⟨hs.shared, fun j hj => ?_⟩
    rcases ThreadPool.mem_held_enqueue hj with rfl | hj
    · exact hg.handler hl
    · exact hs.jobs j hj
  | take w =>
    obtain ⟨pool, hpool, rfl⟩ := Option.map_eq_some_iff.mp h
    exact ⟨hs.shared, fun j hj => hs.jobs j ((ThreadPool.held_take hpool).mem_iff.mp hj)⟩
  | run w c =>
    obtain ⟨job, hjob, rfl⟩ := Option.map_eq_some_iff.mp h
    exact hs.goOn hg hjob

theorem held_start (numThreads : Nat) (shared : σ) :
    (start numThreads shared : World σ Task Op Res).pool.held = [] := by
  simp [start, ThreadPool.start, ThreadPool.held, ThreadPool.busy]

/-- **What the guards promise holds over every interleaving of the handlers.** -/
theorem allSafe_run (hg : g.Sound b) {numThreads : Nat} {shared : σ} (hs : g.Holds shared)
    {ls : List (Label Task Choice)}
    (hls : Machine.Meets (Handlers.step b) (PublishesAllowed g) (start numThreads shared) ls)
    (h : run b (start numThreads shared) ls = some s) : AllSafe g s := by
  refine Machine.run_history_of_meets (I := fun _ s => AllSafe g s)
    (fun _ _ _ _ hi hP ha => hi.step hg hP ha) ⟨hs, fun j hj => ?_⟩ hls h
  rw [held_start] at hj
  cases hj

/-! ## One handler after the other -/

/-- The tasks that wait. -/
def waiting (s : World σ Task Op Res) : List Task := s.pool.tasks.map Job.task

/-- No handler is running. -/
def Idle (s : World σ Task Op Res) : Prop := s.pool.busy = []

/-- A worker takes a task only when no handler is running. -/
def InTurn (s : World σ Task Op Res) : Label Task Choice → Prop
  | .take _ => Idle s
  | _ => True

/-- The choices of the hardware and the tasks of other threads are of a kind. -/
def Within (Env : Task → Prop) (Can : Choice → Prop) : Label Task Choice → Prop
  | .publish task => Env task
  | .take _ => True
  | .run _ c => Can c

/-- What is to hold before the program so that `I` holds after it, whatever the hardware
chooses and other threads publish meanwhile. -/
def Program.wp (b : Bindings σ Task Op Choice Res) (Env : Task → Prop) (Can : Choice → Prop)
    (I : σ → List Task → Prop) : Program Task Op Res → σ → List Task → Prop
  | .done, s, tasks => I s tasks
  | .throws, s, tasks => I s tasks
  | .publish task next, s, tasks =>
    ∀ others, (∀ t ∈ others, Env t) → wp b Env Can I next s (tasks ++ others ++ [task])
  | .call op next, s, tasks =>
    ∀ others c, (∀ t ∈ others, Env t) → Can c →
      wp b Env Can I (next (b.exec c s op).2) (b.exec c s op).1 (tasks ++ others)

variable {Env : Task → Prop} {Can : Choice → Prop} {I : σ → List Task → Prop}

/-- `I` is not disturbed by what other threads publish. -/
def Stable (Env : Task → Prop) (I : σ → List Task → Prop) : Prop :=
  ∀ s tasks task, I s tasks → Env task → I s (tasks ++ [task])

theorem Program.wp_publish (hI : Stable Env I) {p : Program Task Op Res} {s : σ}
    {tasks : List Task} {task : Task} (h : p.wp b Env Can I s tasks) (htask : Env task) :
    p.wp b Env Can I s (tasks ++ [task]) := by
  have hmore : ∀ others : List Task, (∀ t ∈ others, Env t) →
      ∀ t ∈ [task] ++ others, Env t := by
    intro others hothers t ht
    rcases List.mem_append.mp ht with ht | ht
    · exact List.mem_singleton.mp ht ▸ htask
    · exact hothers t ht
  cases p with
  | done => exact hI _ _ _ h htask
  | throws => exact hI _ _ _ h htask
  | publish next rest =>
    intro others hothers
    rw [List.append_assoc tasks]
    exact h _ (hmore others hothers)
  | call op next =>
    intro others c hothers hc
    rw [List.append_assoc tasks]
    exact h _ c (hmore others hothers) hc

/-- A handler is running and will establish `I`, or `I` holds. -/
structure Serial (b : Bindings σ Task Op Choice Res) (Env : Task → Prop) (Can : Choice → Prop)
    (I : σ → List Task → Prop) (s : World σ Task Op Res) : Prop where
  programs : ∀ job ∈ s.pool.tasks, job.program = b.handler job.task
  running : s.pool.running = true
  turn : (s.pool.busy = [] ∧ I s.shared (waiting s)) ∨
    ∃ job, s.pool.busy = [job] ∧ job.program.wp b Env Can I s.shared (waiting s)

theorem waiting_enqueue {pool : ThreadPool (Job Task Op Res)} (h : pool.running = true)
    (task : Task) : (pool.enqueue (jobOf b task)).tasks = pool.tasks ++ [jobOf b task] ∧
      (pool.enqueue (jobOf b task)).busy = pool.busy ∧
      (pool.enqueue (jobOf b task)).running = true := by
  rw [ThreadPool.enqueue, if_pos h]
  exact ⟨rfl, rfl, h⟩

theorem programs_append {tasks : List (Job Task Op Res)}
    (h : ∀ job ∈ tasks, job.program = b.handler job.task) (task : Task) :
    ∀ job ∈ tasks ++ [jobOf b task], job.program = b.handler job.task := by
  intro job hjob
  rcases List.mem_append.mp hjob with hjob | hjob
  · exact h job hjob
  · rw [List.mem_singleton.mp hjob]
    rfl

theorem Serial.publish (hI : Stable Env I) (hs : Serial b Env Can I s) {task : Task}
    (htask : Env task) :
    Serial b Env Can I { s with pool := s.pool.enqueue (jobOf b task) } := by
  obtain ⟨htasks, hbusy, hrunning⟩ := waiting_enqueue hs.running task
  have hwaiting : waiting { s with pool := s.pool.enqueue (jobOf b task) } =
      waiting s ++ [task] := by
    rw [waiting, htasks, List.map_append]
    rfl
  refine ⟨?_, hrunning, ?_⟩
  · rw [htasks]
    exact programs_append hs.programs task
  · rw [hwaiting, hbusy]
    rcases hs.turn with ⟨hidle, hinv⟩ | ⟨job, hjob, hwp⟩
    · exact .inl ⟨hidle, hI _ _ _ hinv htask⟩
    · exact .inr ⟨job, hjob, Program.wp_publish hI hwp htask⟩

/-- The task that a worker takes while no handler runs. -/
theorem Serial.taken (hs : Serial b Env Can I s) {w : Nat} {pool : ThreadPool (Job Task Op Res)}
    (hidle : Idle s) (h : s.pool.take w = some pool) :
    ∃ task, waiting s = task :: pool.tasks.map Job.task ∧ pool.busy = [jobOf b task] ∧
      (∀ job ∈ pool.tasks, job.program = b.handler job.task) ∧ pool.running = true := by
  obtain ⟨job, rest, before, after, htasks, htasks', hold, hnew⟩ := ThreadPool.busy_take h
  have hrunning : pool.running = s.pool.running := by
    obtain ⟨-, -, -, -, rfl⟩ := ThreadPool.take_eq_some.mp h
    rfl
  have hempty : before = [] ∧ after = [] := List.append_eq_nil_iff.mp (hold.symm.trans hidle)
  have hprogram : job.program = b.handler job.task := hs.programs job (by simp [htasks])
  refine ⟨job.task, ?_, ?_, fun j hj => hs.programs j ?_, hrunning.trans hs.running⟩
  · rw [waiting, htasks, htasks', List.map_cons]
  · rw [hnew, hempty.1, hempty.2, jobOf, ← hprogram]
    rfl
  · rw [htasks'] at hj
    simp [htasks, hj]

theorem Serial.take (hhandler : ∀ s task tasks, I s (task :: tasks) →
      (b.handler task).wp b Env Can I s tasks) (hs : Serial b Env Can I s) {w : Nat}
    {pool : ThreadPool (Job Task Op Res)} (hidle : Idle s) (h : s.pool.take w = some pool) :
    Serial b Env Can I { s with pool := pool } := by
  obtain ⟨task, hwaiting, hbusy, hprograms, hrunning⟩ := hs.taken hidle h
  refine ⟨hprograms, hrunning, .inr ⟨jobOf b task, hbusy, ?_⟩⟩
  rcases hs.turn with ⟨-, hinv⟩ | ⟨job, hjob, -⟩
  · rw [hwaiting] at hinv
    exact hhandler _ _ _ hinv
  · rw [hidle] at hjob
    cases hjob

/-- A worker that runs is the only one. -/
theorem busy_only {pool : ThreadPool (Job Task Op Res)} {w : Nat} {job only : Job Task Op Res}
    (hw : pool.task? w = some job) (hbusy : pool.busy = [only]) :
    only = job ∧ ∀ next : Option (Job Task Op Res), (pool.set w next).busy = next.toList := by
  obtain ⟨before, after, hold, hnew⟩ := ThreadPool.busy_split (ThreadPool.task?_eq_some.mp hw)
  rw [hbusy, Option.toList_some] at hold
  have hlen := congrArg List.length hold
  simp only [List.length_append, List.length_cons, List.length_nil] at hlen
  have hbefore : before = [] := List.eq_nil_of_length_eq_zero (by omega)
  have hafter : after = [] := List.eq_nil_of_length_eq_zero (by omega)
  subst hbefore hafter
  refine ⟨by simpa using hold, fun next => ?_⟩
  rw [hnew, List.nil_append, List.append_nil]

theorem Serial.goOn (hs : Serial b Env Can I s) {w : Nat} {c : Choice} {job : Job Task Op Res}
    (hc : Can c) (hw : s.pool.task? w = some job) :
    Serial b Env Can I (Handlers.goOn b s w c job) := by
  have hsome : job ∈ s.pool.busy := by
    obtain ⟨before, after, hold, -⟩ := ThreadPool.busy_split (ThreadPool.task?_eq_some.mp hw)
    rw [hold]
    simp
  obtain ⟨only, honly, hwp⟩ : ∃ only, s.pool.busy = [only] ∧
      only.program.wp b Env Can I s.shared (waiting s) := by
    rcases hs.turn with ⟨hidle, -⟩ | h
    · rw [hidle] at hsome
      cases hsome
    · exact h
  obtain ⟨rfl, hset⟩ := busy_only hw honly
  have hnothing : ∀ t ∈ ([] : List Task), Env t := by simp
  have hended : only.program.wp b Env Can I s.shared (waiting s) → only.program = .done ∨
      only.program = .throws → Serial b Env Can I { s with pool := s.pool.set w none } := by
    intro hwp hend
    refine ⟨hs.programs, hs.running, .inl ⟨hset none, ?_⟩⟩
    rcases hend with hend | hend <;> rw [hend] at hwp <;> exact hwp
  obtain ⟨task, program⟩ := only
  cases program with
  | done => exact hended hwp (.inl rfl)
  | throws => exact hended hwp (.inr rfl)
  | publish next rest =>
    have hrunning : (s.pool.set w (some (⟨task, rest⟩ : Job Task Op Res))).running = true :=
      hs.running
    obtain ⟨htasks, hbusy, hrun⟩ := waiting_enqueue (b := b) hrunning next
    refine ⟨?_, hrun, .inr ⟨⟨task, rest⟩, hbusy.trans (hset _), ?_⟩⟩
    · change ∀ job ∈ (ThreadPool.enqueue _ _).tasks, _
      rw [htasks]
      exact programs_append hs.programs next
    · have hnext := hwp [] hnothing
      rw [List.append_nil] at hnext
      have hwaiting : waiting (Handlers.goOn b s w c ⟨task, .publish next rest⟩) =
          waiting s ++ [next] := by
        change (ThreadPool.enqueue _ _).tasks.map Job.task = _
        rw [htasks, List.map_append]
        rfl
      rw [hwaiting]
      exact hnext
  | call op next =>
    refine ⟨hs.programs, hs.running, .inr ⟨_, hset _, ?_⟩⟩
    have hnext := hwp [] c hnothing hc
    rw [List.append_nil] at hnext
    exact hnext

theorem Serial.step (hI : Stable Env I) (hhandler : ∀ s task tasks, I s (task :: tasks) →
      (b.handler task).wp b Env Can I s tasks) (hs : Serial b Env Can I s)
    {l : Label Task Choice} (hturn : InTurn s l) (hl : Within Env Can l)
    (h : Handlers.step b s l = some s') : Serial b Env Can I s' := by
  cases l with
  | publish task =>
    obtain rfl := Option.some.inj h
    exact hs.publish hI hl
  | take w =>
    obtain ⟨pool, hpool, rfl⟩ := Option.map_eq_some_iff.mp h
    exact hs.take hhandler hturn hpool
  | run w c =>
    obtain ⟨job, hjob, rfl⟩ := Option.map_eq_some_iff.mp h
    exact hs.goOn hl hjob

theorem Serial.run (hI : Stable Env I) (hhandler : ∀ s task tasks, I s (task :: tasks) →
      (b.handler task).wp b Env Can I s tasks) {ls : List (Label Task Choice)}
    (hs : Serial b Env Can I s) (hls : ∀ l ∈ ls, Within Env Can l)
    (hturn : Machine.Meets (Handlers.step b) InTurn s ls) (h : Handlers.run b s ls = some s') :
    Serial b Env Can I s' := by
  induction ls generalizing s with
  | nil =>
    cases h
    exact hs
  | cons l ls ih =>
    obtain ⟨next, hstep, hrest⟩ := Machine.run_cons_some.mp h
    obtain ⟨hhead, htail⟩ := hturn
    exact ih (hs.step hI hhandler hhead (hls l (by simp)) hstep)
      (fun l' hl' => hls l' (by simp [hl'])) (htail next hstep) hrest

theorem Serial.idle (hs : Serial b Env Can I s) (hidle : Idle s) : I s.shared (waiting s) := by
  rcases hs.turn with ⟨-, hinv⟩ | ⟨job, hjob, -⟩
  · exact hinv
  · rw [hidle] at hjob
    cases hjob

theorem serial_start (numThreads : Nat) {shared : σ} (hs : I shared []) :
    Serial b Env Can I (start numThreads shared) := by
  refine ⟨by simp [start, ThreadPool.start], rfl, .inl ⟨?_, hs⟩⟩
  simp [start, ThreadPool.start, ThreadPool.busy]

/-- **What every handler keeps holds, over every run of handlers that do not overlap,
whenever no handler is running.** -/
theorem serial_run (hI : Stable Env I) (hhandler : ∀ s task tasks, I s (task :: tasks) →
      (b.handler task).wp b Env Can I s tasks) {numThreads : Nat} {shared : σ}
    (hs : I shared []) {ls : List (Label Task Choice)} (hls : ∀ l ∈ ls, Within Env Can l)
    (hturn : Machine.Meets (Handlers.step b) InTurn (start numThreads shared) ls)
    (h : run b (start numThreads shared) ls = some s) (hidle : Idle s) :
    I s.shared (waiting s) :=
  ((serial_start numThreads hs).run hI hhandler hls hturn h).idle hidle

/-! ## A task that is published -/

theorem workers_enqueue (pool : ThreadPool (Job Task Op Res)) (job : Job Task Op Res) :
    (pool.enqueue job).workers = pool.workers := by
  rw [ThreadPool.enqueue]
  split_ifs <;> rfl

theorem workers_step {l : Label Task Choice} (h : step b s l = some s') :
    s'.pool.workers.length = s.pool.workers.length := by
  cases l with
  | publish task =>
    obtain rfl := Option.some.inj h
    exact congrArg List.length (workers_enqueue _ _)
  | take w =>
    obtain ⟨pool, hpool, rfl⟩ := Option.map_eq_some_iff.mp h
    obtain ⟨task, rest, -, -, rfl⟩ := ThreadPool.take_eq_some.mp hpool
    exact List.length_set
  | run w c =>
    obtain ⟨⟨task, program⟩, -, rfl⟩ := Option.map_eq_some_iff.mp h
    cases program with
    | done => exact List.length_set
    | throws => exact List.length_set
    | publish next rest =>
      exact (congrArg List.length (workers_enqueue _ _)).trans List.length_set
    | call op next => exact List.length_set

/-- The handlers on one worker do not overlap. -/
theorem inTurn_of_one {ls : List (Label Task Choice)} (hone : s.pool.workers.length = 1)
    (h : run b s ls = some s') : Machine.Meets (step b) InTurn s ls := by
  induction ls generalizing s with
  | nil => trivial
  | cons l ls ih =>
    obtain ⟨next, hstep, hrest⟩ := Machine.run_cons_some.mp h
    refine ⟨?_, fun next' hnext' => ?_⟩
    · cases l with
      | publish => trivial
      | run => trivial
      | take w =>
        obtain ⟨pool, hpool, -⟩ := Option.map_eq_some_iff.mp hstep
        obtain ⟨task, rest, hw, -, -⟩ := ThreadPool.take_eq_some.mp hpool
        obtain ⟨worker, hworkers⟩ := List.length_eq_one_iff.mp hone
        have hwaits : worker = none := by
          rw [hworkers] at hw
          exact (List.mem_singleton.mp (List.mem_of_getElem? hw)).symm
        rw [InTurn, Idle, ThreadPool.busy, hworkers, hwaits]
        rfl
    · obtain rfl := Option.some.inj (hstep.symm.trans hnext')
      exact ih ((workers_step hstep).trans hone) hrest

end MuonDetector.Core.Handlers
