import MuonDetector.Core.EventBus

/-!
# The order of events

The queue keeps the order in which a thread publishes, but two workers may take two events
of one type one after the other and then run at different speeds. The events of a type and
a thread stay in order as long as no worker takes one of them while another worker still
has handlers of an earlier one to call.
-/

namespace MuonDetector.Core.EventOrder

open MuonDetector.Library MuonDetector.Library.Machine
open MuonDetector.Core.EventBus

variable {Topic Thread : Type} [DecidableEq Topic] [DecidableEq Thread]

/-! ## The property -/

/-- The events of one type that one thread published, as `published` lists them. -/
def publishedOf (topic : Topic) (source : Thread) (b : Bus Topic Thread) :
    List (Event Topic Thread) :=
  (b.published.map Task.event).filter fun e => e.topic = topic ∧ e.source = source

/-- Those for which the handler was called. -/
def handledOf (topic : Topic) (source : Thread) (handler : Nat) (b : Bus Topic Thread) :
    List (Event Topic Thread) :=
  (b.handled.filter fun c => c.1 = handler ∧ c.2.topic = topic ∧ c.2.source = source).map
    Prod.snd

/-- Every subscriber handles the events of a type and a thread in the order in which the
thread published them. -/
def InOrder (b : Bus Topic Thread) : Prop :=
  ∀ topic source handler,
    (handledOf topic source handler b).Sublist (publishedOf topic source b)

/-- The tasks for events of one type and one thread with handlers left to call. -/
def unfinished (topic : Topic) (source : Thread) (ts : List (Task Topic Thread)) :
    List (Task Topic Thread) :=
  ts.filter fun t => (t.event.topic = topic ∧ t.event.source = source) ∧ t.handlers ≠ []

/-- A worker takes a task only when no other is still at an event of the same type and the
same thread. -/
def InTurn (b : Bus Topic Thread) : Label Topic Thread → Prop
  | .take _ => ∀ task ∈ b.pool.tasks.head?,
      unfinished task.event.topic task.event.source b.pool.busy = []
  | _ => True

instance InTurn.decidable (b : Bus Topic Thread) : ∀ l, Decidable (InTurn b l)
  | .take _ => inferInstanceAs (Decidable (∀ task ∈ b.pool.tasks.head?, _ = []))
  | .subscribe _ | .publish _ _ | .enqueue _ | .call _ _ | .finish _ | .stop => .isTrue trivial

/-! ## The events to come -/

section ToCome

variable {topic : Topic} {source : Thread}

/-- The events of a type and a thread that the tasks still bring to the handler. -/
def toCome (topic : Topic) (source : Thread) (handler : Nat) (ts : List (Task Topic Thread)) :
    List (Event Topic Thread) :=
  ((unfinished topic source ts).filter fun t => handler ∈ t.handlers).map Task.event

@[simp] theorem unfinished_nil : unfinished topic source ([] : List (Task Topic Thread)) = [] := rfl

@[simp] theorem unfinished_append (ts us : List (Task Topic Thread)) :
    unfinished topic source (ts ++ us) = unfinished topic source ts ++ unfinished topic source us :=
  List.filter_append ..

@[simp] theorem toCome_nil (handler : Nat) :
    toCome topic source handler ([] : List (Task Topic Thread)) = [] := rfl

@[simp] theorem toCome_append (handler : Nat) (ts us : List (Task Topic Thread)) :
    toCome topic source handler (ts ++ us) =
      toCome topic source handler ts ++ toCome topic source handler us := by
  rw [toCome, unfinished_append, List.filter_append, List.map_append]
  rfl

theorem toCome_of_unfinished_nil {ts : List (Task Topic Thread)}
    (h : unfinished topic source ts = []) (handler : Nat) :
    toCome topic source handler ts = [] := by
  rw [toCome, h]
  rfl

/-- Tasks for other events. -/
theorem unfinished_of_ne {ts : List (Task Topic Thread)}
    (h : ∀ t ∈ ts, ¬(t.event.topic = topic ∧ t.event.source = source)) :
    unfinished topic source ts = [] := by
  refine List.filter_eq_nil_iff.mpr ?_
  intro t hmem hkeep
  exact h t hmem (of_decide_eq_true hkeep).1

theorem toCome_singleton (handler : Nat) (t : Task Topic Thread) :
    toCome topic source handler [t] =
      if (t.event.topic = topic ∧ t.event.source = source) ∧ handler ∈ t.handlers
      then [t.event] else [] := by
  by_cases hof : t.event.topic = topic ∧ t.event.source = source
  · by_cases hmem : handler ∈ t.handlers
    · have hne : t.handlers ≠ [] := List.ne_nil_of_mem hmem
      simp [toCome, unfinished, hof, hmem, hne]
    · by_cases hne : t.handlers = []
      · simp [toCome, unfinished, hne]
      · simp [toCome, unfinished, hof, hmem, hne]
  · simp [toCome, unfinished, hof]

end ToCome

/-! ## The invariant -/

/-- The events of a type and a thread stand in one line: those handled, the one that a
worker is at, those in the queue and the one that the thread is about to enqueue. -/
structure Line (topic : Topic) (source : Thread) (b : Bus Topic Thread) : Prop where
  registered : Registered b
  sources : (b.underway.map fun t => t.event.source).Nodup
  alone : (unfinished topic source b.pool.busy).length ≤ 1
  line : ∀ handler, (handledOf topic source handler b ++ toCome topic source handler b.pool.busy ++
    toCome topic source handler b.pool.tasks ++ toCome topic source handler b.underway).Sublist
      (publishedOf topic source b)

theorem line_start (topic : Topic) (source : Thread) (numThreads : Nat) :
    Line topic source (start numThreads) := by
  have hbusy : (start numThreads : Bus Topic Thread).pool.busy = [] := by
    simp [start, ThreadPool.start, ThreadPool.busy]
  constructor
  · exact registered_start numThreads
  · exact List.nodup_nil
  · rw [hbusy]
    exact Nat.zero_le 1
  · intro handler
    rw [hbusy]
    exact List.Sublist.refl []

variable {topic : Topic} {source : Thread} {b b' : Bus Topic Thread}

/-- Between two tasks of one line there is no third. -/
theorem unfinished_around {before after : List (Task Topic Thread)} {t : Task Topic Thread}
    (halone : (unfinished topic source (before ++ [t] ++ after)).length ≤ 1)
    (hof : t.event.topic = topic ∧ t.event.source = source) (hne : t.handlers ≠ []) :
    unfinished topic source before = [] ∧ unfinished topic source after = [] := by
  have hone : unfinished topic source [t] = [t] := by
    simp [unfinished, hof, hne]
  rw [unfinished_append, unfinished_append, hone] at halone
  simp only [List.length_append, List.length_singleton] at halone
  exact ⟨List.eq_nil_of_length_eq_zero (by omega), List.eq_nil_of_length_eq_zero (by omega)⟩

theorem line_publish {s : Thread} {t : Topic} (hb : Line topic source b)
    (h : step b (.publish s t) = some b') : Line topic source b' := by
  have hregistered := step_registered hb.registered h
  obtain ⟨hfree, task, htask, rfl⟩ := step_publish h
  refine ⟨hregistered, ?_, hb.alone, ?_⟩
  · show (List.map _ (if task.handlers = [] then _ else _)).Nodup
    split_ifs
    · exact hb.sources
    · rw [List.map_append, List.map_singleton, ← List.concat_eq_append]
      refine hb.sources.concat ?_
      intro hmem
      obtain ⟨other, hother, heq⟩ := List.mem_map.mp hmem
      subst htask
      exact hfree other hother heq
  · intro handler
    have hnew : (toCome topic source handler [task]).Sublist
        ([task.event].filter fun e => e.topic = topic ∧ e.source = source) := by
      rw [toCome_singleton]
      by_cases hof : task.event.topic = topic ∧ task.event.source = source
      · rw [List.filter_cons_of_pos (by simpa using hof)]
        split_ifs
        · exact List.Sublist.refl _
        · exact List.nil_sublist _
      · rw [if_neg fun hboth => hof hboth.1]
        exact List.nil_sublist _
    have hunderway : (toCome topic source handler
        (if task.handlers = [] then b.underway else b.underway ++ [task])).Sublist
          (toCome topic source handler b.underway ++ toCome topic source handler [task]) := by
      split_ifs
      · exact List.sublist_append_left ..
      · rw [toCome_append]
    show List.Sublist _ (((b.published ++ [task]).map Task.event).filter _)
    rw [List.map_append, List.filter_append]
    refine ((List.Sublist.refl _).append hunderway).trans ?_
    rw [← List.append_assoc]
    exact (hb.line handler).append hnew

/-- A thread is about to enqueue one task at most, so it may as well be the first. -/
theorem toCome_erase {ts : List (Task Topic Thread)} {task : Task Topic Thread}
    (hsources : (ts.map fun t => t.event.source).Nodup) (hmem : task ∈ ts) (handler : Nat) :
    toCome topic source handler [task] ++ toCome topic source handler (ts.erase task) =
      toCome topic source handler ts := by
  obtain ⟨before, after, -, hsplit, herase⟩ := List.exists_erase_eq hmem
  have hcons : task :: after = [task] ++ after := rfl
  rw [herase, hsplit, hcons, toCome_append, toCome_append, toCome_append]
  by_cases hof : task.event.topic = topic ∧ task.event.source = source
  · rw [hsplit, List.map_append, List.map_cons, List.nodup_append, List.nodup_cons] at hsources
    obtain ⟨-, ⟨hafter, -⟩, hbefore⟩ := hsources
    have hnone : ∀ t, t ∈ before ∨ t ∈ after →
        ¬(t.event.topic = topic ∧ t.event.source = source) := by
      rintro t (ht | ht) ⟨-, hsource⟩
      · refine hbefore _ (List.mem_map_of_mem ht) _ (List.mem_cons_self ..) ?_
        exact hsource.trans hof.2.symm
      · refine hafter (List.mem_map.mpr ⟨t, ht, ?_⟩)
        exact hsource.trans hof.2.symm
    have hpre := unfinished_of_ne fun t ht => hnone t (.inl ht)
    have hpost := unfinished_of_ne fun t ht => hnone t (.inr ht)
    rw [toCome_of_unfinished_nil hpre, toCome_of_unfinished_nil hpost]
    simp
  · rw [toCome_singleton, if_neg fun h => hof h.1]
    rfl

theorem line_enqueue {s : Thread} (hb : Line topic source b)
    (h : step b (.enqueue s) = some b') : Line topic source b' := by
  have hregistered := step_registered hb.registered h
  obtain ⟨task, hmem, -, rfl⟩ := step_enqueue h
  have hbusy : (b.pool.enqueue task).busy = b.pool.busy := by
    rw [ThreadPool.enqueue]
    split_ifs <;> rfl
  constructor
  · exact hregistered
  · exact hb.sources.sublist (List.erase_sublist.map _)
  · show (unfinished topic source (b.pool.enqueue task).busy).length ≤ 1
    rw [hbusy]
    exact hb.alone
  · intro handler
    have htasks : (toCome topic source handler (b.pool.enqueue task).tasks).Sublist
        (toCome topic source handler b.pool.tasks ++ toCome topic source handler [task]) := by
      rw [ThreadPool.enqueue]
      split_ifs
      · rw [← toCome_append]
      · exact List.sublist_append_left ..
    have hline := hb.line handler
    rw [← toCome_erase hb.sources hmem, ← List.append_assoc] at hline
    refine List.Sublist.trans ?_ hline
    show List.Sublist (_ ++ toCome topic source handler (b.pool.enqueue task).busy ++ _ ++ _) _
    rw [hbusy]
    apply List.Sublist.append_right
    rw [List.append_assoc _ _ (toCome topic source handler [task])]
    exact htasks.append_left _

/-- What is to come keeps its order when a worker takes a task, if the task is not of the line
or no worker has one of the line. -/
theorem toCome_take {task : Task Topic Thread} {before after : List (Task Topic Thread)}
    (h : unfinished topic source [task] = [] ∨
      unfinished topic source before = [] ∧ unfinished topic source after = [])
    (handler : Nat) (rest : List (Task Topic Thread)) :
    toCome topic source handler (before ++ [task] ++ after) ++ toCome topic source handler rest =
      toCome topic source handler (before ++ after) ++
        toCome topic source handler (task :: rest) := by
  rw [← List.singleton_append (l := rest)]
  simp only [toCome_append]
  rcases h with hnone | ⟨hbefore, hafter⟩
  · simp only [toCome_of_unfinished_nil hnone, List.append_nil, List.nil_append]
  · simp only [toCome_of_unfinished_nil hbefore, toCome_of_unfinished_nil hafter,
      List.append_nil, List.nil_append]

theorem line_take {w : Nat} (hb : Line topic source b) (hturn : InTurn b (.take w))
    (h : step b (.take w) = some b') : Line topic source b' := by
  have hregistered := step_registered hb.registered h
  obtain ⟨pool, hpool, rfl⟩ := step_take h
  obtain ⟨task, rest, before, after, htasks, htasks', hbusy, hbusy'⟩ := ThreadPool.busy_take hpool
  have hturn := hturn task (by rw [htasks]; rfl)
  have hcases : unfinished topic source [task] = [] ∨
      unfinished topic source before = [] ∧ unfinished topic source after = [] := by
    by_cases hof : task.event.topic = topic ∧ task.event.source = source
    · -- the line has no task with a worker yet
      rw [hof.1, hof.2, hbusy, unfinished_append, List.append_eq_nil_iff] at hturn
      exact .inr hturn
    · refine .inl (unfinished_of_ne ?_)
      intro t ht
      rwa [List.mem_singleton.mp ht]
  refine ⟨hregistered, hb.sources, ?_, ?_⟩
  · show (unfinished topic source pool.busy).length ≤ 1
    have halone := hb.alone
    rw [hbusy, unfinished_append] at halone
    rw [hbusy', unfinished_append, unfinished_append]
    rcases hcases with hnone | ⟨hbefore, hafter⟩
    · rw [hnone, List.append_nil]
      exact halone
    · rw [hbefore, hafter, List.append_nil, List.nil_append]
      exact List.length_filter_le ..
  · intro handler
    have hline := hb.line handler
    show List.Sublist (_ ++ toCome topic source handler pool.busy ++
      toCome topic source handler pool.tasks ++ _) _
    rw [List.append_assoc _ (toCome topic source handler b.pool.busy), hbusy, htasks,
      ← toCome_take hcases handler rest] at hline
    rw [List.append_assoc _ (toCome topic source handler pool.busy), hbusy', htasks']
    exact hline

/-- A task that goes on is a task for the same event, with some of the handlers. -/
def GoesOn (old : Task Topic Thread) (new : Option (Task Topic Thread)) : Prop :=
  ∀ t ∈ new, t.event = old.event ∧ t.handlers ⊆ old.handlers

theorem unfinished_goesOn {old : Task Topic Thread} {new : Option (Task Topic Thread)}
    (h : GoesOn old new) :
    (unfinished topic source new.toList).length ≤ (unfinished topic source [old]).length := by
  cases new with
  | none => exact Nat.zero_le _
  | some t =>
    obtain ⟨hevent, hsub⟩ := h t rfl
    by_cases hold : (old.event.topic = topic ∧ old.event.source = source) ∧ old.handlers ≠ []
    · have hkeep : unfinished topic source [old] = [old] :=
        List.filter_cons_of_pos (decide_eq_true hold)
      rw [hkeep]
      exact List.length_filter_le ..
    · have hnew : ¬((t.event.topic = topic ∧ t.event.source = source) ∧ t.handlers ≠ []) := by
        rintro ⟨hof, hne⟩
        rw [hevent] at hof
        refine hold ⟨hof, fun hnil => hne ?_⟩
        exact List.subset_nil.mp (hnil ▸ hsub)
      have hdrop : unfinished topic source [t] = [] :=
        List.filter_cons_of_neg (by simpa using hnew)
      rw [Option.toList_some, hdrop]
      exact Nat.zero_le _

theorem toCome_goesOn {old : Task Topic Thread} {new : Option (Task Topic Thread)}
    (h : GoesOn old new) (handler : Nat) :
    (toCome topic source handler new.toList).Sublist (toCome topic source handler [old]) := by
  cases new with
  | none => exact List.nil_sublist _
  | some t =>
    obtain ⟨hevent, hsub⟩ := h t rfl
    rw [Option.toList_some, toCome_singleton, toCome_singleton, hevent]
    split_ifs with hnew hold
    · exact List.Sublist.refl _
    · exact absurd ⟨hnew.1, hsub hnew.2⟩ hold
    · exact List.nil_sublist _
    · exact List.nil_sublist _

/-- When a worker goes on with a task, there is still at most one of the line with the workers. -/
theorem alone_goesOn {w : Nat} {old : Task Topic Thread} {new : Option (Task Topic Thread)}
    (hb : Line topic source b) (htask : b.pool.task? w = some old) (h : GoesOn old new) :
    (unfinished topic source (b.pool.set w new).busy).length ≤ 1 := by
  obtain ⟨before, after, hbusy, hbusy'⟩ := ThreadPool.busy_split (ThreadPool.task?_eq_some.mp htask)
  have halone := hb.alone
  have hless : (unfinished topic source new.toList).length ≤
      (unfinished topic source [old]).length :=
    unfinished_goesOn h
  rw [hbusy] at halone
  rw [hbusy']
  simp only [unfinished_append, List.length_append, Option.toList_some] at halone ⊢
  omega

theorem line_call {w : Nat} {throws : Bool} (hb : Line topic source b)
    (h : step b (.call w throws) = some b') : Line topic source b' := by
  have hregistered := step_registered hb.registered h
  obtain ⟨event, called, rest, htask, rfl⟩ := step_call h
  have hgoes : GoesOn ⟨event, called :: rest⟩ (if throws then none else some ⟨event, rest⟩) := by
    intro t ht
    cases throws with
    | true => cases ht
    | false =>
      cases ht
      exact ⟨rfl, List.subset_cons_self called rest⟩
  refine ⟨hregistered, hb.sources, alone_goesOn hb htask hgoes, ?_⟩
  intro handler
  have halone := hb.alone
  have hline := hb.line handler
  obtain ⟨before, after, hbusy, hbusy'⟩ := ThreadPool.busy_split (ThreadPool.task?_eq_some.mp htask)
  show List.Sublist (((b.handled ++ [(called, event)]).filter _).map _ ++
    toCome topic source handler (b.pool.set w _).busy ++ _ ++ _) _
  rw [hbusy', List.filter_append, List.map_append]
  rw [hbusy, Option.toList_some] at hline halone
  by_cases hof : called = handler ∧ event.topic = topic ∧ event.source = source
  · obtain ⟨rfl, hof⟩ := hof
    obtain ⟨hbefore, hafter⟩ := unfinished_around halone hof (List.cons_ne_nil _ _)
    have hnodup : called ∉ rest := by
      have hheld := ThreadPool.mem_held_of_task? htask
      have hleft := hb.registered.left _ (List.mem_append_right _ hheld)
      exact (List.nodup_cons.mp hleft).1
    have hgone : toCome topic source called
        (if throws then none else some ⟨event, rest⟩ : Option (Task Topic Thread)).toList = [] := by
      cases throws with
      | true => rfl
      | false =>
        rw [if_neg Bool.false_ne_true, Option.toList_some, toCome_singleton]
        exact if_neg fun hmem => hnodup hmem.2
    have hfront : toCome topic source called [⟨event, called :: rest⟩] = [event] := by
      rw [toCome_singleton]
      exact if_pos ⟨hof, List.mem_cons_self ..⟩
    have hcall : ([(called, event)].filter fun c =>
        c.1 = called ∧ c.2.topic = topic ∧ c.2.source = source) = [(called, event)] :=
      List.filter_cons_of_pos (decide_eq_true ⟨rfl, hof⟩)
    simp only [toCome_append, hgone, hfront, toCome_of_unfinished_nil hbefore,
      toCome_of_unfinished_nil hafter, List.append_nil, List.nil_append, hcall] at hline ⊢
    exact hline
  · have hcall : ([(called, event)].filter fun c =>
        c.1 = handler ∧ c.2.topic = topic ∧ c.2.source = source) = [] :=
      List.filter_cons_of_neg (by simpa using hof)
    refine List.Sublist.trans ?_ hline
    rw [hcall, List.map_nil, List.append_nil, toCome_append, toCome_append, toCome_append,
      toCome_append]
    refine List.Sublist.append_right (List.Sublist.append_right ?_ _) _
    refine List.Sublist.append_left (List.Sublist.append_right ?_ _) _
    exact (toCome_goesOn hgoes handler).append_left _

theorem line_finish {w : Nat} (hb : Line topic source b)
    (h : step b (.finish w) = some b') : Line topic source b' := by
  have hregistered := step_registered hb.registered h
  obtain ⟨event, htask, rfl⟩ := step_finish h
  have hgoes : GoesOn (⟨event, []⟩ : Task Topic Thread) none := fun t ht => by cases ht
  refine ⟨hregistered, hb.sources, alone_goesOn hb htask hgoes, ?_⟩
  intro handler
  have hline := hb.line handler
  obtain ⟨before, after, hbusy, hbusy'⟩ := ThreadPool.busy_split (ThreadPool.task?_eq_some.mp htask)
  refine List.Sublist.trans ?_ hline
  show List.Sublist (_ ++ toCome topic source handler (b.pool.set w none).busy ++ _ ++ _) _
  rw [hbusy, hbusy', toCome_append, toCome_append, toCome_append, toCome_append]
  refine List.Sublist.append_right (List.Sublist.append_right ?_ _) _
  refine List.Sublist.append_left (List.Sublist.append_right ?_ _) _
  exact (toCome_goesOn hgoes handler).append_left _

theorem step_line {l : Label Topic Thread} (hb : Line topic source b) (hturn : InTurn b l)
    (h : step b l = some b') : Line topic source b' := by
  cases l with
  | subscribe t =>
    have hregistered := step_registered hb.registered h
    cases h
    exact ⟨hregistered, hb.sources, hb.alone, hb.line⟩
  | publish s t => exact line_publish hb h
  | enqueue s => exact line_enqueue hb h
  | take w => exact line_take hb hturn h
  | call w throws => exact line_call hb h
  | finish w => exact line_finish hb h
  | stop =>
    have hregistered := step_registered hb.registered h
    cases h
    refine ⟨hregistered, hb.sources, hb.alone, ?_⟩
    intro handler
    have hline := hb.line handler
    refine List.Sublist.trans ?_ hline
    show List.Sublist (_ ++ toCome topic source handler [] ++ _) _
    rw [toCome_nil, List.append_nil]
    exact (List.sublist_append_left ..).append_right _

/-! ## The run -/

/-- **In every run in which the workers take their tasks in turn, every subscriber handles
the events of one type in the order in which a thread published them**, and no two workers
are at events of one type and one thread at a time. -/
theorem in_publish_order (numThreads : Nat) {ls : List (Label Topic Thread)}
    {b : Bus Topic Thread} (hturn : Meets step InTurn (start numThreads) ls)
    (hrun : run step (start numThreads) ls = some b) :
    InOrder b ∧ ∀ topic source, (unfinished topic source b.pool.busy).length ≤ 1 := by
  have hline : ∀ topic source, Line topic source b := by
    intro topic source
    refine run_history_of_meets (P := InTurn) (I := fun _ b => Line topic source b) ?_
      (line_start topic source numThreads) hturn hrun
    intro _ b l b' hb hl hstep
    exact step_line hb hl hstep
  refine ⟨?_, fun topic source => (hline topic source).alone⟩
  intro topic source handler
  have h := (hline topic source).line handler
  rw [List.append_assoc, List.append_assoc] at h
  exact (List.sublist_append_left ..).trans h

/-- A single worker takes its tasks in turn. -/
theorem meets_inTurn_of_one_worker {ls : List (Label Topic Thread)}
    (hworkers : b.pool.workers.length ≤ 1) (hrun : run step b ls = some b') :
    Meets step InTurn b ls := by
  induction ls generalizing b with
  | nil => trivial
  | cons l ls ih =>
    obtain ⟨next, hstep, hrest⟩ := run_cons_some.mp hrun
    refine ⟨?_, ?_⟩
    · cases l with
      | take w =>
        obtain ⟨pool, hpool, -⟩ := step_take hstep
        obtain ⟨task, rest, hw, -, -⟩ := ThreadPool.take_eq_some.mp hpool
        have hidle : b.pool.busy = [] := by
          obtain ⟨hlt, hget⟩ := List.getElem?_eq_some_iff.mp hw
          have hone : b.pool.workers = [none] := by
            rw [← hget]
            obtain ⟨x, hx⟩ := List.length_eq_one_iff.mp (by omega : b.pool.workers.length = 1)
            simp [hx]
          rw [ThreadPool.busy, hone]
          rfl
        intro task' _
        rw [hidle]
        rfl
      | subscribe _ | publish _ _ | enqueue _ | call _ _ | finish _ | stop => trivial
    · intro next' hnext
      cases hstep.symm.trans hnext
      refine ih ?_ hrest
      rw [step_workers hstep]
      exact hworkers

/-- The second event is taken when the first one is handled. -/
def oneByOne : List (Label Nat Nat) :=
  [.subscribe 0, .publish 1 0, .enqueue 1, .publish 1 0, .take 0, .enqueue 1, .call 0 false,
    .take 1, .call 1 false, .finish 1, .finish 0]

theorem in_publish_order_oneByOne :
    ∃ b, run step (start 2) oneByOne = some b ∧
      (InOrder b ∧ ∀ topic source, (unfinished topic source b.pool.busy).length ≤ 1) :=
  have hturn : Meets step InTurn (start 2) oneByOne := by decide
  ⟨_, rfl, in_publish_order 2 hturn rfl⟩

/-- The worker that took the second event is faster. -/
def overtaken : List (Label Nat Nat) :=
  [.subscribe 0, .publish 1 0, .enqueue 1, .publish 1 0, .enqueue 1, .take 0, .take 1,
    .call 1 false, .call 0 false]

theorem not_in_publish_order_overtaken :
    ∃ b, run step (start 2) overtaken = some b ∧ ¬InOrder b := by
  refine ⟨_, rfl, ?_⟩
  intro h
  have hlist := h 0 1 0
  revert hlist
  decide

end MuonDetector.Core.EventOrder
