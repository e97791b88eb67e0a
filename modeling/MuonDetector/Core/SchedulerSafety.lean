import MuonDetector.Core.Scheduler
import MuonDetector.Library.Counter
import Mathlib.Data.List.Perm.Subperm
import Mathlib.Data.List.Count

/-!
# No task twice, none after stop

What a step does with the tasks is said once; the ids, the number of starts and the queue
after the loop has ended follow from it by induction over the run. The checks of `running`
and `cancelled` that the loop makes without the lock leave a window of one start after a
`cancel`, and none after a `stop` that has joined the thread.
-/

namespace MuonDetector.Core.Scheduler

open MuonDetector.Library
open scoped List

variable {w : Nat}

/-! ## The moves of the loop thread -/

/-- What the loop thread does in a step, by where it stands. -/
inductive LoopMove (s : Scheduler w) : Label w → Scheduler w → Prop
  | waits (loop : s.loop = .waiting) : LoopMove s .waitForTask s
  | early (now : Int) (top : Task w) (loop : s.loop = .waiting) : LoopMove s (.look now top) s
  | skips {now : Int} {top : Task w} (loop : s.loop = .waiting) (isTop : isTop s.queue top = true)
      (due : top.time ≤ now) :
      LoopMove s (.look now top) { s with queue := s.queue.erase top }
  | takes {now : Int} {top : Task w} (loop : s.loop = .waiting) (isTop : isTop s.queue top = true)
      (due : top.time ≤ now) (cancelled : top.id ∉ s.cancelled) :
      LoopMove s (.look now top) { s with queue := s.queue.erase top, loop := .taken top }
  | leaves (loop : s.loop = .waiting) :
      LoopMove s .leave { s with queue := [], loop := .exited }
  | begins {task : Task w} (loop : s.loop = .taken task) :
      LoopMove s .checkRunning { s with loop := .starting task }
  | passes {task : Task w} (loop : s.loop = .taken task) :
      LoopMove s .checkRunning { s with loop := .returned task true }
  | calls {task : Task w} (loop : s.loop = .starting task) :
      LoopMove s .startTask { s with loop := .executing task, starts := s.starts ++ [task.id] }
  | returns {task : Task w} (keepRunning : Bool) (loop : s.loop = .executing task) :
      LoopMove s (.taskReturned keepRunning) { s with loop := .returned task keepRunning }
  | repeats {task : Task w} {keepRunning : Bool} (loop : s.loop = .returned task keepRunning)
      (interval : 0 < task.interval) :
      LoopMove s .recheckRunning { s with loop := .checking task }
  | drops {task : Task w} {keepRunning : Bool} (loop : s.loop = .returned task keepRunning) :
      LoopMove s .recheckRunning { s with loop := .waiting }
  | forgets {task : Task w} (loop : s.loop = .checking task) :
      LoopMove s .recheckCancelled { s with loop := .waiting }
  | keeps {task : Task w} (loop : s.loop = .checking task) :
      LoopMove s .recheckCancelled { s with loop := .requeueing task }
  | requeues {task : Task w} (now : Int) (loop : s.loop = .requeueing task) :
      LoopMove s (.requeue now) { s with
        queue := { task with time := now + task.interval * 1000000 } :: s.queue
        loop := .waiting }

/-- The loop takes nothing, skips a cancelled task, or takes the task. -/
theorem takeNext_move {s : Scheduler w} {now : Int} {top : Task w} (hl : s.loop = .waiting)
    (htop : isTop s.queue top = true) : LoopMove s (.look now top) (takeNext s now top) := by
  unfold takeNext
  by_cases htime : top.time > now
  · rw [if_pos htime]
    exact .early now top hl
  · rw [if_neg htime]
    have hdue : top.time ≤ now := by omega
    by_cases hc : s.cancelled.contains top.id = true
    · rw [if_pos hc]
      exact .skips hl htop hdue
    · rw [if_neg hc]
      exact .takes hl htop hdue (by simpa using hc)

theorem loopStep_move {s s' : Scheduler w} {label : Label w}
    (h : loopStep s s.loop label = some s') : LoopMove s label s' := by
  generalize hl : s.loop = loop at h
  unfold loopStep at h
  split at h
  · obtain ⟨-, ⟨⟩⟩ := Option.ite_none_right_eq_some.mp h
    exact .waits hl
  · obtain ⟨hcond, ⟨⟩⟩ := Option.ite_none_right_eq_some.mp h
    exact takeNext_move hl (Bool.and_eq_true_iff.mp hcond).2
  · obtain ⟨-, ⟨⟩⟩ := Option.ite_none_left_eq_some.mp h
    exact .leaves hl
  · split at h
    · obtain rfl := Option.some.inj h
      exact .begins hl
    · obtain rfl := Option.some.inj h
      exact .passes hl
  · obtain rfl := Option.some.inj h
    exact .calls hl
  · obtain rfl := Option.some.inj h
    exact .returns _ hl
  · rename_i task keepRunning
    split at h
    · next hcond =>
      obtain rfl := Option.some.inj h
      exact .repeats hl (of_decide_eq_true (Bool.and_eq_true_iff.mp hcond).2)
    · obtain rfl := Option.some.inj h
      exact .drops hl
  · split at h
    · obtain rfl := Option.some.inj h
      exact .forgets hl
    · obtain rfl := Option.some.inj h
      exact .keeps hl
  · obtain rfl := Option.some.inj h
    exact .requeues _ hl
  · cases h

/-! ## What a step does with the tasks -/

/-- A step brings a new task in, moves tasks on or drops them, has a function called or
passed over, or puts the task back that ran. -/
inductive Effect (s s' : Scheduler w) : Label w → Prop
  | allocated (call : Call w)
      (unstarted : (unstarted s').Perm (call.task s.nextId :: unstarted s))
      (behind : s'.loop.behind = s.loop.behind) (starts : s'.starts = s.starts)
      (nextId : s'.nextId = s.nextId + 1) : Effect s s' (.allocate call)
  | moved {label : Label w} (allocate : IsAllocate label = false)
      (unstarted : (unstarted s').Subperm (unstarted s))
      (behind : s'.loop.behind.Sublist s.loop.behind) (starts : s'.starts = s.starts)
      (nextId : s'.nextId = s.nextId) : Effect s s' label
  | started (task : Task w) (unstarted : (unstarted s).Perm (task :: unstarted s'))
      (behind : s.loop.behind = []) (behind' : s'.loop.behind = [task])
      (starts : s'.starts = s.starts ++ [task.id]) (nextId : s'.nextId = s.nextId) :
      Effect s s' .startTask
  | passed (task : Task w) (unstarted : (unstarted s).Perm (task :: unstarted s'))
      (behind : s.loop.behind = []) (behind' : s'.loop.behind = [task])
      (starts : s'.starts = s.starts) (nextId : s'.nextId = s.nextId) :
      Effect s s' .checkRunning
  | requeued (task : Task w) (now : Int) (loop : s.loop = .requeueing task)
      (behind' : s'.loop.behind = [])
      (unstarted : (unstarted s').Perm
        ({ task with time := now + task.interval * 1000000 } :: unstarted s))
      (starts : s'.starts = s.starts) (nextId : s'.nextId = s.nextId) :
      Effect s s' (.requeue now)

/-- A step of the loop that drops tasks of the queue at most. -/
theorem Effect.shrunk {s : Scheduler w} {queue : List (Task w)} {loop : Loop w} {label : Label w}
    (hlabel : IsAllocate label = false) (hqueue : queue.Sublist s.queue)
    (hahead : loop.ahead = s.loop.ahead) (hbehind : loop.behind.Sublist s.loop.behind) :
    Effect s { s with queue := queue, loop := loop } label := by
  refine .moved hlabel ?_ hbehind rfl rfl
  show (s.pending ++ queue ++ loop.ahead).Subperm (s.pending ++ s.queue ++ s.loop.ahead)
  rw [hahead]
  exact ((hqueue.append_left s.pending).append_right s.loop.ahead).subperm

theorem LoopMove.effect {s s' : Scheduler w} {label : Label w} (h : LoopMove s label s') :
    Effect s s' label := by
  cases h with
  | waits hl => exact .shrunk rfl (.refl _) rfl (.refl _)
  | early now top hl => exact .shrunk rfl (.refl _) rfl (.refl _)
  | skips hl htop hdue => exact .shrunk rfl List.erase_sublist rfl (.refl _)
  | @takes now top hl htop hdue hc =>
    refine .moved rfl (List.Perm.subperm ?_) (by rw [hl]; exact .refl _) rfl rfl
    simp only [unstarted, hl, Loop.ahead, List.append_nil, List.append_assoc]
    have hmem : top ∈ s.queue := (isTop_iff.mp htop).1
    have hback : s.queue.erase top ++ [top] ~ s.queue :=
      (List.perm_append_singleton top _).trans (List.perm_cons_erase hmem).symm
    exact hback.append_left s.pending
  | leaves hl => exact .shrunk rfl (List.nil_sublist _) (by rw [hl]; rfl) (List.nil_sublist _)
  | begins hl => exact .shrunk rfl (.refl _) (by rw [hl]; rfl) (List.nil_sublist _)
  | @passes task hl =>
    refine .passed task ?_ (by rw [hl]; rfl) rfl rfl rfl
    simp only [unstarted, hl, Loop.ahead, List.append_nil]
    exact List.perm_append_singleton task _
  | @calls task hl =>
    refine .started task ?_ (by rw [hl]; rfl) rfl rfl rfl
    simp only [unstarted, hl, Loop.ahead, List.append_nil]
    exact List.perm_append_singleton task _
  | returns keepRunning hl =>
    exact .shrunk rfl (.refl _) (by rw [hl]; rfl) (by rw [hl]; exact .refl _)
  | repeats hl hinterval =>
    exact .shrunk rfl (.refl _) (by rw [hl]; rfl) (by rw [hl]; exact .refl _)
  | drops hl => exact .shrunk rfl (.refl _) (by rw [hl]; rfl) (List.nil_sublist _)
  | forgets hl => exact .shrunk rfl (.refl _) (by rw [hl]; rfl) (List.nil_sublist _)
  | keeps hl => exact .shrunk rfl (.refl _) (by rw [hl]; rfl) (by rw [hl]; exact .refl _)
  | @requeues task now hl =>
    refine .requeued task now hl rfl ?_ rfl rfl
    simp only [unstarted, hl, Loop.ahead, List.append_nil]
    exact List.perm_middle

theorem step_effect {s s' : Scheduler w} {label : Label w} (h : step s label = some s') :
    Effect s s' label := by
  cases label with
  | start =>
    obtain ⟨hl, ⟨⟩⟩ := Option.ite_none_right_eq_some.mp h
    refine .moved rfl ?_ (by rw [hl]; exact .refl _) rfl rfl
    rw [unstarted, unstarted, hl]
    exact .refl _
  | allocate call =>
    obtain rfl := Option.some.inj h
    refine .allocated call ?_ rfl rfl rfl
    simp only [unstarted, List.append_assoc, List.cons_append, List.nil_append]
    exact List.perm_middle
  | push waiter =>
    obtain ⟨task, hget, rfl⟩ := Option.map_eq_some_iff.mp h
    obtain ⟨hlt, rfl⟩ := List.getElem?_eq_some_iff.mp hget
    refine .moved rfl (List.Perm.subperm (List.Perm.append_right _ ?_)) (.refl _) rfl rfl
    calc s.pending.eraseIdx waiter ++ s.pending[waiter] :: s.queue
        ~ (s.pending[waiter] :: s.pending.eraseIdx waiter) ++ s.queue := List.perm_middle
      _ ~ s.pending ++ s.queue := (List.getElem_cons_eraseIdx_perm hlt).append_right s.queue
  | cancel id =>
    obtain rfl := Option.some.inj h
    exact .moved rfl (.refl _) (.refl _) rfl rfl
  | stop =>
    obtain ⟨-, ⟨⟩⟩ := Option.ite_none_left_eq_some.mp h
    refine .moved rfl ?_ (.refl _) rfl rfl
    exact (((List.nil_sublist _).append_left s.pending).append_right s.loop.ahead).subperm
  | stopReturned =>
    obtain ⟨-, ⟨⟩⟩ := Option.ite_none_right_eq_some.mp h
    exact .moved rfl (.refl _) (.refl _) rfl rfl
  | waitForTask | look _ _ | leave | checkRunning | startTask | taskReturned _ | recheckRunning
  | recheckCancelled | requeue _ => exact (loopStep_move h).effect

/-! ## Ids -/

/-- A step brings in the key of a new task, or keeps at most the keys there were. -/
theorem Effect.step_keys {s s' : Scheduler w} {label : Label w} (e : Effect s s' label) :
    (∃ call, label = .allocate call ∧ s'.nextId = s.nextId + 1 ∧
      keys s' ~ (s.nextId, call.interval) :: keys s) ∨
    (IsAllocate label = false ∧ s'.nextId = s.nextId ∧ (keys s').Subperm (keys s)) := by
  cases e with
  | allocated call hunstarted hbehind hstarts hnext =>
    refine .inl ⟨call, rfl, hnext, ?_⟩
    have hheld : held s' ~ call.task s.nextId :: held s := by
      rw [held, hbehind]
      exact hunstarted.append_right s.loop.behind
    exact hheld.map Task.key
  | moved hlabel hunstarted hbehind hstarts hnext =>
    obtain ⟨tasks, hperm, hsub⟩ := hunstarted.append hbehind.subperm
    exact .inr ⟨hlabel, hnext, tasks.map Task.key, hperm.map Task.key, hsub.map Task.key⟩
  | started task hunstarted hbehind hbehind' hstarts hnext =>
    have hheld : held s' ~ held s := by
      rw [held, held, hbehind, hbehind', List.append_nil]
      exact (List.perm_append_singleton task _).trans hunstarted.symm
    exact .inr ⟨rfl, hnext, (hheld.map Task.key).subperm⟩
  | passed task hunstarted hbehind hbehind' hstarts hnext =>
    have hheld : held s' ~ held s := by
      rw [held, held, hbehind, hbehind', List.append_nil]
      exact (List.perm_append_singleton task _).trans hunstarted.symm
    exact .inr ⟨rfl, hnext, (hheld.map Task.key).subperm⟩
  | requeued task now hl hbehind' hunstarted hstarts hnext =>
    have hkeys : keys s' ~ task.key :: (unstarted s).map Task.key := by
      rw [keys, held, hbehind', List.append_nil]
      exact hunstarted.map Task.key
    refine .inr ⟨rfl, hnext, (hkeys.trans ?_).subperm⟩
    rw [keys, held, hl, List.map_append]
    exact (List.perm_append_singleton task.key _).symm

/-- Only a function of a task there is gets called. -/
theorem Effect.step_starts {s s' : Scheduler w} {label : Label w} (e : Effect s s' label) :
    s'.starts = s.starts ∨ ∃ key ∈ keys s, s'.starts = s.starts ++ [key.1] := by
  cases e with
  | allocated _ _ _ hstarts _ => exact .inl hstarts
  | moved _ _ _ hstarts _ => exact .inl hstarts
  | started task hunstarted _ _ hstarts _ =>
    have hmem : task ∈ held s :=
      List.mem_append_left _ (hunstarted.mem_iff.mpr (List.mem_cons_self ..))
    exact .inr ⟨task.key, List.mem_map_of_mem hmem, hstarts⟩
  | passed _ _ _ _ hstarts _ => exact .inl hstarts
  | requeued _ _ _ _ _ hstarts _ => exact .inl hstarts

/-- What holds after `n` ids were given out. -/
structure Ids (n : Nat) (s : Scheduler w) : Prop where
  next : s.nextId = Counter.ident n
  unique : ((keys s).map Prod.fst).Nodup
  issued : ∀ key ∈ keys s, ∃ k < n, key.1 = Counter.ident k
  started : ∀ id ∈ s.starts, ∃ k < n, id = Counter.ident k

/-- An id that was not given out belongs to no task. -/
theorem Ids.fresh {n m : Nat} {s : Scheduler w} (hi : Ids n s) (hnm : n ≤ m) (hm : m < 2 ^ w) :
    (∀ key ∈ keys s, key.1 ≠ Counter.ident m) ∧ Counter.ident m ∉ s.starts := by
  constructor
  · intro key hkey heq
    obtain ⟨k, hk, hid⟩ := hi.issued key hkey
    have := Counter.ident_inj (by omega) hm (hid.symm.trans heq)
    omega
  · intro hmem
    obtain ⟨k, hk, hid⟩ := hi.started _ hmem
    have := Counter.ident_inj hm (by omega) hid
    omega

theorem Ids.step {n : Nat} {s s' : Scheduler w} {label : Label w} (hi : Ids n s)
    (hn : IsAllocate label = true → n < 2 ^ w) (h : step s label = some s') :
    Ids (n + [label].countP IsAllocate) s' := by
  have he := step_effect h
  have hstarted : ∀ id ∈ s'.starts, ∃ k < n, id = Counter.ident k := by
    intro id hid
    rcases he.step_starts with hstarts | ⟨key, hkey, hstarts⟩
    · exact hi.started id (hstarts ▸ hid)
    · rw [hstarts, List.mem_append, List.mem_singleton] at hid
      rcases hid with hid | rfl
      · exact hi.started id hid
      · exact hi.issued key hkey
  rcases he.step_keys with ⟨call, rfl, hnext, hkeys⟩ | ⟨hlabel, hnext, hkeys⟩
  · obtain ⟨hfresh, -⟩ := hi.fresh (Nat.le_refl n) (hn rfl)
    constructor
    · rw [hnext, hi.next]
      exact (Counter.ident_succ n).symm
    · rw [(hkeys.map Prod.fst).nodup_iff, List.map_cons, List.nodup_cons]
      refine ⟨fun hmem => ?_, hi.unique⟩
      obtain ⟨key, hkey, heq⟩ := List.mem_map.mp hmem
      exact hfresh key hkey (heq.trans hi.next)
    · intro key hkey
      rcases List.mem_cons.mp (hkeys.mem_iff.mp hkey) with rfl | hold
      · exact ⟨n, Nat.lt_succ_self n, hi.next⟩
      · obtain ⟨k, hk, hid⟩ := hi.issued key hold
        exact ⟨k, Nat.lt_succ_of_lt hk, hid⟩
    · intro id hid
      obtain ⟨k, hk, heq⟩ := hstarted id hid
      exact ⟨k, Nat.lt_succ_of_lt hk, heq⟩
  · rw [List.countP_singleton, hlabel, if_neg Bool.false_ne_true, Nat.add_zero]
    constructor
    · rw [hnext, hi.next]
    · obtain ⟨ids, hperm, hsub⟩ := hkeys
      exact (hperm.map Prod.fst).nodup_iff.mp ((hsub.map Prod.fst).nodup hi.unique)
    · intro key hkey
      exact hi.issued key (hkeys.subset hkey)
    · exact hstarted

theorem ids_run {labels : List (Label w)} {s : Scheduler w} (h : run fresh labels = some s)
    (hn : labels.countP IsAllocate ≤ 2 ^ w) : Ids (labels.countP IsAllocate) s := by
  refine Machine.run_history (I := fun labels s =>
    labels.countP IsAllocate ≤ 2 ^ w → Ids (labels.countP IsAllocate) s) ?_ ?_ h hn
  · intro labels s label s' hI hs hbound
    rw [List.countP_append] at hbound ⊢
    refine (hI (by omega)).step (fun hlabel => ?_) hs
    rw [List.countP_singleton, if_pos hlabel] at hbound
    omega
  · intro _
    constructor
    · rfl
    · exact List.nodup_nil
    · intro key hkey
      cases hkey
    · intro id hid
      cases hid

/-! ## The loop thread and the calls -/

/-- A step is a move of the loop thread, or a call that leaves the loop where it is or
starts it. -/
theorem step_cases {s s' : Scheduler w} {label : Label w} (h : step s label = some s') :
    LoopMove s label s' ∨
      ((s'.loop = s.loop ∨ s.loop = .notStarted ∧ s'.loop = .waiting) ∧
        s'.starts = s.starts ∧ s.cancelled ⊆ s'.cancelled) := by
  cases label with
  | start =>
    obtain ⟨hl, ⟨⟩⟩ := Option.ite_none_right_eq_some.mp h
    exact .inr ⟨.inr ⟨hl, rfl⟩, rfl, List.Subset.refl _⟩
  | allocate call =>
    obtain rfl := Option.some.inj h
    exact .inr ⟨.inl rfl, rfl, List.Subset.refl _⟩
  | push waiter =>
    obtain ⟨task, hget, rfl⟩ := Option.map_eq_some_iff.mp h
    exact .inr ⟨.inl rfl, rfl, List.Subset.refl _⟩
  | cancel id =>
    obtain rfl := Option.some.inj h
    exact .inr ⟨.inl rfl, rfl, List.subset_cons_self _ _⟩
  | stop =>
    obtain ⟨-, ⟨⟩⟩ := Option.ite_none_left_eq_some.mp h
    exact .inr ⟨.inl rfl, rfl, List.Subset.refl _⟩
  | stopReturned =>
    obtain ⟨-, ⟨⟩⟩ := Option.ite_none_right_eq_some.mp h
    exact .inr ⟨.inl rfl, rfl, List.Subset.refl _⟩
  | waitForTask | look _ _ | leave | checkRunning | startTask | taskReturned _ | recheckRunning
  | recheckCancelled | requeue _ => exact .inl (loopStep_move h)

theorem look_due {s s' : Scheduler w} {now : Int} {top : Task w}
    (h : step s (.look now top) = some s') (htook : s'.queue ≠ s.queue) :
    top ∈ s.queue ∧ s'.queue = s.queue.erase top ∧ top.time ≤ now ∧
      ∀ task ∈ s.queue, top.time ≤ task.time := by
  cases loopStep_move h with
  | early _ _ _ => exact absurd rfl htook
  | skips _ htop hdue =>
    obtain ⟨hmem, hfirst⟩ := isTop_iff.mp htop
    exact ⟨hmem, rfl, hdue, hfirst⟩
  | takes _ htop hdue _ =>
    obtain ⟨hmem, hfirst⟩ := isTop_iff.mp htop
    exact ⟨hmem, rfl, hdue, hfirst⟩

/-! ## After a cancel -/

/-- The starts that were made, and the one that no `cancel` can stop any more. -/
def startsBound (s : Scheduler w) (id : BitVec w) : Nat :=
  (s.loop.ahead.map Task.id).count id + s.starts.count id

theorem startsBound_le (s : Scheduler w) (id : BitVec w) :
    startsBound s id ≤ s.starts.count id + 1 := by
  have hone : (s.loop.ahead.map Task.id).count id ≤ 1 := by
    cases hl : s.loop with
    | taken task | starting task => exact List.count_le_length
    | _ => exact Nat.zero_le 1
  unfold startsBound
  omega

theorem LoopMove.startsBound_le {s s' : Scheduler w} {label : Label w} (m : LoopMove s label s')
    {id : BitVec w} (hc : id ∈ s.cancelled) :
    id ∈ s'.cancelled ∧ startsBound s' id ≤ startsBound s id := by
  cases m with
  | takes hl htop hdue hcancelled =>
    refine ⟨hc, ?_⟩
    rename_i now top
    have hother : top.id ≠ id := fun heq => hcancelled (heq ▸ hc)
    simp [startsBound, hl, Loop.ahead, hother]
  | calls hl =>
    refine ⟨hc, ?_⟩
    simp only [startsBound, hl, Loop.ahead, List.count_append, List.map_nil, List.map_cons,
      List.count_nil]
    omega
  | waits hl | early _ _ hl | skips hl _ _ => exact ⟨hc, Nat.le_refl _⟩
  | leaves hl | begins hl | passes hl | returns _ hl | repeats hl _ | drops hl | forgets hl
  | keeps hl | requeues _ hl =>
    refine ⟨hc, ?_⟩
    simp [startsBound, hl, Loop.ahead]

theorem step_startsBound_le {s s' : Scheduler w} {label : Label w} (h : step s label = some s')
    {id : BitVec w} (hc : id ∈ s.cancelled) :
    id ∈ s'.cancelled ∧ startsBound s' id ≤ startsBound s id := by
  rcases step_cases h with m | ⟨hloop, hstarts, hsub⟩
  · exact m.startsBound_le hc
  · refine ⟨hsub hc, ?_⟩
    have hahead : s'.loop.ahead = s.loop.ahead := by
      rcases hloop with hl | ⟨hl, hl'⟩
      · rw [hl]
      · rw [hl, hl']
        rfl
    exact Nat.le_of_eq (by rw [startsBound, startsBound, hahead, hstarts])

theorem cancelled_run {s t : Scheduler w} {labels : List (Label w)} (h : run s labels = some t)
    {id : BitVec w} (hc : id ∈ s.cancelled) : t.starts.count id ≤ s.starts.count id + 1 := by
  have hbound : id ∈ t.cancelled ∧ startsBound t id ≤ startsBound s id :=
    Machine.run_history (I := fun _ t => id ∈ t.cancelled ∧ startsBound t id ≤ startsBound s id)
      (fun _ u label u' hu hstep =>
        have hnext := step_startsBound_le hstep hu.1
        ⟨hnext.1, Nat.le_trans hnext.2 hu.2⟩)
      ⟨hc, Nat.le_refl _⟩ h
  calc t.starts.count id ≤ startsBound t id := Nat.le_add_left _ _
    _ ≤ startsBound s id := hbound.2
    _ ≤ s.starts.count id + 1 := startsBound_le s id

/-! ## Tasks without an interval -/

/-- Where the loop is about to put a task back, the task has an interval. -/
def Repeats : Loop w → Prop
  | .checking task => 0 < task.interval
  | .requeueing task => 0 < task.interval
  | _ => True

theorem step_repeats {s s' : Scheduler w} {label : Label w} (hr : Repeats s.loop)
    (h : step s label = some s') : Repeats s'.loop := by
  rcases step_cases h with m | ⟨hl | ⟨-, hl⟩, -, -⟩
  · cases m with
    | repeats hl hinterval => exact hinterval
    | keeps hl =>
      rw [hl] at hr
      exact hr
    | waits hl | early _ _ hl | skips hl _ _ => exact hr
    | takes | leaves | begins | passes | calls | returns | drops | forgets | requeues => trivial
  · rw [hl]
    exact hr
  · rw [hl]
    trivial

theorem repeats_run {s t : Scheduler w} {labels : List (Label w)} (hr : Repeats s.loop)
    (h : run s labels = some t) : Repeats t.loop :=
  Machine.run_history (I := fun _ t => Repeats t.loop)
    (fun _ _ _ _ hr hs => step_repeats hr hs) hr h

/-- A task that was not started yet can be started once, and comes never back. -/
structure OneShot (id : BitVec w) (s : Scheduler w) : Prop where
  interval : ∀ key ∈ keys s, key.1 = id → key.2 ≤ 0
  count : ((unstarted s).map Task.id).count id + s.starts.count id ≤ 1

theorem OneShot.step {id : BitVec w} {s s' : Scheduler w} {label : Label w} (ho : OneShot id s)
    (hr : Repeats s.loop) (hid : IsAllocate label = true → s.nextId ≠ id)
    (h : step s label = some s') : OneShot id s' := by
  have he := step_effect h
  constructor
  · intro key hkey
    rcases he.step_keys with ⟨call, rfl, hnext, hkeys⟩ | ⟨hlabel, hnext, hkeys⟩
    · rcases List.mem_cons.mp (hkeys.mem_iff.mp hkey) with rfl | hold
      · exact fun heq => absurd heq (hid rfl)
      · exact ho.interval key hold
    · exact ho.interval key (hkeys.subset hkey)
  · have hcount := ho.count
    cases he with
    | allocated call hunstarted hbehind hstarts hnext =>
      have hne : s.nextId ≠ id := hid rfl
      rw [hstarts, (hunstarted.map Task.id).count_eq, List.map_cons, Call.task,
        List.count_cons_of_ne hne]
      exact hcount
    | moved hlabel hunstarted hbehind hstarts hnext =>
      obtain ⟨tasks, hperm, hsub⟩ := hunstarted
      have hle : ((unstarted s').map Task.id).count id ≤ ((unstarted s).map Task.id).count id := by
        rw [← (hperm.map Task.id).count_eq]
        exact (hsub.map Task.id).count_le id
      rw [hstarts]
      omega
    | started task hunstarted hbehind hbehind' hstarts hnext =>
      rw [(hunstarted.map Task.id).count_eq, List.map_cons, List.count_cons] at hcount
      rw [hstarts, List.count_append, List.count_singleton]
      omega
    | passed task hunstarted hbehind hbehind' hstarts hnext =>
      rw [(hunstarted.map Task.id).count_eq, List.map_cons, List.count_cons] at hcount
      rw [hstarts]
      omega
    | requeued task now hl hbehind' hunstarted hstarts hnext =>
      have hmem : task.key ∈ keys s := by
        refine List.mem_map_of_mem (List.mem_append_right _ ?_)
        rw [hl]
        exact List.mem_singleton_self task
      have hother : task.id ≠ id := by
        intro heq
        have hrepeats : 0 < task.interval := by rwa [hl] at hr
        have honce : task.interval ≤ 0 := ho.interval task.key hmem heq
        omega
      rw [hstarts, (hunstarted.map Task.id).count_eq, List.map_cons, List.count_cons_of_ne hother]
      exact hcount

theorem oneShot_allocated {n : Nat} {s : Scheduler w} (hi : Ids n s) (hn : n < 2 ^ w)
    {call : Call w} (hcall : call.interval ≤ 0) {s' : Scheduler w}
    (h : step s (.allocate call) = some s') : OneShot (Counter.ident n) s' := by
  obtain ⟨hfresh, hnever⟩ := hi.fresh (Nat.le_refl n) hn
  have he := step_effect h
  constructor
  · intro key hkey heq
    obtain ⟨call', hlabel, -, hkeys⟩ | ⟨hlabel, -, -⟩ := he.step_keys
    · obtain rfl : call = call' := by simpa using hlabel
      rcases List.mem_cons.mp (hkeys.mem_iff.mp hkey) with rfl | hold
      · exact hcall
      · exact absurd heq (hfresh key hold)
    · cases hlabel
  · cases he with
    | allocated _ hunstarted hbehind hstarts hnext =>
      have hnone : Counter.ident n ∉ (unstarted s).map Task.id := by
        intro hmem
        obtain ⟨task, htask, hid⟩ := List.mem_map.mp hmem
        exact hfresh task.key (List.mem_map_of_mem (List.mem_append_left _ htask)) hid
      rw [hstarts, (hunstarted.map Task.id).count_eq, List.map_cons, List.count_cons,
        List.count_eq_zero.mpr hnone, List.count_eq_zero.mpr hnever]
      split <;> omega
    | moved hlabel => cases hlabel

theorem oneShot_run {n : Nat} {id : BitVec w} {s t : Scheduler w} {labels : List (Label w)}
    (hid : id = Counter.ident n) (hi : Ids (n + 1) s) (hr : Repeats s.loop)
    (ho : OneShot id s) (h : run s labels = some t)
    (hbound : n + 1 + labels.countP IsAllocate ≤ 2 ^ w) : OneShot id t := by
  have hall := Machine.run_history (I := fun labels t =>
    n + 1 + labels.countP IsAllocate ≤ 2 ^ w →
      Ids (n + 1 + labels.countP IsAllocate) t ∧ Repeats t.loop ∧ OneShot id t) ?_
    (fun _ => ⟨hi, hr, ho⟩) h hbound
  · exact hall.2.2
  · intro labels u label u' hI hs hbound
    rw [List.countP_append, ← Nat.add_assoc] at hbound ⊢
    obtain ⟨hi, hr, ho⟩ := hI (by omega)
    have hroom : IsAllocate label = true → n + 1 + labels.countP IsAllocate < 2 ^ w := by
      intro hlabel
      rw [List.countP_singleton, if_pos hlabel] at hbound
      omega
    refine ⟨hi.step hroom hs, step_repeats hr hs, ho.step hr (fun hlabel heq => ?_) hs⟩
    have hlast : (Counter.ident (n + 1 + labels.countP IsAllocate) : BitVec w) =
        Counter.ident n := by
      rw [← hi.next, heq, hid]
    have := Counter.ident_inj (hroom hlabel) (by omega) hlast
    omega

/-! ## After a stop -/

theorem LoopMove.not_exited {s s' : Scheduler w} {label : Label w} (m : LoopMove s label s') :
    s.loop ≠ .exited := by
  intro hl
  cases m with
  | waits hw | early _ _ hw | skips hw _ _ | takes hw _ _ _ | leaves hw | begins hw | passes hw
  | calls hw | returns _ hw | repeats hw _ | drops hw | forgets hw | keeps hw | requeues _ hw =>
    rw [hl] at hw
    cases hw

/-- A loop that has ended calls nothing, whatever is called from outside. -/
theorem step_exited {s s' : Scheduler w} {label : Label w} (hl : s.loop = .exited)
    (h : step s label = some s') : s'.loop = .exited ∧ s'.starts = s.starts := by
  rcases step_cases h with m | ⟨hloop | ⟨hloop, -⟩, hstarts, -⟩
  · exact absurd hl m.not_exited
  · exact ⟨hloop.trans hl, hstarts⟩
  · rw [hl] at hloop
    cases hloop

theorem exited_run {s t : Scheduler w} {labels : List (Label w)} (hl : s.loop = .exited)
    (h : run s labels = some t) : t.loop = .exited ∧ t.starts = s.starts :=
  Machine.run_history (I := fun _ t => t.loop = .exited ∧ t.starts = s.starts)
    (fun _ _ _ _ hu hs =>
      have hnext := step_exited hu.1 hs
      ⟨hnext.1, hnext.2.trans hu.2⟩) ⟨hl, rfl⟩ h

/-- The queue that the loop has emptied stays empty until a task is added. -/
theorem step_drained {s s' : Scheduler w} {label : Label w} (hl : s.loop = .exited)
    (hq : s.queue = []) (hlabel : IsPush label = false) (h : step s label = some s') :
    s'.queue = [] := by
  cases label with
  | push => cases hlabel
  | start =>
    obtain ⟨hw, -⟩ := Option.ite_none_right_eq_some.mp h
    rw [hl] at hw
    cases hw
  | allocate call | cancel id =>
    obtain rfl := Option.some.inj h
    exact hq
  | stop =>
    obtain ⟨-, ⟨⟩⟩ := Option.ite_none_left_eq_some.mp h
    rfl
  | stopReturned =>
    obtain ⟨-, ⟨⟩⟩ := Option.ite_none_right_eq_some.mp h
    exact hq
  | waitForTask | look _ _ | leave | checkRunning | startTask | taskReturned _ | recheckRunning
  | recheckCancelled | requeue _ => exact absurd hl (loopStep_move h).not_exited

theorem drained_run {s t : Scheduler w} {labels : List (Label w)} (hl : s.loop = .exited)
    (hq : s.queue = []) (hlabels : labels.countP IsPush = 0) (h : run s labels = some t) :
    t.queue = [] := by
  have hall := Machine.run_history (I := fun labels t =>
    labels.countP IsPush = 0 → t.loop = .exited ∧ t.queue = []) ?_ (fun _ => ⟨hl, hq⟩) h hlabels
  · exact hall.2
  · intro labels u label u' hI hs hnone
    rw [List.countP_append, List.countP_singleton, Nat.add_eq_zero_iff] at hnone
    obtain ⟨hl, hq⟩ := hI hnone.1
    have hlabel : IsPush label = false := by
      cases hp : IsPush label with
      | false => rfl
      | true =>
        rw [hp] at hnone
        cases hnone.2
    exact ⟨(step_exited hl hs).1, step_drained hl hq hlabel hs⟩

theorem step_started {s s' : Scheduler w} {label : Label w} (h : step s label = some s')
    (hs : s.loop ≠ .notStarted ∨ label = .start) : s'.loop ≠ .notStarted := by
  rcases hs with hl | rfl
  · rcases step_cases h with m | ⟨hloop | ⟨hloop, -⟩, -, -⟩
    · cases m with
      | waits _ | early _ _ _ | skips _ _ _ => exact hl
      | takes | leaves | begins | passes | calls | returns | repeats | drops | forgets | keeps
      | requeues => exact nofun
    · rwa [hloop]
    · exact absurd hloop hl
  · obtain ⟨-, ⟨⟩⟩ := Option.ite_none_right_eq_some.mp h
    exact nofun

/-- The loop is exited only by leaving it. -/
theorem step_left {s s' : Scheduler w} {label : Label w} (h : step s label = some s')
    (hl : s'.loop = .exited) : s.loop = .exited ∨ label = .leave := by
  rcases step_cases h with m | ⟨hloop | ⟨-, hloop⟩, -, -⟩
  · cases m with
    | leaves _ => exact .inr rfl
    | waits _ | early _ _ _ | skips _ _ _ => exact .inl hl
    | takes | begins | passes | calls | returns | repeats | drops | forgets | keeps
    | requeues => cases hl
  · exact .inl (hloop.symm.trans hl)
  · rw [hloop] at hl
    cases hl

theorem loop_history {labels : List (Label w)} {s : Scheduler w} (h : run fresh labels = some s) :
    (.start ∈ labels → s.loop ≠ .notStarted) ∧ (s.loop = .exited → .leave ∈ labels) := by
  refine Machine.run_history (I := fun labels s =>
    (Label.start ∈ labels → s.loop ≠ .notStarted) ∧ (s.loop = .exited → Label.leave ∈ labels))
    ?_ ⟨fun hmem => (List.not_mem_nil hmem).elim, fun hl => by cases hl⟩ h
  rintro labels s label s' ⟨hstart, hleave⟩ hs
  constructor
  · intro hmem
    rcases List.mem_append.mp hmem with hold | hlast
    · exact step_started hs (.inl (hstart hold))
    · exact step_started hs (.inr (List.mem_singleton.mp hlast).symm)
  · intro hl
    rcases step_left hs hl with hold | rfl
    · exact List.mem_append_left _ (hleave hold)
    · exact List.mem_append_right _ (List.mem_singleton_self _)

/-! ## The scheduler as a whole -/

/-- What holds in a run with these labels that ends in this state. -/
structure Safe (labels : List (Label w)) (s : Scheduler w) : Prop where
  once : ((s.queue ++ s.loop.current).map Task.id).Nodup
  due : ∀ now top s', step s (.look now top) = some s' → s'.queue ≠ s.queue →
    top ∈ s.queue ∧ s'.queue = s.queue.erase top ∧ top.time ≤ now ∧
      ∀ task ∈ s.queue, top.time ≤ task.time
  cancelled : ∀ pre id post s₁, labels = pre ++ .cancel id :: post → run fresh pre = some s₁ →
    s.starts.count id ≤ s₁.starts.count id + 1
  oneShot : ∀ pre call post s₁, labels = pre ++ .allocate call :: post →
    run fresh pre = some s₁ → call.interval ≤ 0 → s.starts.count s₁.nextId ≤ 1
  stopped : ∀ pre post s₁, labels = pre ++ .stopReturned :: post → run fresh pre = some s₁ →
    .start ∈ pre → .leave ∈ pre ∧ s.starts = s₁.starts
  drained : ∀ pre post, labels = pre ++ .leave :: post → post.countP IsPush = 0 → s.queue = []

/-- The part of a run behind one of its labels. -/
theorem run_split {pre post : List (Label w)} {label : Label w} {s₁ s : Scheduler w}
    (h : run fresh (pre ++ label :: post) = some s) (h₁ : run fresh pre = some s₁) :
    ∃ s₂, step s₁ label = some s₂ ∧ run s₂ post = some s := by
  obtain ⟨u, s₂, hu, hlabel, hpost⟩ := Machine.run_append_cons.mp h
  obtain rfl := Option.some.inj (hu.symm.trans h₁)
  exact ⟨s₂, hlabel, hpost⟩

/-- **With at most as many tasks as there are ids, no id is in the queue and running at once, tasks are taken
in time and in order, a cancelled task starts once more at most, a task without interval once
at all, and after a stop that joined the thread nothing starts and nothing is left.** -/
theorem scheduler_safe {labels : List (Label w)} {s : Scheduler w} (h : run fresh labels = some s)
    (hids : labels.countP IsAllocate ≤ 2 ^ w) : Safe labels s where
  once := by
    have hnodup : ((held s).map Task.id).Nodup := by
      rw [← keys_ids]
      exact (ids_run h hids).unique
    have hsub : (s.queue ++ s.loop.current).Sublist (held s) := by
      rw [held, unstarted, Loop.current, List.append_assoc s.pending, List.append_assoc s.pending,
        ← List.append_assoc s.queue]
      exact List.sublist_append_right _ _
    exact (hsub.map Task.id).nodup hnodup
  due := fun _ _ _ hlook htook => look_due hlook htook
  cancelled := by
    rintro pre id post s₁ rfl h₁
    obtain ⟨s₂, hcancel, hpost⟩ := run_split h h₁
    obtain rfl := Option.some.inj hcancel
    exact cancelled_run hpost (List.mem_cons_self ..)
  oneShot := by
    rintro pre call post s₁ rfl h₁ hcall
    obtain ⟨s₂, hallocate, hpost⟩ := run_split h h₁
    rw [List.countP_append, List.countP_cons_of_pos rfl] at hids
    have hi := ids_run h₁ (by omega)
    have hroom : pre.countP IsAllocate < 2 ^ w := by omega
    have hr : Repeats s₂.loop := step_repeats (repeats_run (s := fresh) trivial h₁) hallocate
    have ho := oneShot_run rfl (hi.step (fun _ => hroom) hallocate) hr
      (oneShot_allocated hi hroom hcall hallocate) hpost (by omega)
    rw [hi.next]
    exact Nat.le_trans (Nat.le_add_left _ _) ho.count
  stopped := by
    rintro pre post s₁ rfl h₁ hstart
    obtain ⟨s₂, hreturned, hpost⟩ := run_split h h₁
    obtain ⟨hstarted, hleft⟩ := loop_history h₁
    obtain ⟨hcond, ⟨⟩⟩ := Option.ite_none_right_eq_some.mp hreturned
    have hl : s₁.loop = .exited := by
      have hwhere : s₁.loop = .notStarted ∨ s₁.loop = .exited := by
        simpa using (Bool.and_eq_true_iff.mp hcond).2
      exact hwhere.resolve_left (hstarted hstart)
    exact ⟨hleft hl, (exited_run (s := { s₁ with stopping := false }) hl hpost).2⟩
  drained := by
    rintro pre post rfl hnone
    obtain ⟨s₁, s₂, -, hleave, hpost⟩ := Machine.run_append_cons.mp h
    cases loopStep_move hleave with
    | leaves _ => exact drained_run rfl rfl hnone hpost

/-- A repeating task that is cancelled while its function runs, and then a stop. -/
def cancelledWhileRunning : List (Label 32) :=
  [.start, .allocate (.every 10 0), .push 0, .look 0 ⟨0, 10, 1⟩, .checkRunning, .startTask,
    .cancel 1, .taskReturned true, .recheckRunning, .recheckCancelled, .stop, .leave,
    .stopReturned]

theorem scheduler_safe_cancelled :
    ∃ s, run fresh cancelledWhileRunning = some s ∧ s.starts = [1] ∧
      Safe cancelledWhileRunning s :=
  ⟨_, rfl, rfl, scheduler_safe rfl (by decide)⟩

/-- This many `schedule` calls, one after the other. -/
def scheduleCalls (n : Nat) : List (Label w) :=
  (List.replicate n [Label.allocate (.onceAt 0), Label.push 0]).flatten

theorem run_scheduleCalls (n : Nat) :
    run fresh (scheduleCalls n) = some { fresh with
      queue := ((List.range n).map fun k => (⟨0, 0, Counter.ident k⟩ : Task w)).reverse
      nextId := Counter.ident n } := by
  induction n with
  | zero => rfl
  | succ n ih =>
    have hlast : scheduleCalls (w := w) (n + 1) =
        scheduleCalls n ++ [Label.allocate (.onceAt 0), Label.push 0] := by
      rw [scheduleCalls, List.replicate_succ', List.flatten_append]
      rfl
    rw [hlast, run, Machine.run_append, ← run, ih, Option.bind_some, List.range_succ,
      List.map_append, List.reverse_append, Counter.ident_succ]
    rfl

theorem scheduleCalls_collide {n : Nat} (hn : 2 ^ w < n) :
    ∃ s : Scheduler w, run fresh (scheduleCalls n) = some s ∧
      ¬ ((s.queue ++ s.loop.current).map Task.id).Nodup := by
  refine ⟨_, run_scheduleCalls n, fun hnodup => ?_⟩
  rw [show Loop.current fresh.loop = [] from rfl, List.append_nil, List.map_reverse,
    List.nodup_reverse, List.map_map] at hnodup
  have hzero : 0 ∈ List.range n := List.mem_range.mpr (Nat.zero_lt_of_lt hn)
  have hlast : 2 ^ w ∈ List.range n := List.mem_range.mpr hn
  have heq := List.inj_on_of_nodup_map hnodup hzero hlast Counter.ident_round.symm
  exact absurd heq (Nat.two_pow_pos w).ne

/-- An id is in the queue twice after 2 ^ 32 more calls; a task of a call that overlaps with
the stop is left in the queue; and a stop before the start keeps nothing from starting. -/
theorem scheduler_unsafe :
    (∃ (labels : List (Label 32)) (s : Scheduler 32), run fresh labels = some s ∧
      ¬ ((s.queue ++ s.loop.current).map Task.id).Nodup) ∧
    (∃ (pre : List (Label 32)) (s : Scheduler 32), .start ∈ pre ∧
      run fresh (pre ++ [.stopReturned]) = some s ∧ s.queue ≠ []) ∧
    (∃ (pre post : List (Label 32)) (s₁ s : Scheduler 32),
      run fresh (pre ++ [.stopReturned]) = some s₁ ∧ run s₁ post = some s ∧
      s.starts ≠ s₁.starts) := by
  exact ⟨⟨_, scheduleCalls_collide (Nat.lt_succ_self (2 ^ 32))⟩,
    ⟨[.start, .allocate (.onceAt 0), .stop, .leave, .push 0], _, by decide, rfl, by decide⟩,
    ⟨[.stop], [.start, .allocate (.onceAt 0), .push 0, .look 0 ⟨0, 0, 1⟩, .checkRunning,
      .startTask], _, _, rfl, rfl, by decide⟩⟩

end MuonDetector.Core.Scheduler
