import MuonDetector.Library.Machine
import MuonDetector.Core.ThreadPool
import MuonDetector.Data.Events
import MuonDetector.Ublox.Events
import Mathlib.Data.List.Induction
import Mathlib.Data.List.Nodup
import Mathlib.Logic.Function.Basic

/-!
# Updates of a container in the data store

A handler that updates one entry of a stored container asks the data store whether there
is a container, copies it, and stores the copy with the entry set. Each of the three takes
the lock of the data store for itself, so other handlers may come in between. No update is
lost as long as no handler stores while another one has a copy in hand.
-/

namespace MuonDetector.Core.DataStore

open scoped List
open MuonDetector.Library MuonDetector.Library.Machine
open MuonDetector.Data.Events (PreampSwitchEvent)
open MuonDetector.Ublox.Events

/-! ## The model -/

/-- What the handlers of one kind do with an event and a container. -/
structure Handler (ε σ ω : Type) where
  ignored : ε → Bool := fun _ => false
  first : ε → σ
  update : σ → ε → σ
  announce : Option σ → ε → List ω

/-- How far a handler is. -/
inductive Stage (σ ω : Type) where
  /-- before `lastUpdate` -/
  | entered
  /-- `lastUpdate` had a value -/
  | found
  /-- `lastUpdate` had none -/
  | absent
  /-- `get` gave a container, and this is the copy -/
  | copied (data : σ)
  /-- the container is stored -/
  | stored (events : List ω)
  deriving DecidableEq, Repr

structure Job (ε σ ω : Type) where
  event : ε
  stage : Stage σ ω := .entered
  deriving DecidableEq, Repr

/-- The stored container with the handlers that update it. `published` has what the
handlers published, `received` the events they are for and `updates` those whose
container is stored, in that order. -/
structure World (ε σ ω : Type) where
  data : Option σ := none
  pool : ThreadPool (Job ε σ ω)
  published : List ω := []
  received : List ε := []
  updates : List ε := []

/-- What can happen next: an event comes, a worker takes a handler, and a worker goes to
the next point at which another one may come in. -/
inductive Label (ε : Type) where
  | receive (event : ε)
  | take (w : Nat)
  | run (w : Nat)
  deriving DecidableEq, Repr

variable {ε σ ω : Type}

def receive (s : World ε σ ω) (event : ε) : World ε σ ω :=
  { s with pool := s.pool.enqueue { event := event }, received := s.received ++ [event] }

/-- The worker goes on with its handler. -/
def goOn (s : World ε σ ω) (w : Nat) (event : ε) (stage : Stage σ ω) : World ε σ ω :=
  { s with pool := s.pool.set w (some ⟨event, stage⟩) }

/-- The worker comes back from its handler. -/
def goBack (s : World ε σ ω) (w : Nat) : World ε σ ω := { s with pool := s.pool.set w none }

/-- `store`. -/
def store (s : World ε σ ω) (event : ε) (data : σ) : World ε σ ω :=
  { s with data := some data, updates := s.updates ++ [event] }

/-- The next step of a handler. Without a container `get` gives a null pointer. -/
def runHandler (h : Handler ε σ ω) (s : World ε σ ω) (w : Nat) : Option (World ε σ ω) :=
  match s.pool.task? w with
  | none => none
  | some ⟨event, .entered⟩ => some (
      if h.ignored event then goBack s w
      else if s.data.isSome then goOn s w event .found else goOn s w event .absent)
  | some ⟨event, .found⟩ => s.data.map fun data => goOn s w event (.copied data)
  | some ⟨event, .copied data⟩ => some (
      goOn (store s event (h.update data event)) w event (.stored (h.announce (some data) event)))
  | some ⟨event, .absent⟩ => some (
      goOn (store s event (h.first event)) w event (.stored (h.announce none event)))
  | some ⟨_, .stored events⟩ => some { goBack s w with published := s.published ++ events }

def step (h : Handler ε σ ω) (s : World ε σ ω) : Label ε → Option (World ε σ ω)
  | .receive event => some (receive s event)
  | .take w => (s.pool.take w).map fun pool => { s with pool := pool }
  | .run w => runHandler h s w

def start (numThreads : Nat) (data : Option σ) : World ε σ ω :=
  { pool := ThreadPool.start numThreads, data := data }

/-! ## The handlers -/

/-- `std::unordered_map<std::uint16_t, CfgMsg>`, as its `find`. -/
abbrev UbxMsgRates := UInt16 → Option CfgMsg

def insertOrAssign (data : UbxMsgRates) (msg : CfgMsg) : UbxMsgRates :=
  Function.update data msg.msgID (some msg)

/-- The handler of `DatastoreStoreEvent<CfgMsg>`. It publishes the message if its rate is
another one than before. -/
def cfgMsgHandler : Handler CfgMsg UbxMsgRates CfgMsg where
  first := insertOrAssign fun _ => none
  update := insertOrAssign
  announce
    | none, msg => [msg]
    | some data, msg =>
      let changed := match data msg.msgID with
        | some old => old.rate != msg.rate
        | none => true
      if changed then [msg] else []

def setChannel (data : Vector PreampSwitchEvent 2) (event : PreampSwitchEvent) :
    Vector PreampSwitchEvent 2 :=
  data.setIfInBounds event.channel.toNat event

def firstEntry (data : Vector PreampSwitchEvent 2) : PreampSwitchEvent := data[0]
def secondEntry (data : Vector PreampSwitchEvent 2) : PreampSwitchEvent := data[1]

inductive PreampSwitchRequestCmd where
  | request
  deriving DecidableEq, Repr

/-- The handler of `DatastoreStoreEvent<PreampSwitchEvent>`. -/
def preampSwitchHandler :
    Handler PreampSwitchEvent (Vector PreampSwitchEvent 2) PreampSwitchRequestCmd where
  ignored event := event.channel > 1
  first := setChannel (Vector.replicate 2 {})
  update := setChannel
  announce
    | none, _ => []
    | some _, _ => [.request]

/-! ## The property -/

/-- A handler that has seen the container and has not stored its own yet. -/
def Stage.inHand : Stage σ ω → Bool
  | .absent | .copied _ => true
  | .entered | .found | .stored _ => false

/-- A handler stores when no other one has the container in hand. -/
def Alone (s : World ε σ ω) : Label ε → Prop
  | .run w => ∀ job ∈ s.pool.task? w, job.stage.inHand = true →
      (s.pool.held.filter fun job => job.stage.inHand).length ≤ 1
  | _ => True

instance Alone.decidable (s : World ε σ ω) : ∀ l, Decidable (Alone s l)
  | .run w => inferInstanceAs (Decidable (∀ job ∈ s.pool.task? w, _ = true → _ ≤ 1))
  | .receive _ | .take _ => .isTrue trivial

/-- The handler works on one entry for each event, and leaves the others as they are. -/
structure Keyed {κ : Type} (h : Handler ε σ ω) (key : ε → κ) (Holds : σ → ε → Prop) : Prop where
  first : ∀ e, h.ignored e = false → Holds (h.first e) e
  update : ∀ data e, h.ignored e = false → Holds (h.update data e) e
  keeps : ∀ data e e', key e ≠ key e' → Holds data e → Holds (h.update data e') e

theorem keyed_cfgMsg :
    Keyed cfgMsgHandler CfgMsg.msgID fun data msg => data msg.msgID = some msg where
  first msg _ := by
    show Function.update (fun _ => none) msg.msgID (some msg) msg.msgID = some msg
    exact Function.update_self ..
  update data msg _ := by
    show Function.update data msg.msgID (some msg) msg.msgID = some msg
    exact Function.update_self ..
  keeps data msg msg' hne hmsg := by
    show Function.update data msg'.msgID (some msg') msg.msgID = some msg
    rw [Function.update_of_ne hne]
    exact hmsg

theorem keyed_preampSwitch :
    Keyed preampSwitchHandler PreampSwitchEvent.channel
      fun data event => data[event.channel.toNat]? = some event := by
  have hset : ∀ data event, preampSwitchHandler.ignored event = false →
      (setChannel data event)[event.channel.toNat]? = some event := by
    intro data event hignored
    have hle : ¬event.channel > 1 := of_decide_eq_false hignored
    have hlt : event.channel.toNat < 2 := by
      have h := UInt8.le_iff_toNat_le.mp (UInt8.not_lt.mp hle)
      exact Nat.lt_succ_of_le h
    rw [setChannel, Vector.getElem?_setIfInBounds_self]
    exact if_pos hlt
  constructor
  · exact fun event => hset _ event
  · exact fun data event => hset data event
  · intro data event event' hne hevent
    show (setChannel data event')[event.channel.toNat]? = some event
    have hne' : event'.channel.toNat ≠ event.channel.toNat := fun heq =>
      hne (UInt8.toNat_inj.mp heq.symm)
    rw [setChannel, Vector.getElem?_setIfInBounds_ne hne']
    exact hevent

/-! ## One update after the other -/

/-- What an update that nothing comes in between makes of the stored container. -/
def apply (h : Handler ε σ ω) (data : Option σ) (event : ε) : Option σ :=
  match data with
  | none => some (h.first event)
  | some data => some (h.update data event)

theorem apply_holds {κ : Type} {h : Handler ε σ ω} {key : ε → κ} {Holds : σ → ε → Prop}
    (hkeyed : Keyed h key Holds) (data : Option σ) {e : ε} (he : h.ignored e = false) :
    ∃ d ∈ apply h data e, Holds d e := by
  cases data with
  | none => exact ⟨_, rfl, hkeyed.first e he⟩
  | some d => exact ⟨_, rfl, hkeyed.update d e he⟩

/-- Updates of distinct entries, one after the other, are all there at the end. -/
theorem foldl_apply_holds {κ : Type} {h : Handler ε σ ω} {key : ε → κ} {Holds : σ → ε → Prop}
    (hkeyed : Keyed h key Holds) (data : Option σ) (events : List ε)
    (hevents : ∀ e ∈ events, h.ignored e = false) (hdistinct : (events.map key).Nodup) :
    ∀ e ∈ events, ∃ d ∈ events.foldl (apply h) data, Holds d e := by
  induction events using List.reverseRecOn with
  | nil =>
    intro e hmem
    cases hmem
  | append_singleton events last ih =>
    have hinit := fun e hmem => hevents e (List.mem_append_left _ hmem)
    rw [List.map_append, List.map_singleton, List.nodup_append] at hdistinct
    obtain ⟨hnodup, -, hlast⟩ := hdistinct
    intro e hmem
    rw [List.foldl_append]
    rcases List.mem_append.mp hmem with hmem | hmem
    · obtain ⟨d, hd, hholds⟩ := ih hinit hnodup e hmem
      refine ⟨h.update d last, ?_, hkeyed.keeps d e last ?_ hholds⟩
      · rw [hd]
        rfl
      · exact hlast _ (List.mem_map_of_mem hmem) _ (List.mem_singleton_self _)
    · rw [List.mem_singleton.mp hmem]
      exact apply_holds hkeyed _ (hevents last (by simp))

/-! ## The invariant -/

/-- A handler is at a container that nobody else has changed. -/
def UpToDate (h : Handler ε σ ω) (data : Option σ) (job : Job ε σ ω) : Prop :=
  match job.stage with
  | .entered => True
  | .found => h.ignored job.event = false ∧ data.isSome
  | .absent => h.ignored job.event = false ∧ data = none
  | .copied d => h.ignored job.event = false ∧ data = some d
  | .stored _ => True

/-- An event that is still to be stored. -/
def pending (h : Handler ε σ ω) (job : Job ε σ ω) : List ε :=
  match job.stage with
  | .stored _ => []
  | _ => if h.ignored job.event then [] else [job.event]

structure Serial (h : Handler ε σ ω) (init : Option σ) (s : World ε σ ω) : Prop where
  running : s.pool.running = true
  data : s.data = s.updates.foldl (apply h) init
  upToDate : ∀ job ∈ s.pool.held, UpToDate h s.data job
  account : (s.updates ++ s.pool.held.flatMap (pending h)).Perm
    (s.received.filter fun e => !h.ignored e)

theorem serial_start (h : Handler ε σ ω) (numThreads : Nat) (data : Option σ) :
    Serial h data (start numThreads data) := by
  have hheld : (start numThreads data : World ε σ ω).pool.held = [] := by
    simp [start, ThreadPool.start, ThreadPool.held, ThreadPool.busy]
  refine ⟨rfl, rfl, ?_, ?_⟩
  · rw [hheld]
    exact fun job hmem => by cases hmem
  · rw [hheld]
    exact List.Perm.refl []

variable {h : Handler ε σ ω} {init : Option σ} {s s' : World ε σ ω}

/-- A worker goes on with its job, or comes back from it, with the container as it is. -/
theorem serial_set {w : Nat} {job : Job ε σ ω} (hs : Serial h init s)
    (hjob : s.pool.task? w = some job) {job' : Option (Job ε σ ω)} {published : List ω}
    (hdate : ∀ j ∈ job', UpToDate h s.data j)
    (hpending : job'.toList.flatMap (pending h) = pending h job) :
    Serial h init { s with pool := s.pool.set w job', published := published } := by
  obtain ⟨others, hold, hnew⟩ := ThreadPool.held_set hjob job'
  refine ⟨hs.running, hs.data, ?_, ?_⟩
  · intro j hmem
    rcases List.mem_append.mp (hnew.mem_iff.mp hmem) with hmem | hmem
    · exact hdate j (Option.mem_toList.mp hmem)
    · exact hs.upToDate j (hold.mem_iff.mpr (List.mem_cons_of_mem _ hmem))
  · refine List.Perm.trans (List.Perm.append_left _ ?_) hs.account
    calc (s.pool.set w job').held.flatMap (pending h)
        ~ (job'.toList ++ others).flatMap (pending h) := hnew.flatMap_right _
      _ = (job :: others).flatMap (pending h) := by
          rw [List.flatMap_append, hpending, List.flatMap_cons]
      _ ~ s.pool.held.flatMap (pending h) := (hold.flatMap_right _).symm

/-- No other handler holds a container of its own. -/
theorem not_inHand_of_alone {w : Nat} {job : Job ε σ ω} {others : List (Job ε σ ω)}
    (hjob : s.pool.task? w = some job) (halone : Alone s (.run w))
    (hinHand : job.stage.inHand = true) (hold : s.pool.held.Perm (job :: others)) :
    ∀ j ∈ others, j.stage.inHand = false := by
  have hone := halone job hjob hinHand
  have hcount := (hold.filter fun j => j.stage.inHand).length_eq
  have hcons : ((job :: others).filter fun j => j.stage.inHand) =
      job :: others.filter fun j => j.stage.inHand := List.filter_cons_of_pos hinHand
  rw [hcons, List.length_cons] at hcount
  have hnil := List.eq_nil_of_length_eq_zero
    (by omega : (others.filter fun j => j.stage.inHand).length = 0)
  intro j hmem
  have hno := List.filter_eq_nil_iff.mp hnil j hmem
  exact Bool.eq_false_iff.mpr hno

/-- A container in hand is an update still to come. -/
theorem pending_of_inHand {job : Job ε σ ω} (hinHand : job.stage.inHand = true)
    (hignored : h.ignored job.event = false) : pending h job = [job.event] := by
  rw [pending, hignored]
  cases hstage : job.stage with
  | stored _ =>
    rw [hstage] at hinHand
    cases hinHand
  | entered | found | absent | copied _ => rfl

/-- A worker stores the container it has made of the stored one. -/
theorem serial_store {w : Nat} {job : Job ε σ ω} {data : σ} {events : List ω}
    (hs : Serial h init s) (hjob : s.pool.task? w = some job)
    (halone : Alone s (.run w)) (hinHand : job.stage.inHand = true)
    (hignored : h.ignored job.event = false) (hdata : apply h s.data job.event = some data) :
    Serial h init (goOn (store s job.event data) w job.event (.stored events)) := by
  obtain ⟨others, hold, hnew⟩ := ThreadPool.held_set hjob (some ⟨job.event, .stored events⟩)
  have hother := not_inHand_of_alone hjob halone hinHand hold
  refine ⟨hs.running, ?_, ?_, ?_⟩
  · show some data = (s.updates ++ [job.event]).foldl (apply h) init
    rw [List.foldl_append, ← hs.data]
    exact hdata.symm
  · intro j hmem
    rcases List.mem_append.mp (hnew.mem_iff.mp hmem) with hmem | hmem
    · cases List.mem_singleton.mp hmem
      trivial
    · -- what the others know of the container is that there is one
      have hold := hs.upToDate j (hold.mem_iff.mpr (List.mem_cons_of_mem _ hmem))
      have hfree := hother j hmem
      rw [UpToDate] at hold ⊢
      cases hstage : j.stage with
      | entered | stored _ => trivial
      | found =>
        rw [hstage] at hold
        exact ⟨hold.1, rfl⟩
      | absent | copied _ =>
        rw [hstage] at hfree
        cases hfree
  · refine List.Perm.trans ?_ hs.account
    show ((s.updates ++ [job.event]) ++ (s.pool.set w _).held.flatMap (pending h)).Perm _
    rw [List.append_assoc]
    refine List.Perm.append_left _ ?_
    calc [job.event] ++ (s.pool.set w (some ⟨job.event, .stored events⟩)).held.flatMap (pending h)
        ~ [job.event] ++ ((some ⟨job.event, .stored events⟩ : Option (Job ε σ ω)).toList ++
            others).flatMap (pending h) := (hnew.flatMap_right _).append_left _
      _ = (job :: others).flatMap (pending h) := by
          rw [List.flatMap_cons, pending_of_inHand hinHand hignored]
          rfl
      _ ~ s.pool.held.flatMap (pending h) := (hold.flatMap_right _).symm

theorem serial_run {w : Nat} (hs : Serial h init s) (halone : Alone s (.run w))
    (hstep : runHandler h s w = some s') : Serial h init s' := by
  cases hjob : s.pool.task? w with
  | none =>
    rw [runHandler, hjob] at hstep
    cases hstep
  | some job =>
    have hdate := hs.upToDate job (ThreadPool.mem_held_of_task? hjob)
    obtain ⟨event, stage⟩ := job
    rw [runHandler, hjob] at hstep
    cases stage with
    | entered =>
      cases hstep
      cases hignored : h.ignored event with
      | true =>
        refine serial_set hs hjob (fun j hmem => by cases hmem) ?_
        simp [pending, hignored]
      | false =>
        cases hdata : s.data with
        | none =>
          refine serial_set hs hjob ?_ ?_
          · rintro j ⟨⟩
            exact ⟨hignored, hdata⟩
          · simp [pending, hignored]
        | some d =>
          refine serial_set hs hjob ?_ ?_
          · rintro j ⟨⟩
            refine ⟨hignored, ?_⟩
            rw [hdata]
            rfl
          · simp [pending, hignored]
    | found =>
      obtain ⟨hignored, -⟩ := hdate
      obtain ⟨d, hdata, rfl⟩ := Option.map_eq_some_iff.mp hstep
      refine serial_set hs hjob ?_ ?_
      · rintro j ⟨⟩
        exact ⟨hignored, hdata⟩
      · simp [pending, hignored]
    | copied d =>
      obtain ⟨hignored, hdata⟩ := hdate
      cases hstep
      refine serial_store hs hjob halone rfl hignored ?_
      rw [hdata]
      rfl
    | absent =>
      obtain ⟨hignored, hdata⟩ := hdate
      cases hstep
      refine serial_store hs hjob halone rfl hignored ?_
      rw [hdata]
      rfl
    | stored events =>
      cases hstep
      exact serial_set hs hjob (fun j hmem => by cases hmem) rfl

theorem serial_receive {event : ε} (hs : Serial h init s) :
    Serial h init (receive s event) := by
  have hnew := ThreadPool.held_enqueue hs.running ({ event := event } : Job ε σ ω)
  refine ⟨?_, hs.data, ?_, ?_⟩
  · show (s.pool.enqueue _).running = true
    rw [ThreadPool.enqueue, if_pos hs.running]
    exact hs.running
  · intro j hmem
    rcases List.mem_cons.mp (hnew.mem_iff.mp hmem) with rfl | hmem
    · trivial
    · exact hs.upToDate j hmem
  · have hpending : pending h ({ event := event } : Job ε σ ω) =
        [event].filter fun e => !h.ignored e := by
      rw [pending]
      cases hignored : h.ignored event with
      | true => simp [hignored]
      | false => simp [hignored]
    show (s.updates ++ (s.pool.enqueue _).held.flatMap (pending h)).Perm
      ((s.received ++ [event]).filter _)
    rw [List.filter_append, ← hpending]
    calc s.updates ++ (s.pool.enqueue { event := event }).held.flatMap (pending h)
        ~ s.updates ++ (pending h { event := event } ++ s.pool.held.flatMap (pending h)) :=
          (hnew.flatMap_right _).append_left _
      _ ~ s.updates ++ (s.pool.held.flatMap (pending h) ++ pending h { event := event }) :=
          List.perm_append_comm.append_left _
      _ = s.updates ++ s.pool.held.flatMap (pending h) ++ pending h { event := event } :=
          (List.append_assoc ..).symm
      _ ~ (s.received.filter fun e => !h.ignored e) ++ pending h { event := event } :=
          hs.account.append_right _

theorem serial_take {w : Nat} {pool : ThreadPool (Job ε σ ω)} (hs : Serial h init s)
    (hpool : s.pool.take w = some pool) : Serial h init { s with pool := pool } := by
  have hheld := ThreadPool.held_take hpool
  refine ⟨?_, hs.data, ?_, ?_⟩
  · obtain ⟨task, rest, -, -, rfl⟩ := ThreadPool.take_eq_some.mp hpool
    exact hs.running
  · intro j hmem
    exact hs.upToDate j (hheld.mem_iff.mp hmem)
  · exact ((hheld.flatMap_right _).append_left _).trans hs.account

/-- **One step**: as long as the handlers are alone when they store, the container is the
one that the updates make of the first one, one after the other. -/
theorem step_serial {l : Label ε} (hs : Serial h init s) (halone : Alone s l)
    (hstep : step h s l = some s') : Serial h init s' := by
  cases l with
  | receive event =>
    cases hstep
    exact serial_receive hs
  | take w =>
    obtain ⟨pool, hpool, rfl⟩ := Option.map_eq_some_iff.mp hstep
    exact serial_take hs hpool
  | run w => exact serial_run hs halone hstep

/-! ## The run -/

/-- What all handlers of a run whose steps meet the condition leave behind. -/
theorem run_holds {κ : Type} {key : ε → κ} {Holds : σ → ε → Prop} (hkeyed : Keyed h key Holds)
    {numThreads : Nat} {ls : List (Label ε)}
    (halone : Meets (step h) Alone (start numThreads init) ls)
    (hrun : run (step h) (start numThreads init) ls = some s)
    (hdistinct : (s.received.map key).Nodup) (hdone : s.pool.held = []) :
    ∀ e ∈ s.received, h.ignored e = false → ∃ d ∈ s.data, Holds d e := by
  have hs : Serial h init s := by
    refine run_history_of_meets (P := Alone) (I := fun _ s => Serial h init s) ?_
      (serial_start h numThreads init) halone hrun
    intro _ s l s' hI hl hstep
    exact step_serial hI hl hstep
  have haccount := hs.account
  rw [hdone, List.flatMap_nil, List.append_nil] at haccount
  have hevents : ∀ e ∈ s.updates, h.ignored e = false := by
    intro e hmem
    have hkept := (List.mem_filter.mp (haccount.mem_iff.mp hmem)).2
    simpa using hkept
  have hnodup : (s.updates.map key).Nodup := by
    refine (haccount.map key).nodup_iff.mpr ?_
    exact hdistinct.sublist (List.filter_sublist.map key)
  intro e hmem hignored
  rw [hs.data]
  refine foldl_apply_holds hkeyed init s.updates hevents hnodup e ?_
  refine haccount.mem_iff.mpr (List.mem_filter.mpr ⟨hmem, ?_⟩)
  rw [hignored]
  rfl

/-- A container that is there once is never taken out again. -/
def Found (s : World ε σ ω) : Prop := ∀ job ∈ s.pool.held, job.stage = .found → s.data.isSome

theorem found_set {w : Nat} {job : Job ε σ ω} (hs : Found s) (hjob : s.pool.task? w = some job)
    {job' : Option (Job ε σ ω)} {data : Option σ} (hdata : s.data.isSome → data.isSome)
    (hfound : ∀ j ∈ job', j.stage = .found → data.isSome) :
    ∀ j ∈ (s.pool.set w job').held, j.stage = .found → data.isSome := by
  obtain ⟨others, hold, hnew⟩ := ThreadPool.held_set hjob job'
  intro j hmem hstage
  rcases List.mem_append.mp (hnew.mem_iff.mp hmem) with hmem | hmem
  · exact hfound j (Option.mem_toList.mp hmem) hstage
  · exact hdata (hs j (hold.mem_iff.mpr (List.mem_cons_of_mem _ hmem)) hstage)

theorem step_found {l : Label ε} (hs : Found s) (hstep : step h s l = some s') : Found s' := by
  cases l with
  | receive event =>
    cases hstep
    intro j hmem hstage
    rcases ThreadPool.mem_held_enqueue hmem with rfl | hmem
    · cases hstage
    · exact hs j hmem hstage
  | take w =>
    obtain ⟨pool, hpool, rfl⟩ := Option.map_eq_some_iff.mp hstep
    intro j hmem
    exact hs j ((ThreadPool.held_take hpool).mem_iff.mp hmem)
  | run w =>
    rw [step] at hstep
    cases hjob : s.pool.task? w with
    | none =>
      rw [runHandler, hjob] at hstep
      cases hstep
    | some job =>
      obtain ⟨event, stage⟩ := job
      rw [runHandler, hjob] at hstep
      cases stage with
      | entered =>
        cases hstep
        split_ifs with hignored hdata
        · exact found_set hs hjob id fun j hmem => by cases hmem
        · exact found_set hs hjob id fun _ _ _ => hdata
        · exact found_set hs hjob id fun j hmem hstage => by cases hmem; cases hstage
      | found =>
        obtain ⟨d, hdata, rfl⟩ := Option.map_eq_some_iff.mp hstep
        exact found_set hs hjob id fun j hmem hstage => by cases hmem; cases hstage
      | copied _ | absent =>
        cases hstep
        exact found_set hs hjob (fun _ => rfl) fun _ _ _ => rfl
      | stored _ =>
        cases hstep
        exact found_set hs hjob id fun j hmem => by cases hmem

/-- No handler at work stops half-way: `get` gives it no null pointer. -/
def GoOn (h : Handler ε σ ω) (s : World ε σ ω) : Prop :=
  ∀ w job, s.pool.task? w = some job → step h s (.run w) ≠ none

/-- In whatever order the handlers run they go on. -/
theorem run_goOn {numThreads : Nat} {ls : List (Label ε)}
    (hrun : run (step h) (start numThreads init) ls = some s) : GoOn h s := by
  intro w job hjob
  have hs : Found s := by
    refine run_history (I := fun _ s => Found s) ?_ ?_ hrun
    · intro _ s l s' hI hstep
      exact step_found hI hstep
    · intro j hmem
      simp [start, ThreadPool.start, ThreadPool.held, ThreadPool.busy] at hmem
  obtain ⟨event, stage⟩ := job
  have hdata := hs _ (ThreadPool.mem_held_of_task? hjob)
  rw [step, runHandler, hjob]
  cases stage with
  | found =>
    obtain ⟨d, hd⟩ := Option.isSome_iff_exists.mp (hdata rfl)
    rw [hd]
    exact Option.some_ne_none _
  | entered | copied _ | absent | stored _ => exact Option.some_ne_none _

/-- **As long as no handler stores while another one has the container in hand, no update is
lost**: the handlers go on, and when all are done, the map has the entry of every `CfgMsg` event,
and the array the state of every channel that a `PreampSwitchEvent` was for. -/
theorem no_update_lost (numThreads : Nat) :
    (∀ (data : Option UbxMsgRates) (ls : List (Label CfgMsg)) (s : World CfgMsg UbxMsgRates CfgMsg),
      Meets (step cfgMsgHandler) Alone (start numThreads data) ls →
      run (step cfgMsgHandler) (start numThreads data) ls = some s →
      GoOn cfgMsgHandler s ∧
      ((s.received.map CfgMsg.msgID).Nodup → s.pool.held = [] →
        ∀ msg ∈ s.received, ∃ d ∈ s.data, d msg.msgID = some msg)) ∧
    (∀ (data : Option (Vector PreampSwitchEvent 2)) (ls : List (Label PreampSwitchEvent))
      (s : World PreampSwitchEvent (Vector PreampSwitchEvent 2) PreampSwitchRequestCmd),
      Meets (step preampSwitchHandler) Alone (start numThreads data) ls →
      run (step preampSwitchHandler) (start numThreads data) ls = some s →
      GoOn preampSwitchHandler s ∧
      ((s.received.map PreampSwitchEvent.channel).Nodup → s.pool.held = [] →
        ∀ event ∈ s.received, event.channel ≤ 1 →
          ∃ d ∈ s.data, d[event.channel.toNat]? = some event)) := by
  constructor
  · intro data ls s halone hrun
    refine ⟨run_goOn hrun, fun hdistinct hdone msg hmem => ?_⟩
    exact run_holds keyed_cfgMsg halone hrun hdistinct hdone msg hmem rfl
  · intro data ls s halone hrun
    refine ⟨run_goOn hrun, fun hdistinct hdone event hmem hchannel => ?_⟩
    refine run_holds keyed_preampSwitch halone hrun hdistinct hdone event hmem ?_
    exact decide_eq_false (UInt8.not_lt.mpr hchannel)

/-- The handler of the second event looks when the first one has stored. -/
def oneByOne {ε : Type} (e₁ e₂ : ε) : List (Label ε) :=
  [.receive e₁, .receive e₂, .take 0, .take 1, .run 0, .run 0, .run 1, .run 0, .run 1, .run 1,
    .run 1]

theorem no_update_lost_oneByOne :
    (∃ s, run (step cfgMsgHandler) (start 2 none) (oneByOne ⟨0x0107, 1⟩ ⟨0x0121, 5⟩) = some s ∧
      ∀ msg ∈ s.received, ∃ d ∈ s.data, d msg.msgID = some msg) ∧
    (∃ s, run (step preampSwitchHandler) (start 2 none) (oneByOne ⟨0, true⟩ ⟨1, true⟩) = some s ∧
      ∀ event ∈ s.received, event.channel ≤ 1 →
        ∃ d ∈ s.data, d[event.channel.toNat]? = some event) := by
  constructor
  · have halone : Meets (step cfgMsgHandler) Alone (start 2 none)
        (oneByOne ⟨0x0107, 1⟩ ⟨0x0121, 5⟩) := by
      decide
    exact ⟨_, rfl, ((no_update_lost 2).1 none _ _ halone rfl).2 (by decide) rfl⟩
  · have halone : Meets (step preampSwitchHandler) Alone (start 2 none)
        (oneByOne ⟨0, true⟩ ⟨1, true⟩) := by
      decide
    exact ⟨_, rfl, ((no_update_lost 2).2 none _ _ halone rfl).2 (by decide) rfl⟩

/-- Both handlers find no container, and each stores one of its own. -/
def overlapping {ε : Type} (e₁ e₂ : ε) : List (Label ε) :=
  [.receive e₁, .receive e₂, .take 0, .take 1, .run 0, .run 1, .run 0, .run 1, .run 0, .run 1]

theorem update_lost_overlapping :
    (∃ s, run (step cfgMsgHandler) (start 2 none) (overlapping ⟨0x0107, 1⟩ ⟨0x0121, 5⟩) = some s ∧
      (s.received.map CfgMsg.msgID).Nodup ∧ s.pool.held = [] ∧
      ¬∀ msg ∈ s.received, ∃ d ∈ s.data, d msg.msgID = some msg) ∧
    (∃ s, run (step preampSwitchHandler) (start 2 none) (overlapping ⟨0, true⟩ ⟨1, true⟩) = some s ∧
      (s.received.map PreampSwitchEvent.channel).Nodup ∧ s.pool.held = [] ∧
      ¬∀ event ∈ s.received, event.channel ≤ 1 →
        ∃ d ∈ s.data, d[event.channel.toNat]? = some event) := by
  constructor
  · refine ⟨_, rfl, by decide, rfl, ?_⟩
    intro h
    obtain ⟨d, ⟨⟩, hd⟩ := h ⟨0x0107, 1⟩ (by decide)
    revert hd
    decide
  · refine ⟨_, rfl, by decide, rfl, ?_⟩
    intro h
    obtain ⟨d, ⟨⟩, hd⟩ := h ⟨0, true⟩ (by decide) (by decide)
    revert hd
    decide

end MuonDetector.Core.DataStore
