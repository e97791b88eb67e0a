import MuonDetector.Library.Bytes
import MuonDetector.Library.Machine

/-!
# Commands to the SDS011

`setMode` and `query` assemble frames of 19 bytes and post them to the transmit
strand, which queues them behind the write at hand. Whether one is outstanding is
read off the queue. A write that fails leaves its frame at the front and starts no
other.
-/

namespace MuonDetector.Sds011.Commands

open MuonDetector.Library MuonDetector.Library.Bytes

inductive Mode where
  | continuous
  | sleep
  | interval
  deriving DecidableEq, Repr

inductive CommandType where
  | reportingMode
  | queryData
  | deviceID
  | sleepAndWork
  | firmwareVersion
  | workingPeriod
  deriving DecidableEq, Repr

def CommandType.value : CommandType → UInt8
  | reportingMode => 2
  | queryData => 4
  | deviceID => 5
  | sleepAndWork => 6
  | firmwareVersion => 7
  | workingPeriod => 8

/-- The transmit side of the driver, with the handlers that wait on its strand, the writes
that have been started and not completed, and the frames whose write has completed. -/
structure Sds011Driver where
  posted : List (List UInt8) := []
  txQueue : List (List UInt8) := []
  pendingWrites : List (List UInt8) := []
  written : List (List UInt8) := []
  deriving DecidableEq, Repr

/-! ## The queue -/

def doWrite (s : Sds011Driver) : Sds011Driver :=
  match s.txQueue with
  | [] => s
  | msg :: _ => { s with pendingWrites := s.pendingWrites ++ [msg] }

def enqueueMessage (s : Sds011Driver) (msg : List UInt8) : Sds011Driver :=
  { s with posted := s.posted ++ [msg] }

/-- The handler that `enqueueMessage` posts. -/
def onPosted (s : Sds011Driver) (msg : List UInt8) : Sds011Driver :=
  let writeInProgress := !s.txQueue.isEmpty
  let s := { s with txQueue := s.txQueue ++ [msg] }
  if !writeInProgress then doWrite s else s

/-- The completion handler of `do_write`. -/
def onWrite (s : Sds011Driver) (msg : List UInt8) (ok : Bool) : Sds011Driver :=
  if ok then
    let s := { s with txQueue := s.txQueue.tail, written := s.written ++ [msg] }
    if s.txQueue.isEmpty then s else doWrite s
  else s

/-! ## The frames as they are assembled -/

def workingPeriodPayload (modeByte : UInt8) : List UInt8 :=
  let checksum : UInt8 := 0 + 0x08 + 0x01 + modeByte + 0xff + 0xff
  [0xAA, 0xB4, 0x08, 0x01, modeByte] ++ List.replicate 10 0 ++ [0xFF, 0xFF, checksum, 0xAB]

def sleepPayload (sleepByte : UInt8) : List UInt8 :=
  let checksum : UInt8 := 0 + 0x06 + 0x01 + sleepByte + 0xff + 0xff
  [0xAA, 0xB4, 0x06, 0x01, sleepByte] ++ List.replicate 10 0 ++ [0xFF, 0xFF, checksum, 0xAB]

def queryPayload (type : CommandType) : List UInt8 :=
  let checksum : UInt8 := 0 + type.value + 0xff + 0xff
  [0xAA, 0xB4, type.value] ++ List.replicate 12 0 ++ [0xFF, 0xFF, checksum, 0xAB]

/-- What `setMode` does after its switch. -/
def sendMode (s : Sds011Driver) (modeByte : UInt8) (sleep : Bool) : Sds011Driver :=
  let s := if sleep = false then enqueueMessage s (workingPeriodPayload modeByte) else s
  enqueueMessage s (sleepPayload (if sleep then 0x00 else 0x01))

def setMode (s : Sds011Driver) (mode : Mode) (_nSleep : UInt8) : Sds011Driver :=
  match mode with
  | .continuous => sendMode s 0x00 false
  | .sleep => sendMode s 0x00 true
  -- `modeByte = n_sleep` is followed by the `return` of the default case
  | .interval => s

def query (s : Sds011Driver) (type : CommandType) : Sds011Driver :=
  enqueueMessage s (queryPayload type)

/-! ## Runs -/

inductive Event where
  | setMode (mode : Mode) (nSleep : UInt8)
  | query (type : CommandType)
  /-- The strand runs the handler that was posted first. -/
  | strand
  | writeDone (msg : List UInt8) (ok : Bool)
  deriving DecidableEq, Repr

def step (s : Sds011Driver) : Event → Option Sds011Driver
  | .setMode mode nSleep => some (setMode s mode nSleep)
  | .query type => some (query s type)
  | .strand =>
    match s.posted with
    | [] => none
    | msg :: rest => some (onPosted { s with posted := rest } msg)
  | .writeDone msg ok =>
    if msg ∈ s.pendingWrites then
      some (onWrite { s with pendingWrites := s.pendingWrites.erase msg } msg ok)
    else none

/-- The call that the constructor makes once the port is open. -/
def firstCall (nSleep : UInt8) : Event :=
  if nSleep = 0 then .setMode .continuous 1 else .setMode .interval nSleep

/-! ## What a call asks for -/

/-- A frame from the host: sync bytes, command, 14 bytes of arguments, checksum and tail. -/
def hostFrame (command : CommandType) (args : List UInt8) : List UInt8 :=
  let body := [command.value] ++ args ++ List.replicate (12 - args.length) 0 ++ [0xFF, 0xFF]
  [0xAA, 0xB4] ++ body ++ [byteSum body, 0xAB]

structure WellFormed (f : List UInt8) : Prop where
  length : f.length = 19
  sync : f.take 2 = [0xAA, 0xB4]
  checksum : f[17]? = some (byteSum ((f.drop 2).take 15))
  tail : f[18]? = some 0xAB

theorem hostFrame_wellFormed (command : CommandType) {args : List UInt8}
    (h : args.length ≤ 12) : WellFormed (hostFrame command args) := by
  let body := [command.value] ++ args ++ List.replicate (12 - args.length) 0 ++ [0xFF, 0xFF]
  have hbody : body.length = 15 := by
    simp [body]
    omega
  have hframe : hostFrame command args = [0xAA, 0xB4] ++ (body ++ [byteSum body, 0xAB]) := by
    simp only [hostFrame, body, List.append_assoc]
  have hdrop : (hostFrame command args).drop 2 = body ++ [byteSum body, 0xAB] := by rw [hframe]; rfl
  have hindex : ∀ i, (hostFrame command args)[17 + i]? = [byteSum body, 0xAB][i]? := by
    intro i
    rw [hframe, List.getElem?_append_right (by simp; omega),
      List.getElem?_append_right (by simp [hbody]; omega)]
    congr 1
    simp [hbody]
    omega
  refine ⟨?_, by rw [hframe]; rfl, ?_, hindex 1⟩
  · rw [hframe]
    simp [hbody]
  · rw [hdrop, List.take_append_of_le_length (by omega), List.take_of_length_le (by omega)]
    exact hindex 0

/-- The frames that a call is to bring to the sensor. -/
def wanted : Event → List (List UInt8)
  | .setMode .continuous _ => [hostFrame .workingPeriod [1, 0], hostFrame .sleepAndWork [1, 1]]
  | .setMode .interval n => [hostFrame .workingPeriod [1, n], hostFrame .sleepAndWork [1, 1]]
  | .setMode .sleep _ => [hostFrame .sleepAndWork [1, 0]]
  | .query type => [hostFrame type []]
  | .strand => []
  | .writeDone _ _ => []

def wantedFrames (es : List Event) : List (List UInt8) := es.flatMap wanted

theorem wantedFrames_wellFormed (es : List Event) : ∀ f ∈ wantedFrames es, WellFormed f := by
  intro f hf
  obtain ⟨e, -, he⟩ := List.mem_flatMap.mp hf
  match e with
  | .setMode .continuous _ | .setMode .interval _ =>
    rcases List.mem_pair.mp he with rfl | rfl <;> exact hostFrame_wellFormed _ (by simp)
  | .setMode .sleep _ | .query _ =>
    rw [List.mem_singleton.mp he]
    exact hostFrame_wellFormed _ (by simp)
  | .strand | .writeDone _ _ => simp [wanted] at he

/-! ## What a call sends -/

/-- The frames that the code posts for a call. -/
def sent : Event → List (List UInt8)
  | .setMode .continuous _ => [workingPeriodPayload 0, sleepPayload 1]
  | .setMode .interval _ => []
  | .setMode .sleep _ => [sleepPayload 0]
  | .query type => [queryPayload type]
  | .strand => []
  | .writeDone _ _ => []

def sentFrames (es : List Event) : List (List UInt8) := es.flatMap sent

def IsInterval : Event → Prop
  | .setMode .interval _ => True
  | .setMode .continuous _ => False
  | .setMode .sleep _ => False
  | .query _ => False
  | .strand => False
  | .writeDone _ _ => False

instance : DecidablePred IsInterval
  | .setMode .interval _ => .isTrue trivial
  | .setMode .continuous _ => .isFalse id
  | .setMode .sleep _ => .isFalse id
  | .query _ => .isFalse id
  | .strand => .isFalse id
  | .writeDone _ _ => .isFalse id

def IsWriteError : Event → Prop
  | .writeDone _ ok => ok = false
  | .setMode _ _ => False
  | .query _ => False
  | .strand => False

theorem queryPayload_eq (type : CommandType) : queryPayload type = hostFrame type [] := by
  cases type <;> decide

/-- The only call that sends something else than it is to send is that of the interval mode. -/
theorem sent_eq_wanted {e : Event} (h : ¬ IsInterval e) : sent e = wanted e := by
  match e, h with
  | .setMode .continuous _, _ => rfl
  | .setMode .sleep _, _ => rfl
  | .setMode .interval _, h => exact absurd trivial h
  | .query type, _ => exact congrArg (fun f => [f]) (queryPayload_eq type)
  | .strand, _ => rfl
  | .writeDone _ _, _ => rfl

theorem sent_of_interval {e : Event} (h : IsInterval e) : sent e = [] ∧ (wanted e).length = 2 := by
  match e, h with
  | .setMode .interval _, _ => exact ⟨rfl, rfl⟩

/-- Every call of the interval mode leaves two frames out. -/
theorem wantedFrames_length (es : List Event) :
    (wantedFrames es).length = (sentFrames es).length + 2 * es.countP IsInterval := by
  induction es with
  | nil => rfl
  | cons e es ih =>
    rw [wantedFrames, sentFrames] at ih ⊢
    rw [List.flatMap_cons, List.flatMap_cons, List.length_append, List.length_append, ih,
      List.countP_cons]
    by_cases h : IsInterval e
    · obtain ⟨hnone, htwo⟩ := sent_of_interval h
      simp only [hnone, htwo, h, List.length_nil, decide_true, if_true]
      omega
    · simp only [sent_eq_wanted h, h, decide_false]
      simp
      omega

theorem sentFrames_eq_wantedFrames {es : List Event} :
    sentFrames es = wantedFrames es ↔ ∀ e ∈ es, ¬ IsInterval e := by
  constructor
  · intro h e he hi
    have hlen := wantedFrames_length es
    rw [← h] at hlen
    have hzero : es.countP IsInterval = 0 := by omega
    rw [List.countP_eq_zero] at hzero
    exact hzero e he (decide_eq_true hi)
  · intro h
    exact List.flatMap_congr fun e he => sent_eq_wanted (h e he)

theorem setMode_eq (s : Sds011Driver) (mode : Mode) (nSleep : UInt8) :
    setMode s mode nSleep = { s with posted := s.posted ++ sent (.setMode mode nSleep) } := by
  cases mode with
  | continuous => simp [setMode, sendMode, enqueueMessage, sent]
  | sleep => simp [setMode, sendMode, enqueueMessage, sent]
  | interval => simp [setMode, sent]

/-! ## The invariant of the queue -/

/-- The outstanding write is the front of the queue, unless a write has failed. -/
structure QueueInvariant (es : List Event) (s : Sds011Driver) : Prop where
  sent : s.written ++ s.txQueue ++ s.posted = sentFrames es
  outstanding : s.pendingWrites = s.txQueue.head?.toList ∨
    (s.pendingWrites = [] ∧ s.txQueue ≠ [] ∧ ∃ e ∈ es, IsWriteError e)

theorem sentFrames_append (es : List Event) (e : Event) :
    sentFrames (es ++ [e]) = sentFrames es ++ Commands.sent e := by
  simp [sentFrames]

theorem QueueInvariant.post {es : List Event} {s : Sds011Driver} {e : Event}
    (hi : QueueInvariant es s) :
    QueueInvariant (es ++ [e]) { s with posted := s.posted ++ Commands.sent e } := by
  refine ⟨?_, hi.outstanding.imp_right ?_⟩
  · rw [sentFrames_append, ← hi.sent, List.append_assoc, List.append_assoc, List.append_assoc]
  · rintro ⟨hnone, hne, e', he', herr⟩
    exact ⟨hnone, hne, e', by simp [he'], herr⟩

theorem QueueInvariant.strand {es : List Event} {s : Sds011Driver} {msg : List UInt8}
    {rest : List (List UInt8)} (hi : QueueInvariant es s) (hs : s.posted = msg :: rest) :
    QueueInvariant (es ++ [.strand]) (onPosted { s with posted := rest } msg) := by
  have hsent : s.written ++ (s.txQueue ++ [msg]) ++ rest = sentFrames (es ++ [.strand]) := by
    rw [sentFrames_append, ← hi.sent, hs]
    simp [Commands.sent]
  by_cases hq : s.txQueue = []
  · rcases hi.outstanding with hout | ⟨-, hne, -⟩
    · rw [hq] at hsent hout
      have hpush : onPosted { s with posted := rest } msg =
          { s with
            posted := rest
            txQueue := [msg]
            pendingWrites := s.pendingWrites ++ [msg] } := by
        simp [onPosted, doWrite, hq]
      rw [hpush]
      exact ⟨hsent, Or.inl (by simp [hout])⟩
    · exact absurd hq hne
  · have hpush : onPosted { s with posted := rest } msg =
        { s with posted := rest, txQueue := s.txQueue ++ [msg] } := by
      simp [onPosted, hq]
    rw [hpush]
    refine ⟨hsent, hi.outstanding.imp ?_ ?_⟩
    · intro hout
      rw [hout, List.head?_append_of_ne_nil _ hq]
    · rintro ⟨hnone, -, e, he, herr⟩
      exact ⟨hnone, by simp, e, by simp [he], herr⟩

theorem QueueInvariant.writeDone {es : List Event} {s : Sds011Driver} {msg : List UInt8}
    (hi : QueueInvariant es s) (hmsg : msg ∈ s.pendingWrites) (ok : Bool) :
    QueueInvariant (es ++ [.writeDone msg ok])
      (onWrite { s with pendingWrites := s.pendingWrites.erase msg } msg ok) := by
  have hsame : sentFrames (es ++ [.writeDone msg ok]) = sentFrames es := by
    rw [sentFrames_append]
    exact List.append_nil _
  rcases hi.outstanding with hout | ⟨hnone, -, -⟩
  · have hne : s.txQueue ≠ [] := by
      intro hq
      simp [hout, hq] at hmsg
    obtain ⟨front, queue, hq⟩ := List.exists_cons_of_ne_nil hne
    have hsent := hi.sent
    rw [hq] at hout hsent
    obtain rfl : msg = front := by simpa [hout] using hmsg
    have herase : s.pendingWrites.erase msg = [] := by simp [hout]
    cases ok with
    | false =>
      exact ⟨by rw [hsame]; exact hi.sent, Or.inr ⟨herase, hne, .writeDone msg false, by simp, rfl⟩⟩
    | true =>
      have hdone : s.written ++ [msg] ++ queue ++ s.posted = sentFrames es := by
        rw [← hsent]
        simp
      cases queue with
      | nil =>
        exact ⟨by rw [hsame, ← hdone]; simp [onWrite, hq], Or.inl (by simp [onWrite, hq, herase])⟩
      | cons next queue =>
        exact ⟨by rw [hsame, ← hdone]; simp [onWrite, doWrite, hq],
          Or.inl (by simp [onWrite, doWrite, hq, herase])⟩
  · simp [hnone] at hmsg

theorem QueueInvariant.step {es : List Event} {s s' : Sds011Driver} {e : Event}
    (hi : QueueInvariant es s) (h : Commands.step s e = some s') :
    QueueInvariant (es ++ [e]) s' := by
  cases e with
  | setMode mode nSleep =>
    obtain rfl := Option.some.inj h
    rw [setMode_eq]
    exact hi.post
  | query type =>
    obtain rfl := Option.some.inj h
    exact hi.post
  | strand =>
    cases hs : s.posted with
    | nil => simp [Commands.step, hs] at h
    | cons msg rest =>
      simp only [Commands.step, hs, Option.some.injEq] at h
      subst h
      exact hi.strand hs
  | writeDone msg ok =>
    simp only [Commands.step, Option.ite_none_right_eq_some, Option.some.injEq] at h
    obtain ⟨hmsg, rfl⟩ := h
    exact hi.writeDone hmsg ok

theorem queueInvariant_run {es : List Event} {s : Sds011Driver}
    (h : Machine.run step {} es = some s) : QueueInvariant es s :=
  Machine.run_history (I := QueueInvariant) (fun _ _ _ _ hi hs => hi.step hs)
    ⟨rfl, Or.inl rfl⟩ h

/-! ## What reaches the sensor -/

/-- The frames of the calls `es` go to the sensor in order, one write at a time. -/
structure Delivers (es : List Event) (s : Sds011Driver) : Prop where
  wellFormed : ∀ f ∈ wantedFrames es, WellFormed f
  atMostOne : s.pendingWrites.length ≤ 1
  front : ∀ f ∈ s.pendingWrites, s.txQueue.head? = some f
  accounted : s.written ++ s.txQueue ++ s.posted = wantedFrames es
  complete : (∀ e ∈ es, ¬ IsWriteError e) → s.posted = [] → s.pendingWrites = [] →
    s.written.flatten = (wantedFrames es).flatten

theorem QueueInvariant.delivers {es : List Event} {s : Sds011Driver} (hi : QueueInvariant es s)
    (h : ∀ e ∈ es, ¬ IsInterval e) : Delivers es s where
  wellFormed := wantedFrames_wellFormed es
  atMostOne := by
    rcases hi.outstanding with hout | ⟨hnone, -⟩
    · rw [hout]
      cases s.txQueue <;> simp
    · simp [hnone]
  front f hf := by
    rcases hi.outstanding with hout | ⟨hnone, -⟩
    · simpa [hout] using hf
    · simp [hnone] at hf
  accounted := hi.sent.trans (sentFrames_eq_wantedFrames.mpr h)
  complete hok hposted hpending := by
    rcases hi.outstanding with hout | ⟨-, -, e, he, herr⟩
    · have hempty : s.txQueue = [] := by simpa [hpending] using hout.symm
      have hsent := hi.sent
      rw [hempty, hposted, List.append_nil, List.append_nil,
        sentFrames_eq_wantedFrames.mpr h] at hsent
      rw [hsent]
    · exact absurd herr (hok e he)

/-- **The frames that the calls ask for are written in order, one at a time, in exactly the
runs without a call of the interval mode.** -/
theorem commands_delivered_iff (es : List Event) (s : Sds011Driver)
    (h : Machine.run step {} es = some s) :
    Delivers es s ↔ ∀ e ∈ es, ¬ IsInterval e := by
  have hi := queueInvariant_run h
  constructor
  · intro hd
    exact sentFrames_eq_wantedFrames.mp (hi.sent.symm.trans hd.accounted)
  · exact hi.delivers

/-- Two calls, the second while the first frame of the first is being written. -/
theorem commands_delivered_iff_overlap :
    Delivers [.setMode .continuous 1, .strand, .query .queryData,
        .writeDone (workingPeriodPayload 0) true, .strand, .strand]
      { txQueue := [sleepPayload 1, queryPayload .queryData], pendingWrites := [sleepPayload 1],
        written := [workingPeriodPayload 0] } ↔
    ∀ e ∈ [Event.setMode .continuous 1, .strand, .query .queryData,
        .writeDone (workingPeriodPayload 0) true, .strand, .strand], ¬ IsInterval e :=
  commands_delivered_iff _ _ (by decide)

/-- The call that the constructor makes for five minutes of sleep sends nothing. -/
theorem interval_not_delivered :
    ¬ ∀ es s, Machine.run step {} es = some s → Delivers es s := by
  intro h
  have hd := h [firstCall 5] {} rfl
  exact absurd (hd.complete (by simp [firstCall, IsWriteError]) rfl rfl) (by decide)

end MuonDetector.Sds011.Commands
