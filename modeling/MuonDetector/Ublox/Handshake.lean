import MuonDetector.Ublox.Driver

/-!
# The handshake with the receiver

Before it takes any command the driver selects the protocol and then the rate, and
the acknowledgement of each takes it one state further. What may be written in which
state holds of what is sent in every run. Of what is written, and of the order of the
states, it holds as long as an acknowledgement that would take the driver to another state
is one that arrived and that the driver waits for, with everything written before: the
handler does not look whether anything was pending, nor how far the handshake is, and what
is sent in one state may be written in another.
-/

namespace MuonDetector.Ublox.Handshake

open MuonDetector.Library MuonDetector.Library.Machine
open MuonDetector.Ublox.Message MuonDetector.Ublox.Events MuonDetector.Ublox.Serial
open MuonDetector.Ublox.Commands MuonDetector.Ublox.Driver

/-! ## The promise -/

/-- How far the handshake is. -/
def rank : InitState → Nat
  | .connecting => 0
  | .receivedProtoAck => 1
  | .receivedRateAck => 2
  | .ready => 3

/-- The states in which a message with the given id may be sent and written. -/
def MayWrite (state : InitState) (id : UInt16) : Prop :=
  if id = MsgId.cfgPrt then state = .connecting ∨ state = .ready
  else if id = MsgId.cfgRate then state = .receivedProtoAck ∨ state = .ready
  else state = .ready

section

variable (signedChar : Bool) (settings : Settings)

/-- The state after the given labels. -/
def after (as : List Label) : Option SerialDriver :=
  run (step signedChar settings) (start signedChar settings) as

/-- The label at `i` acknowledges `id`, which was pending. -/
def AckedPending (as : List Label) (i : Nat) (id : UInt16) : Prop :=
  (∃ read, as[i]? = some (.ackAck ⟨id⟩ read)) ∧
    ∃ d ∈ after signedChar settings (as.take i), hasPending d id

structure HandshakeSafe (as : List Label) (d : SerialDriver) : Prop where
  writes : ∀ w ∈ d.written, MayWrite w.1 w.2.fullId
  forward : ∀ n, ∀ d' ∈ after signedChar settings (as.take n),
    rank d'.initState ≤ rank d.initState
  ready : d.initState = .ready → ∃ i j, i < j ∧
    AckedPending signedChar settings as i MsgId.cfgPrt ∧
    AckedPending signedChar settings as j MsgId.cfgRate

end

/-! ## The condition -/

/-- The acknowledgement that is read arrived, the driver waits for it, and everything is
written. -/
def awaited (d : SerialDriver) (event read : UInt16) : Bool :=
  event = read && hasPending d read && (unsent d).isEmpty

/-- The acknowledgement is one that the driver waits for, or does not change its state. -/
def ackFits (d : SerialDriver) (event read : UInt16) : Bool :=
  if read = MsgId.cfgPrt then
    match d.initState with
    | .connecting => awaited d event read
    | .receivedProtoAck => true
    | .receivedRateAck => false
    | .ready => true
  else if read = MsgId.cfgRate then
    match d.initState with
    | .connecting => false
    | .receivedProtoAck => awaited d event read
    | .receivedRateAck => true
    | .ready => true
  else true

def stepFits (d : SerialDriver) : Label → Bool
  | .ackAck event read => ackFits d event.msgID read.msgID
  | .command _ => true
  | .ackNak _ _ => true
  | .txTask => true
  | .writeDone => true
  | .writeError => true
  | .readDone => true
  | .readError => true
  | .retry => true

/-! ## What a step sends -/

section

variable (signedChar : Bool) (settings : Settings)

theorem mayWrite_of_isAllowed {s : SerialUblox} {msg : UbxMessage} (h : isAllowed s msg) :
    MayWrite s.initState msg.fullId := by
  have hne : MsgId.cfgRate ≠ MsgId.cfgPrt := by decide
  simp only [isAllowed, Bool.or_eq_true, Bool.and_eq_true, decide_eq_true_eq] at h
  rw [MayWrite]
  rcases h with (hready | ⟨hstate, hid⟩) | ⟨hstate, hid⟩
  · simp [hready]
  · simp [hid, hstate]
  · simp [hid, hstate, hne]

theorem mayWrite_ready (id : UInt16) : MayWrite .ready id := by
  rw [MayWrite]
  split_ifs <;> simp

theorem mayWrite_of_sends {d d' : SerialDriver} {msgs : List UbxMessage} (h : Sends d d' msgs) :
    ∀ msg ∈ msgs, MayWrite d'.initState msg.fullId :=
  fun msg hmsg => mayWrite_of_isAllowed (h.allowed msg hmsg)

/-- **What is sent is allowed in its state.** In every run, whatever is acknowledged. -/
theorem sent_allowed {as : List Label} {d : SerialDriver}
    (h : after signedChar settings as = some d) : ∀ w ∈ d.sent, MayWrite w.1 w.2.fullId := by
  have hsends : ∀ {d d' : SerialDriver} {msgs : List UbxMessage}, Sends d d' msgs →
      (∀ w ∈ d.sent, MayWrite w.1 w.2.fullId) → ∀ w ∈ d'.sent, MayWrite w.1 w.2.fullId := by
    intro d d' msgs hsends hd w hw
    rw [hsends.sent, List.mem_append] at hw
    rcases hw with hw | hw
    · exact hd w hw
    · obtain ⟨msg, hmsg, rfl⟩ := List.mem_map.mp hw
      exact mayWrite_of_sends hsends msg hmsg
  refine run_history (I := fun _ d => ∀ w ∈ d.sent, MayWrite w.1 w.2.fullId) ?_ ?_ h
  · intro _ d l d' hd hs
    obtain ⟨msgs, hsent⟩ | ⟨msgs, hwrites⟩ := step_sends signedChar settings hs
    · exact hsends hsent hd
    · rw [hwrites.sent]
      exact hd
  · obtain ⟨msgs, hsent⟩ := makeConnection_sends signedChar settings (d := {}) rfl rfl rfl
    exact hsends hsent (by simp)

/-! ## How a step changes the state of the handshake -/

/-- Only the two acknowledgements and the default command change the state. -/
theorem step_initState {d d' : SerialDriver} {l : Label}
    (hs : step signedChar settings d l = some d') :
    d'.initState = d.initState ∨
    (d.initState ≠ .ready ∧ (∃ event, l = .ackAck event ⟨MsgId.cfgPrt⟩) ∧
      d'.initState = .receivedProtoAck) ∨
    (d.initState ≠ .ready ∧ (∃ event, l = .ackAck event ⟨MsgId.cfgRate⟩) ∧
      d'.initState = .receivedRateAck) ∨
    (d.initState = .receivedRateAck ∧ d'.initState = .ready) := by
  cases l with
  | command cmd =>
    obtain ⟨p, hp, rfl⟩ | ⟨crash, -, rfl⟩ := step_command signedChar settings hs
    · have hrun : (p.run signedChar).initState = p.1.initState :=
        (performAll_performed signedChar p.1 p.2).initState
      obtain ⟨b, hb⟩ | ⟨-, hstate, b, hb⟩ := plan_state settings hp
      · left
        rw [hrun, hb]
        rfl
      · right; right; right
        refine ⟨hstate, ?_⟩
        rw [hrun, hb]
        rfl
    · exact .inl rfl
  | ackAck event read =>
    obtain ⟨id⟩ := read
    rw [step_ackAck signedChar settings hs, handleAckAck]
    split_ifs with hready hprt hrate
    · exact .inl rfl
    · subst hprt
      exact .inr (.inl ⟨hready, ⟨event, rfl⟩, rfl⟩)
    · subst hrate
      exact .inr (.inr (.inl ⟨hready, ⟨event, rfl⟩, rfl⟩))
    · exact .inl rfl
  | ackNak event read =>
    rw [step_ackNak signedChar settings hs]
    exact .inl rfl
  | txTask =>
    obtain ⟨data, rest, htasks, rfl⟩ := step_txTask signedChar settings hs
    obtain ⟨msgs, hwrites⟩ := onTxTask_writes htasks
    exact .inl hwrites.initState
  | writeDone =>
    rw [(step_writeDone signedChar settings hs).2]
    obtain ⟨msgs, hwrites⟩ := onWriteDone_writes d
    exact .inl hwrites.initState
  | writeError =>
    rw [(step_writeError signedChar settings hs).2]
    exact .inl rfl
  | readDone =>
    rw [(step_readDone signedChar settings hs).2]
    exact .inl rfl
  | readError =>
    rw [(step_readError signedChar settings hs).2]
    exact .inl rfl
  | retry =>
    rw [(step_retry signedChar settings hs).2]
    exact .inl (makeConnection_initState signedChar settings _)

/-- A step takes the driver on by the acknowledgement of `id`. -/
def Acknowledged (d : SerialDriver) (l : Label) (id : UInt16) : Prop :=
  (∃ read, l = .ackAck ⟨id⟩ read) ∧ hasPending d id = true ∧ unsent d = []

theorem acknowledged_of_awaited {d : SerialDriver} {event : UbxAckAck} {id : UInt16}
    (h : awaited d event.msgID id = true) : Acknowledged d (.ackAck event ⟨id⟩) id := by
  obtain ⟨arrived⟩ := event
  simp only [awaited, Bool.and_eq_true, decide_eq_true_eq, List.isEmpty_iff] at h
  obtain ⟨⟨rfl, hpending⟩, hunsent⟩ := h
  exact ⟨⟨_, rfl⟩, hpending, hunsent⟩

/-- A step that fits goes on in the handshake: it stays where it is, it acknowledges
what was pending, or it is the default command. -/
theorem step_of_fits {d d' : SerialDriver} {l : Label}
    (hs : step signedChar settings d l = some d') (hfits : stepFits d l = true) :
    d'.initState = d.initState ∨
    (d.initState = .connecting ∧ d'.initState = .receivedProtoAck ∧
      Acknowledged d l MsgId.cfgPrt) ∨
    (d.initState = .receivedProtoAck ∧ d'.initState = .receivedRateAck ∧
      Acknowledged d l MsgId.cfgRate) ∨
    (d.initState = .receivedRateAck ∧ d'.initState = .ready) := by
  rcases step_initState signedChar settings hs with hsame | ⟨hready, ⟨event, rfl⟩, hto⟩ |
    ⟨hready, ⟨event, rfl⟩, hto⟩ | hdone
  · exact .inl hsame
  · simp only [stepFits, ackFits, if_true] at hfits
    cases hstate : d.initState with
    | connecting =>
      rw [hstate] at hfits
      exact .inr (.inl ⟨rfl, hto, acknowledged_of_awaited hfits⟩)
    | receivedProtoAck => exact .inl hto
    | receivedRateAck =>
      rw [hstate] at hfits
      cases hfits
    | ready => exact absurd hstate hready
  · have hne : MsgId.cfgRate ≠ MsgId.cfgPrt := by decide
    simp only [stepFits, ackFits, if_neg hne, if_true] at hfits
    cases hstate : d.initState with
    | connecting =>
      rw [hstate] at hfits
      cases hfits
    | receivedProtoAck =>
      rw [hstate] at hfits
      exact .inr (.inr (.inl ⟨rfl, hto, acknowledged_of_awaited hfits⟩))
    | receivedRateAck => exact .inl hto
    | ready => exact absurd hstate hready
  · exact .inr (.inr (.inr hdone))

/-! ## What is on its way -/

/-- What was written, and what is on its way, may be written. -/
structure Sound (d : SerialDriver) : Prop where
  written : ∀ w ∈ d.written, MayWrite w.1 w.2.fullId
  unsent : ∀ msg ∈ unsent d, MayWrite d.initState msg.fullId

theorem Sound.sends {d d' : SerialDriver} {msgs : List UbxMessage} (h : Sound d)
    (hsends : Sends d d' msgs)
    (hold : ∀ msg ∈ Driver.unsent d, MayWrite d'.initState msg.fullId) : Sound d' := by
  constructor
  · rw [hsends.written]
    exact h.written
  · intro msg hmsg
    rw [hsends.unsent, List.mem_append] at hmsg
    rcases hmsg with hmsg | hmsg
    · exact hold msg hmsg
    · exact mayWrite_of_sends hsends msg hmsg

theorem Sound.writes {d d' : SerialDriver} {msgs : List UbxMessage} (h : Sound d)
    (hwrites : Writes d d' msgs) : Sound d' := by
  constructor
  · intro w hw
    rw [hwrites.written, List.mem_append] at hw
    rcases hw with hw | hw
    · exact h.written w hw
    · obtain ⟨msg, hmsg, rfl⟩ := List.mem_map.mp hw
      exact h.unsent msg (hwrites.unsent ▸ List.mem_append_left _ hmsg)
  · intro msg hmsg
    rw [hwrites.initState]
    exact h.unsent msg (hwrites.unsent ▸ List.mem_append_right _ hmsg)

theorem Sound.start : Sound (start signedChar settings) := by
  obtain ⟨msgs, hsends⟩ := makeConnection_sends signedChar settings (d := {}) rfl rfl rfl
  have hnew : Sound {} := ⟨by simp, by simp [Driver.unsent]⟩
  exact hnew.sends hsends (by simp [Driver.unsent])

/-- What is on its way may still be written after a step that fits. -/
theorem Sound.step {d d' : SerialDriver} {l : Label} (h : Sound d)
    (hfits : stepFits d l = true) (hs : step signedChar settings d l = some d') : Sound d' := by
  obtain ⟨msgs, hsends⟩ | ⟨msgs, hwrites⟩ := step_sends signedChar settings hs
  · refine h.sends hsends fun msg hmsg => ?_
    rcases step_of_fits signedChar settings hs hfits with hsame | ⟨-, -, -, -, hempty⟩ |
      ⟨-, -, -, -, hempty⟩ | ⟨-, hready⟩
    · rw [hsame]
      exact h.unsent msg hmsg
    · simp [hempty] at hmsg
    · simp [hempty] at hmsg
    · rw [hready]
      exact mayWrite_ready msg.fullId
  · exact h.writes hwrites

/-! ## The run -/

theorem AckedPending.append {as : List Label} {i : Nat} {id : UInt16}
    (h : AckedPending signedChar settings as i id) (l : Label) :
    AckedPending signedChar settings (as ++ [l]) i id := by
  obtain ⟨⟨read, hlabel⟩, d, hd, hpending⟩ := h
  have hi : i < as.length := (List.getElem?_eq_some_iff.mp hlabel).1
  refine ⟨⟨read, ?_⟩, d, ?_, hpending⟩
  · rw [List.getElem?_append_left hi, hlabel]
  · rw [List.take_append_of_le_length hi.le]
    exact hd

theorem AckedPending.last {as : List Label} {d : SerialDriver} {l : Label} {id : UInt16}
    (hd : after signedChar settings as = some d) (h : Acknowledged d l id) :
    AckedPending signedChar settings (as ++ [l]) as.length id := by
  obtain ⟨⟨read, rfl⟩, hpending, -⟩ := h
  refine ⟨⟨read, by simp⟩, d, ?_, hpending⟩
  rw [List.take_left]
  exact hd

/-- How the handshake got to where it is. -/
structure Progress (as : List Label) (d : SerialDriver) : Prop where
  reached : after signedChar settings as = some d
  sound : Sound d
  forward : ∀ n, ∀ d' ∈ after signedChar settings (as.take n),
    rank d'.initState ≤ rank d.initState
  proto : 1 ≤ rank d.initState → ∃ i, AckedPending signedChar settings as i MsgId.cfgPrt
  rate : 2 ≤ rank d.initState → ∃ i j, i < j ∧
    AckedPending signedChar settings as i MsgId.cfgPrt ∧
    AckedPending signedChar settings as j MsgId.cfgRate

theorem Progress.start : Progress signedChar settings [] (start signedChar settings) := by
  have hrank : rank (Driver.start signedChar settings).initState = 0 := by
    rw [Driver.start, makeConnection_initState]
    rfl
  refine ⟨rfl, Sound.start signedChar settings, ?_, ?_, ?_⟩
  · intro n d' hd'
    rw [List.take_nil] at hd'
    cases hd'
    exact Nat.le_refl _
  · intro h
    omega
  · intro h
    omega

theorem Progress.step {as : List Label} {d d' : SerialDriver} {l : Label}
    (h : Progress signedChar settings as d) (hfits : stepFits d l = true)
    (hs : step signedChar settings d l = some d') :
    Progress signedChar settings (as ++ [l]) d' := by
  have hreached : after signedChar settings (as ++ [l]) = some d' := run_snoc h.reached hs
  have hcases := step_of_fits signedChar settings hs hfits
  have hle : rank d.initState ≤ rank d'.initState := by
    rcases hcases with hsame | ⟨hfrom, hto, -⟩ | ⟨hfrom, hto, -⟩ | ⟨hfrom, hto⟩
    · rw [hsame]
    · simp [hfrom, hto, rank]
    · simp [hfrom, hto, rank]
    · simp [hfrom, hto, rank]
  refine ⟨hreached, h.sound.step signedChar settings hfits hs, ?_, ?_, ?_⟩
  · intro n e he
    rcases Nat.lt_or_ge as.length n with hn | hn
    · have hlen : (as ++ [l]).length ≤ n := by
        rw [List.length_append, List.length_singleton]
        exact hn
      rw [List.take_of_length_le hlen, hreached] at he
      cases he
      exact Nat.le_refl _
    · rw [List.take_append_of_le_length hn] at he
      exact (h.forward n e he).trans hle
  · intro hrank
    rcases hcases with hsame | ⟨-, -, hack⟩ | ⟨hfrom, -⟩ | ⟨hfrom, -⟩
    · obtain ⟨i, hi⟩ := h.proto (by rwa [hsame] at hrank)
      exact ⟨i, hi.append signedChar settings l⟩
    · exact ⟨as.length, AckedPending.last signedChar settings h.reached hack⟩
    · obtain ⟨i, hi⟩ := h.proto (by simp [hfrom, rank])
      exact ⟨i, hi.append signedChar settings l⟩
    · obtain ⟨i, hi⟩ := h.proto (by simp [hfrom, rank])
      exact ⟨i, hi.append signedChar settings l⟩
  · intro hrank
    rcases hcases with hsame | ⟨-, hto, -⟩ | ⟨hfrom, -, hack⟩ | ⟨hfrom, -⟩
    · obtain ⟨i, j, hij, hi, hj⟩ := h.rate (by rwa [hsame] at hrank)
      exact ⟨i, j, hij, hi.append signedChar settings l, hj.append signedChar settings l⟩
    · simp [hto, rank] at hrank
    · obtain ⟨i, hi⟩ := h.proto (by simp [hfrom, rank])
      have hlt : i < as.length := (List.getElem?_eq_some_iff.mp hi.1.choose_spec).1
      exact ⟨i, as.length, hlt, hi.append signedChar settings _,
        AckedPending.last signedChar settings h.reached hack⟩
    · obtain ⟨i, j, hij, hi, hj⟩ := h.rate (by simp [hfrom, rank])
      exact ⟨i, j, hij, hi.append signedChar settings l, hj.append signedChar settings l⟩

/-- **The handshake is safe while the acknowledgements fit.** -/
theorem handshake_safe {as : List Label} {d : SerialDriver}
    (hmeets : Meets (step signedChar settings) (fun d l => stepFits d l = true)
      (start signedChar settings) as)
    (hrun : after signedChar settings as = some d) : HandshakeSafe signedChar settings as d := by
  have h : Progress signedChar settings as d :=
    run_history_of_meets (fun _ _ _ _ hI hfits hs => hI.step signedChar settings hfits hs)
      (Progress.start signedChar settings) hmeets hrun
  refine ⟨h.sound.written, h.forward, ?_⟩
  intro hready
  exact h.rate (by simp [hready, rank])

end

def exampleSettings : Settings := ⟨9600, 2⟩

/-- The handshake as the receiver usually answers it. -/
def answered : List Label :=
  [.txTask, .writeDone, .ackAck ⟨MsgId.cfgPrt⟩ ⟨MsgId.cfgPrt⟩, .command .configDefault,
    .txTask, .writeDone, .ackAck ⟨MsgId.cfgRate⟩ ⟨MsgId.cfgRate⟩, .command .configDefault,
    .txTask]

theorem handshake_safe_answered :
    ∃ d, after true exampleSettings answered = some d ∧ d.initState = .ready ∧
      HandshakeSafe true exampleSettings answered d := by
  have hsome : (after true exampleSettings answered).map (·.initState) = some .ready := by
    decide +kernel
  obtain ⟨d, hd, hready⟩ := Option.map_eq_some_iff.mp hsome
  exact ⟨d, hd, hready, handshake_safe true exampleSettings (by decide +kernel) hd⟩

/-- The protocol is acknowledged a second time after the rate. -/
def acknowledgedTwice : List Label :=
  [.txTask, .writeDone, .ackAck ⟨MsgId.cfgPrt⟩ ⟨MsgId.cfgPrt⟩, .command .configDefault,
    .txTask, .writeDone, .ackAck ⟨MsgId.cfgRate⟩ ⟨MsgId.cfgRate⟩,
    .ackAck ⟨MsgId.cfgPrt⟩ ⟨MsgId.cfgPrt⟩]

/-- The protocol is selected twice, and acknowledged while the second message waits. -/
def writtenLate : List Label :=
  [.command .configDefault, .txTask, .txTask, .ackAck ⟨MsgId.cfgPrt⟩ ⟨MsgId.cfgPrt⟩, .writeDone]

/-- The handler of the acknowledgement of a message rate reads the id of the rate. -/
def readAnother : List Label :=
  [.txTask, .writeDone, .ackAck ⟨MsgId.cfgMsg⟩ ⟨MsgId.cfgRate⟩, .command .configDefault]

/-- A run that breaks the promise. -/
def Unsafe (as : List Label) : Prop :=
  ∃ d, after true exampleSettings as = some d ∧ ¬HandshakeSafe true exampleSettings as d

theorem unsafe_acknowledgedTwice : Unsafe acknowledgedTwice := by
  have hbefore : (after true exampleSettings (acknowledgedTwice.take 7)).map (·.initState) =
      some .receivedRateAck := by decide +kernel
  have hafter : (after true exampleSettings acknowledgedTwice).map (·.initState) =
      some .receivedProtoAck := by decide +kernel
  obtain ⟨d', hd', hrate⟩ := Option.map_eq_some_iff.mp hbefore
  obtain ⟨d, hd, hproto⟩ := Option.map_eq_some_iff.mp hafter
  refine ⟨d, hd, fun hsafe => ?_⟩
  have hforward := hsafe.forward 7 d' hd'
  rw [hrate, hproto] at hforward
  exact absurd hforward (by decide)

theorem unsafe_writtenLate : Unsafe writtenLate := by
  have hafter : (after true exampleSettings writtenLate).map
      (fun d => d.written.map fun w => (w.1, w.2.fullId)) =
      some [(.connecting, MsgId.cfgPrt), (.receivedProtoAck, MsgId.cfgPrt)] := by decide +kernel
  obtain ⟨d, hd, hwritten⟩ := Option.map_eq_some_iff.mp hafter
  refine ⟨d, hd, fun hsafe => ?_⟩
  have hlate : (InitState.receivedProtoAck, MsgId.cfgPrt) ∈
      d.written.map fun w => (w.1, w.2.fullId) := by
    rw [hwritten]
    simp
  obtain ⟨w, hw, heq⟩ := List.mem_map.mp hlate
  obtain ⟨hstate, hid⟩ := Prod.mk.inj heq
  have hmay := hsafe.writes w hw
  rw [hstate, hid] at hmay
  simp [MayWrite] at hmay

theorem unsafe_readAnother : Unsafe readAnother := by
  have hafter : (after true exampleSettings readAnother).map (·.initState) = some .ready := by
    decide +kernel
  obtain ⟨d, hd, hready⟩ := Option.map_eq_some_iff.mp hafter
  refine ⟨d, hd, fun hsafe => ?_⟩
  obtain ⟨i, j, -, ⟨⟨read, hi⟩, -⟩, -⟩ := hsafe.ready hready
  have hmem := List.mem_of_getElem? hi
  have hne : MsgId.cfgPrt ≠ MsgId.cfgMsg := by decide
  simp [readAnother, hne] at hmem

theorem handshake_unsafe :
    Unsafe acknowledgedTwice ∧ Unsafe writtenLate ∧ Unsafe readAnother :=
  ⟨unsafe_acknowledgedTwice, unsafe_writtenLate, unsafe_readAnother⟩

end MuonDetector.Ublox.Handshake
