import MuonDetector.Network.Delivery

/-!
# When the disconnect handler is called only once

Read errors, write errors and protocol errors each call the disconnect handler,
and after a protocol error the read loop goes on: its next read completes with an
error on the closed socket. The handler is therefore called once exactly in the
runs where no completion follows the first one that fails.
-/

namespace MuonDetector.Network.Disconnect

open MuonDetector.Library MuonDetector.Library.StreamParser
open MuonDetector.Network.Frame MuonDetector.Network.Connection MuonDetector.Network.Framing
open MuonDetector.Network.Delivery

/-- At most one notification, and no packet after it. -/
structure SingleDisconnect (calls : List Call) : Prop where
  once : (calls.filter fun call => (packet? call).isNone).length ≤ 1
  silent : ∀ before ec later, calls = before ++ .disconnected ec :: later → deliveries later = []

def IsCompletion : Event → Prop
  | .readDone _ _ => True
  | .writeDone _ _ => True
  | .send _ _ => False
  | .stop => False

instance : DecidablePred IsCompletion := fun e => by
  cases e <;> unfold IsCompletion <;> infer_instance

/-- Some frames at the front of the bytes are followed by a bad header or checksum. -/
def Malformed (b : List UInt8) : Prop :=
  ∃ packets fs rest, List.Forall₂ ValidFrame packets fs ∧ b = fs.flatten ++ rest ∧
    (BadHeader rest ∨ BadChecksum rest)

/-- A completion with an error code, or a read that completes a malformed stream. -/
def Fails (c : TcpConnection) : Event → Prop
  | .readDone _ (.error _) => True
  | .readDone _ (.ok bytes) => Malformed (c.receiveBuffer ++ bytes)
  | .writeDone _ (.error _) => True
  | .writeDone _ (.ok _) => False
  | .send _ _ => False
  | .stop => False

/-- In the run from `c`, no completion comes after the first one that fails. -/
def FailsLast : TcpConnection → List Event → Prop
  | _, [] => True
  | c, e :: es =>
    (Fails c e → ∀ e' ∈ es, ¬ IsCompletion e') ∧ ∀ c', step c e = some c' → FailsLast c' es

theorem malformed_iff_closed (b : List UInt8) :
    Malformed b ↔ (drain frameParser b).closed = true := by
  constructor
  · rintro ⟨packets, fs, rest, hfs, rfl, hbad⟩
    have hlook : frameParser.look rest = .reject := look_reject_iff.mpr hbad
    rw [← frame_eq_validFrame] at hfs
    rw [drain_frames frameParser hfs, drain_reject frameParser hlook]
    rfl
  · intro h
    obtain ⟨fs, hfs, hb⟩ := (drain_leading b).decomposes
    exact ⟨_, fs, _, hfs, hb, (drain_closed_iff b).mp h⟩

/-! ## What one handler adds to the calls -/

@[simp] theorem sendPacket_calls (c : TcpConnection) (key : UInt16) (payload : List UInt8) :
    (sendPacket c key payload).calls = c.calls := by
  unfold sendPacket
  dsimp only
  split
  · rfl
  · exact doWrite_calls _

@[simp] theorem sendPacket_isOpen (c : TcpConnection) (key : UInt16) (payload : List UInt8) :
    (sendPacket c key payload).isOpen = c.isOpen := by
  unfold sendPacket
  dsimp only
  split
  · rfl
  · exact doWrite_isOpen _

theorem onWrite_ok_calls (c : TcpConnection) (b : Buffer) :
    (onWrite c b (.ok ())).calls = c.calls := by
  unfold onWrite
  dsimp only
  split
  · rfl
  · exact doWrite_calls _

/-- A handler that does not fail adds packets only. -/
theorem step_not_fails {c c' : TcpConnection} {e : Event} (h : step c e = some c')
    (hf : ¬ Fails c e) : ∃ ps : List TcpPacket, c'.calls = c.calls ++ ps.map Call.packet := by
  cases e with
  | readDone now result =>
    simp only [step, Option.ite_none_right_eq_some, Option.some.injEq] at h
    obtain ⟨-, rfl⟩ := h
    cases result with
    | error ec => exact absurd trivial hf
    | ok bytes =>
      have hclosed : (drain frameParser (c.receiveBuffer ++ bytes)).closed = false := by
        rw [← Bool.not_eq_true, ← malformed_iff_closed]
        exact hf
      obtain ⟨t, ec, hd⟩ := drainPackets_eq now
        (consumeIncomingBytes { c with pendingReads := c.pendingReads - 1 } bytes)
      refine ⟨(drain frameParser (c.receiveBuffer ++ bytes)).delivered, ?_⟩
      rw [onRead, hd]
      simp [doRead, consumeIncomingBytes, hclosed]
  | writeDone b result =>
    simp only [step, Option.ite_none_right_eq_some, Option.some.injEq] at h
    obtain ⟨-, rfl⟩ := h
    cases result with
    | error ec => exact absurd trivial hf
    | ok => exact ⟨[], by simpa using onWrite_ok_calls _ b⟩
  | send key payload =>
    obtain rfl := Option.some.inj h
    exact ⟨[], by simp⟩
  | stop =>
    obtain rfl := Option.some.inj h
    exact ⟨[], by simp [stop]⟩

/-- A handler that fails is a completion, adds one notification after any packets,
and leaves the socket closed. On a closed socket it delivers no packet. -/
theorem step_fails {c c' : TcpConnection} {e : Event} (h : step c e = some c')
    (hf : Fails c e) : IsCompletion e ∧ c'.isOpen = false ∧
      ∃ (ps : List TcpPacket) (ec : ErrorCode),
        c'.calls = c.calls ++ (ps.map Call.packet ++ [.disconnected ec]) ∧
          (c.isOpen = false → ps = []) := by
  cases e with
  | readDone now result =>
    simp only [step, Option.ite_none_right_eq_some, Option.some.injEq] at h
    obtain ⟨⟨-, hmay, -⟩, rfl⟩ := h
    cases result with
    | error ec => exact ⟨trivial, rfl, [], ec, rfl, fun _ => rfl⟩
    | ok bytes =>
      have hclosed := (malformed_iff_closed _).mp hf
      obtain ⟨t, ec, hd⟩ := drainPackets_eq now
        (consumeIncomingBytes { c with pendingReads := c.pendingReads - 1 } bytes)
      refine ⟨trivial, ?_, (drain frameParser (c.receiveBuffer ++ bytes)).delivered, ec, ?_, ?_⟩
      · rw [onRead, hd]
        simp [doRead, consumeIncomingBytes, hclosed]
      · rw [onRead, hd]
        simp [doRead, consumeIncomingBytes, hclosed]
      · intro hc
        rw [mayComplete, hc] at hmay
        cases hmay
  | writeDone b result =>
    simp only [step, Option.ite_none_right_eq_some, Option.some.injEq] at h
    obtain ⟨-, rfl⟩ := h
    cases result with
    | error ec => exact ⟨trivial, rfl, [], ec, rfl, fun _ => rfl⟩
    | ok => exact absurd hf id
  | send key payload => exact absurd hf id
  | stop => exact absurd hf id

/-- On a closed socket every completion fails, and the socket stays closed. -/
theorem step_closed {c c' : TcpConnection} {e : Event} (h : step c e = some c')
    (hc : c.isOpen = false) :
    c'.isOpen = false ∧ (IsCompletion e → Fails c e) ∧ (¬ IsCompletion e → c'.calls = c.calls) := by
  cases e with
  | readDone now result =>
    simp only [step, Option.ite_none_right_eq_some, Option.some.injEq] at h
    obtain ⟨⟨-, hmay, -⟩, rfl⟩ := h
    cases result with
    | error ec => exact ⟨rfl, fun _ => trivial, fun hn => absurd trivial hn⟩
    | ok bytes =>
      rw [mayComplete, hc] at hmay
      cases hmay
  | writeDone b result =>
    simp only [step, Option.ite_none_right_eq_some, Option.some.injEq] at h
    obtain ⟨⟨-, hmay⟩, rfl⟩ := h
    cases result with
    | error ec => exact ⟨rfl, fun _ => trivial, fun hn => absurd trivial hn⟩
    | ok =>
      rw [mayComplete, hc] at hmay
      cases hmay
  | send key payload =>
    obtain rfl := Option.some.inj h
    exact ⟨by simpa using hc, fun hi => absurd hi id, fun _ => by simp⟩
  | stop =>
    obtain rfl := Option.some.inj h
    exact ⟨rfl, fun hi => absurd hi id, fun _ => rfl⟩

/-! ## Runs -/

/-- From a closed socket each completion of the run adds one notification. -/
theorem run_closed {c c' : TcpConnection} {es : List Event} (h : run c es = some c')
    (hc : c.isOpen = false) :
    ∃ ecs : List ErrorCode, c'.calls = c.calls ++ ecs.map Call.disconnected ∧
      (ecs = [] ↔ ∀ e ∈ es, ¬ IsCompletion e) := by
  induction es generalizing c with
  | nil =>
    cases h
    exact ⟨[], by simp, by simp⟩
  | cons e es ih =>
    obtain ⟨c₁, he, hr⟩ := Machine.run_cons_some.mp h
    obtain ⟨hc₁, hfails, hquiet⟩ := step_closed he hc
    obtain ⟨ecs, hcalls, hnone⟩ := ih hr hc₁
    by_cases hi : IsCompletion e
    · obtain ⟨-, -, ps, ec, hadd, hps⟩ := step_fails he (hfails hi)
      refine ⟨ec :: ecs, ?_, ?_⟩
      · rw [hcalls, hadd, hps hc]
        simp
      · simp [hi]
    · refine ⟨ecs, by rw [hcalls, hquiet hi], ?_⟩
      rw [hnone]
      simp [hi]

theorem singleDisconnect_packets (ps : List TcpPacket) : SingleDisconnect (ps.map Call.packet) where
  once := by simp [List.filter_map, Function.comp_def, packet?]
  silent before ec later h := by
    have hmem : Call.disconnected ec ∈ ps.map Call.packet := by rw [h]; simp
    simp at hmem

/-- Notifications after packets are single when there is no second one. -/
theorem singleDisconnect_notified (ps : List TcpPacket) (ec : ErrorCode) (ecs : List ErrorCode) :
    SingleDisconnect (ps.map Call.packet ++ .disconnected ec :: ecs.map Call.disconnected) ↔
      ecs = [] := by
  constructor
  · intro h
    have hone := h.once
    simpa [List.filter_map, Function.comp_def, packet?] using hone
  · rintro rfl
    refine ⟨by simp [List.filter_map, Function.comp_def, packet?], fun before ec' later h => ?_⟩
    rcases List.append_eq_append_iff.mp h with ⟨as, rfl, hb⟩ | ⟨as, ha, hb⟩
    · cases as with
      | nil =>
        obtain ⟨-, rfl⟩ := List.cons.inj hb
        rfl
      | cons a as => simp at hb
    · cases as with
      | nil =>
        obtain ⟨-, rfl⟩ := List.cons.inj hb
        rfl
      | cons a as =>
        obtain ⟨rfl, -⟩ := List.cons.inj hb
        have hmem : Call.disconnected ec' ∈ ps.map Call.packet := by rw [ha]; simp
        simp at hmem

/-- A run in which no completion is left is in order. -/
theorem failsLast_of_quiet {c : TcpConnection} {es : List Event}
    (h : ∀ e ∈ es, ¬ IsCompletion e) : FailsLast c es := by
  induction es generalizing c with
  | nil => trivial
  | cons e es ih =>
    have htail : ∀ e' ∈ es, ¬ IsCompletion e' := fun e' he' => h e' (List.mem_cons_of_mem e he')
    exact ⟨fun _ => htail, fun c' _ => ih htail⟩

theorem singleDisconnect_iff_of_packets {c c' : TcpConnection} {es : List Event}
    (h : run c es = some c') (hc : ∃ ps : List TcpPacket, c.calls = ps.map Call.packet) :
    SingleDisconnect c'.calls ↔ FailsLast c es := by
  induction es generalizing c with
  | nil =>
    cases h
    obtain ⟨ps, hps⟩ := hc
    rw [hps]
    exact iff_of_true (singleDisconnect_packets ps) trivial
  | cons e es ih =>
    obtain ⟨c₁, he, hr⟩ := Machine.run_cons_some.mp h
    obtain ⟨ps, hps⟩ := hc
    have hcons : FailsLast c (e :: es) ↔
        (Fails c e → ∀ e' ∈ es, ¬ IsCompletion e') ∧ FailsLast c₁ es := by
      simp [FailsLast, he]
    rw [hcons]
    by_cases hf : Fails c e
    · obtain ⟨-, hclosed, qs, ec, hadd, -⟩ := step_fails he hf
      obtain ⟨ecs, hcalls, hquiet⟩ := run_closed hr hclosed
      have hall : c'.calls =
          (ps ++ qs).map Call.packet ++ .disconnected ec :: ecs.map Call.disconnected := by
        rw [hcalls, hadd, hps]
        simp
      rw [hall, singleDisconnect_notified, hquiet]
      exact ⟨fun hn => ⟨fun _ => hn, failsLast_of_quiet hn⟩, fun hn => hn.1 hf⟩
    · obtain ⟨qs, hadd⟩ := step_not_fails he hf
      rw [ih hr ⟨ps ++ qs, by rw [hadd, hps, List.map_append]⟩]
      exact ⟨fun hl => ⟨fun hf' => absurd hf' hf, hl⟩, fun hl => hl.2⟩

/-- **The disconnect handler is called at most once, with no packet after it, exactly
in the runs where no completion follows the first one that fails.** -/
theorem single_disconnect_iff (now : Nat) (es : List Event) (c : TcpConnection)
    (h : run (start (fresh now)) es = some c) :
    SingleDisconnect c.calls ↔ FailsLast (start (fresh now)) es :=
  singleDisconnect_iff_of_packets h ⟨[], rfl⟩

/-- A client that hangs up: the outstanding read completes with the end of file. -/
theorem single_disconnect_after_eof :
    ∃ c, run (start (fresh 0)) [.readDone 1 (.error (.io 2))] = some c ∧
      (SingleDisconnect c.calls ↔
        FailsLast (start (fresh 0)) [.readDone 1 (.error (.io 2))]) :=
  ⟨_, rfl, single_disconnect_iff 0 _ _ rfl⟩

/-- A header without the magic number, then the completion of the read that was
started on the closed socket. -/
theorem bad_magic_disconnects_twice :
    ∃ c, run (start (fresh 0))
        [.readDone 1 (.ok (List.replicate 12 0)), .readDone 2 (.error (.io 9))] = some c ∧
      ¬ SingleDisconnect c.calls := by
  have hfresh : ∃ ps : List TcpPacket, (start (fresh 0)).calls = ps.map Call.packet := ⟨[], rfl⟩
  have hread : Fails (start (fresh 0)) (.readDone 1 (.ok (List.replicate 12 0))) :=
    ⟨[], [], _, .nil, rfl, Or.inl ⟨by decide, by decide⟩⟩
  have hlegal : ∃ c, run (start (fresh 0))
      [.readDone 1 (.ok (List.replicate 12 0)), .readDone 2 (.error (.io 9))] = some c := by
    simp [Machine.run, step, start, doRead, fresh, mayComplete, fitsReadBuffer, readBufferSize,
      onRead]
  obtain ⟨c, hc⟩ := hlegal
  refine ⟨c, hc, fun h => ?_⟩
  have hlast := (singleDisconnect_iff_of_packets hc hfresh).mp h
  exact hlast.1 hread _ (List.mem_singleton.mpr rfl) trivial

end MuonDetector.Network.Disconnect
