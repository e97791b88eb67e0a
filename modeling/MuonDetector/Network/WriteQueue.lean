import MuonDetector.Network.Framing

/-!
# One write at a time, in the order of the sends

No flag says that a write is outstanding: `sendPacket` and the write completion
both read it off the queue. The invariant behind them is that the outstanding
writes are the front element of the queue, if there is one. It holds until a
write completes with an error, which leaves its element in the queue.
-/

namespace MuonDetector.Network.WriteQueue

open MuonDetector.Library MuonDetector.Library.StreamParser
open MuonDetector.Network.Frame MuonDetector.Network.Connection MuonDetector.Network.Framing

def sent? : Event → Option (List UInt8)
  | .send key payload => some (buildFrame key payload)
  | .readDone _ _ => none
  | .writeDone _ _ => none
  | .stop => none

/-- The frames of the `sendPacket` calls, numbered in the order they were executed. -/
def sentFrames (es : List Event) : List Buffer := (es.filterMap sent?).mapIdx Buffer.mk

def IsWriteError : Event → Prop
  | .writeDone _ (.error _) => True
  | .writeDone _ (.ok _) => False
  | .readDone _ _ => False
  | .send _ _ => False
  | .stop => False

/-- What the queue promises after the handlers `es`. -/
structure WritesInOrder (es : List Event) (c : TcpConnection) : Prop where
  atMostOne : c.pendingWrites.length ≤ 1
  busy : c.pendingWrites ≠ [] ↔ c.writeQueue ≠ []
  front : ∀ b ∈ c.pendingWrites, c.writeQueue.head? = some b
  inOrder : c.written <+: sentFrames es
  complete : c.pendingWrites = [] → c.written = sentFrames es

/-- The invariant of the three places that read the queue. -/
structure QueueInvariant (es : List Event) (c : TcpConnection) : Prop where
  outstanding : c.pendingWrites = c.writeQueue.head?.toList
  sent : c.written ++ c.writeQueue = sentFrames es
  pushed : c.pushed = (sentFrames es).length

/-- The fields that the write side of a connection uses. -/
def writeSide (c : TcpConnection) : List Buffer × List Buffer × List Buffer × Nat :=
  (c.writeQueue, c.pendingWrites, c.written, c.pushed)

theorem QueueInvariant.of_writeSide {es : List Event} {c c' : TcpConnection}
    (hi : QueueInvariant es c) (h : writeSide c' = writeSide c) : QueueInvariant es c' := by
  simp only [writeSide, Prod.mk.injEq] at h
  obtain ⟨hqueue, hpending, hwritten, hpushed⟩ := h
  refine ⟨?_, ?_, ?_⟩
  · rw [hpending, hqueue, hi.outstanding]
  · rw [hwritten, hqueue, hi.sent]
  · rw [hpushed, hi.pushed]

theorem sentFrames_append_none {es : List Event} {e : Event} (h : sent? e = none) :
    sentFrames (es ++ [e]) = sentFrames es := by
  simp [sentFrames, h]

theorem sentFrames_append_some {es : List Event} {e : Event} {f : List UInt8}
    (h : sent? e = some f) :
    sentFrames (es ++ [e]) = sentFrames es ++ [⟨(sentFrames es).length, f⟩] := by
  simp [sentFrames, h, List.mapIdx_append]

/-! ## What each handler does to the queue -/

theorem onRead_writeSide (c : TcpConnection) (now : Nat)
    (result : Except ErrorCode (List UInt8)) :
    writeSide (onRead c now result) = writeSide c := by
  cases result with
  | error ec => rfl
  | ok bytes =>
    obtain ⟨t, ec, hd⟩ := drainPackets_eq now (consumeIncomingBytes c bytes)
    rw [onRead, hd]
    rfl

/-- A send appends its frame. The write of it starts now if the queue was empty,
and otherwise after the frames in front of it. -/
theorem QueueInvariant.send {es : List Event} {c : TcpConnection} (hi : QueueInvariant es c)
    (key : UInt16) (payload : List UInt8) :
    QueueInvariant (es ++ [.send key payload]) (sendPacket c key payload) := by
  have hframes : sentFrames (es ++ [.send key payload]) =
      sentFrames es ++ [⟨c.pushed, buildFrame key payload⟩] := by
    rw [sentFrames_append_some rfl, hi.pushed]
  have hout := hi.outstanding
  cases hq : c.writeQueue with
  | nil =>
    have hwrite : sendPacket c key payload = { c with
        writeQueue := [⟨c.pushed, buildFrame key payload⟩]
        pushed := c.pushed + 1
        pendingWrites := c.pendingWrites ++ [⟨c.pushed, buildFrame key payload⟩] } := by
      simp [sendPacket, doWrite, hq]
    rw [hwrite]
    refine ⟨?_, ?_, ?_⟩
    · simp [hout, hq]
    · rw [hframes, ← hi.sent, hq, List.append_nil]
    · rw [hframes, List.length_append, ← hi.pushed, List.length_singleton]
  | cons b bs =>
    have hwait : sendPacket c key payload = { c with
        writeQueue := c.writeQueue ++ [⟨c.pushed, buildFrame key payload⟩]
        pushed := c.pushed + 1 } := by
      simp [sendPacket, hq]
    rw [hwait]
    refine ⟨?_, ?_, ?_⟩
    · simp [hout, hq]
    · rw [hframes, ← hi.sent, List.append_assoc]
    · rw [hframes, List.length_append, ← hi.pushed, List.length_singleton]

/-- A completed write takes its element off the front and starts the next one. -/
theorem QueueInvariant.written {es : List Event} {c : TcpConnection} (hi : QueueInvariant es c)
    {b : Buffer} (hb : b ∈ c.pendingWrites) :
    QueueInvariant (es ++ [.writeDone b (.ok ())])
      (onWrite { c with pendingWrites := c.pendingWrites.erase b } b (.ok ())) := by
  have hframes : sentFrames (es ++ [.writeDone b (.ok ())]) = sentFrames es :=
    sentFrames_append_none rfl
  have hout := hi.outstanding
  have hsent := hi.sent
  cases hq : c.writeQueue with
  | nil =>
    rw [hout, hq] at hb
    cases hb
  | cons b' bs =>
    rw [hq] at hout hsent
    obtain rfl : b = b' := by simpa [hout] using hb
    have hnone : c.pendingWrites.erase b = [] := by simp [hout]
    have hdone : c.written ++ [b] ++ bs = sentFrames es := by rw [← hsent, List.append_assoc]; rfl
    cases bs with
    | nil =>
      refine ⟨?_, ?_, ?_⟩
      · simp [onWrite, hnone]
      · rw [hframes, ← hdone]
        simp [onWrite]
      · rw [hframes, ← hi.pushed]
        simp [onWrite]
    | cons b₂ bs =>
      refine ⟨?_, ?_, ?_⟩
      · simp [onWrite, hnone, doWrite]
      · rw [hframes, ← hdone]
        simp [onWrite, doWrite]
      · rw [hframes, ← hi.pushed]
        simp [onWrite, doWrite]

/-- Every handler but a failed write keeps the invariant. -/
theorem QueueInvariant.step {es : List Event} {c c' : TcpConnection} {e : Event}
    (hi : QueueInvariant es c) (h : Connection.step c e = some c') (he : ¬ IsWriteError e) :
    QueueInvariant (es ++ [e]) c' := by
  cases e with
  | readDone now result =>
    simp only [Connection.step, Option.ite_none_right_eq_some, Option.some.injEq] at h
    obtain ⟨-, rfl⟩ := h
    have hkeep := hi.of_writeSide
      (onRead_writeSide { c with pendingReads := c.pendingReads - 1 } now result)
    exact ⟨hkeep.outstanding, by rw [hkeep.sent, sentFrames_append_none rfl],
      by rw [hkeep.pushed, sentFrames_append_none rfl]⟩
  | writeDone b result =>
    simp only [Connection.step, Option.ite_none_right_eq_some, Option.some.injEq] at h
    obtain ⟨⟨hb, -⟩, rfl⟩ := h
    cases result with
    | error ec => exact absurd trivial he
    | ok => exact hi.written hb
  | send key payload =>
    obtain rfl := Option.some.inj h
    exact hi.send key payload
  | stop =>
    obtain rfl := Option.some.inj h
    exact ⟨hi.outstanding, by rw [sentFrames_append_none rfl]; exact hi.sent,
      by rw [sentFrames_append_none rfl]; exact hi.pushed⟩

theorem queueInvariant_fresh (now : Nat) : QueueInvariant [] (start (fresh now)) :=
  ⟨rfl, rfl, rfl⟩

theorem queueInvariant_run {now : Nat} {es : List Event} {c : TcpConnection}
    (h : run (start (fresh now)) es = some c) (hok : ∀ e ∈ es, ¬ IsWriteError e) :
    QueueInvariant es c := by
  have hrule : (∀ e ∈ es, ¬ IsWriteError e) → QueueInvariant es c := by
    refine Machine.run_history
      (I := fun es c => (∀ e ∈ es, ¬ IsWriteError e) → QueueInvariant es c) ?_
      (fun _ => queueInvariant_fresh now) h
    intro es c e c' ih hstep hall
    have hbefore : ∀ e' ∈ es, ¬ IsWriteError e' := fun e' he' => hall e' (by simp [he'])
    exact (ih hbefore).step hstep (hall e (by simp))
  exact hrule hok

/-- The invariant gives what is said of the queue. -/
theorem QueueInvariant.inOrder {es : List Event} {c : TcpConnection}
    (hi : QueueInvariant es c) : WritesInOrder es c where
  atMostOne := by
    rw [hi.outstanding]
    cases c.writeQueue <;> simp
  busy := by
    rw [hi.outstanding]
    cases c.writeQueue <;> simp
  front b hb := by
    rw [hi.outstanding] at hb
    simpa using hb
  inOrder := ⟨c.writeQueue, hi.sent⟩
  complete h := by
    have hempty : c.writeQueue = [] := by
      rw [hi.outstanding] at h
      simpa using h
    rw [← hi.sent, hempty, List.append_nil]

/-- **Until a write fails, at most one write is outstanding, it is the front of the
queue, and the completed writes are the sent frames in order.** -/
theorem writes_in_order (now : Nat) (es : List Event) (c : TcpConnection)
    (h : run (start (fresh now)) es = some c) (hok : ∀ e ∈ es, ¬ IsWriteError e) :
    WritesInOrder es c :=
  (queueInvariant_run h hok).inOrder

/-- Two sends, and the completion of the first write between them. -/
theorem writes_in_order_interleaved :
    ∃ c, run (start (fresh 0)) [.send 5 [1], .writeDone ⟨0, buildFrame 5 [1]⟩ (.ok ()),
        .send 6 []] = some c ∧
      WritesInOrder [.send 5 [1], .writeDone ⟨0, buildFrame 5 [1]⟩ (.ok ()), .send 6 []] c :=
  ⟨_, rfl, writes_in_order 0 _ _ rfl (by simp [IsWriteError])⟩

end MuonDetector.Network.WriteQueue
