import MuonDetector.Library.StreamParser
import MuonDetector.Network.Connection

/-!
# What a connection makes of the bytes it receives

`frameParser` is `tryParsePacket` without the connection around it: a front parser
whose frames are the valid frames of the wire format. The loop over
`tryParsePacket` drains the receive buffer with it (`drainPackets_eq`), so the
results on incremental parsing apply to every cut of every byte stream.
-/

namespace MuonDetector.Network.Framing

open MuonDetector.Library.StreamParser
open MuonDetector.Network.Frame MuonDetector.Network.Connection

/-! ## The header fields of a buffer -/

def declaredSize (b : List UInt8) : Nat := (readU32 (b.drop 8)).toNat

def payloadOf (b : List UInt8) : List UInt8 := (b.drop kHeaderSize).take (declaredSize b)

def HeaderOk (b : List UInt8) : Prop :=
  readU32 b = kMagic ∧ readU16 (b.drop 4) = kProtocolVersion ∧ declaredSize b ≤ kMaxPayloadSize

def ChecksumOk (b : List UInt8) : Prop :=
  readU32 (b.drop (kHeaderSize + declaredSize b)) = checksum (payloadOf b)

instance (b : List UInt8) : Decidable (HeaderOk b) := inferInstanceAs (Decidable (_ ∧ _ ∧ _))
instance (b : List UInt8) : Decidable (ChecksumOk b) := inferInstanceAs (Decidable (_ = _))

/-- The next header is complete and not one of this protocol. -/
def BadHeader (b : List UInt8) : Prop := kHeaderSize ≤ b.length ∧ ¬ HeaderOk b

/-- The next frame is complete and its checksum is not that of its payload. -/
def BadChecksum (b : List UInt8) : Prop :=
  HeaderOk b ∧ kFrameOverhead + declaredSize b ≤ b.length ∧ ¬ ChecksumOk b

theorem overhead_eq : kFrameOverhead = kHeaderSize + 4 := rfl

section Append

variable {b : List UInt8} (hb : kHeaderSize ≤ b.length) (c : List UInt8)
include hb

theorem declaredSize_append : declaredSize (b ++ c) = declaredSize b := by
  have hk : kHeaderSize = 12 := rfl
  unfold declaredSize
  rw [List.drop_append_of_le_length (by omega), readU32_append (by rw [List.length_drop]; omega)]

theorem key_append : readU16 ((b ++ c).drop 6) = readU16 (b.drop 6) := by
  have hk : kHeaderSize = 12 := rfl
  rw [List.drop_append_of_le_length (by omega), readU16_append (by rw [List.length_drop]; omega)]

theorem headerOk_append : HeaderOk (b ++ c) ↔ HeaderOk b := by
  have hk : kHeaderSize = 12 := rfl
  unfold HeaderOk
  rw [declaredSize_append hb c, readU32_append (by omega),
    List.drop_append_of_le_length (by omega), readU16_append (by rw [List.length_drop]; omega)]

theorem payloadOf_append (hs : kFrameOverhead + declaredSize b ≤ b.length) :
    payloadOf (b ++ c) = payloadOf b := by
  have ho := overhead_eq
  unfold payloadOf
  rw [declaredSize_append hb c, List.drop_append_of_le_length hb,
    List.take_append_of_le_length (by rw [List.length_drop]; omega)]

theorem checksumOk_append (hs : kFrameOverhead + declaredSize b ≤ b.length) :
    ChecksumOk (b ++ c) ↔ ChecksumOk b := by
  have ho := overhead_eq
  unfold ChecksumOk
  rw [declaredSize_append hb c, payloadOf_append hb c hs, List.drop_append_of_le_length (by omega),
    readU32_append (by rw [List.length_drop]; omega)]

end Append

theorem payloadOf_length {b : List UInt8} (hs : kFrameOverhead + declaredSize b ≤ b.length) :
    (payloadOf b).length = declaredSize b := by
  have ho := overhead_eq
  rw [payloadOf, List.length_take, List.length_drop]
  omega

/-! ## The parser without the connection -/

def look (b : List UInt8) : Verdict TcpPacket :=
  if b.length < kHeaderSize then .more
  else if ¬ HeaderOk b then .reject
  else if b.length < kFrameOverhead + declaredSize b then .more
  else if ¬ ChecksumOk b then .reject
  else .accept ⟨readU16 (b.drop 6), payloadOf b⟩ (kFrameOverhead + declaredSize b)

theorem look_accept_iff {b : List UInt8} {v : TcpPacket} {n : Nat} :
    look b = .accept v n ↔
      kHeaderSize ≤ b.length ∧ HeaderOk b ∧ kFrameOverhead + declaredSize b ≤ b.length ∧
        ChecksumOk b ∧ v = ⟨readU16 (b.drop 6), payloadOf b⟩ ∧
        n = kFrameOverhead + declaredSize b := by
  unfold look
  repeat' split
  all_goals grind

theorem look_reject_iff {b : List UInt8} :
    look b = .reject ↔ BadHeader b ∨ BadChecksum b := by
  have ho := overhead_eq
  unfold look BadHeader BadChecksum
  repeat' split
  all_goals grind

theorem look_append {b : List UInt8} (hb : kHeaderSize ≤ b.length)
    (hs : kFrameOverhead + declaredSize b ≤ b.length) (c : List UInt8) :
    look (b ++ c) = look b := by
  have hbc : ¬ b.length + c.length < kHeaderSize := by omega
  have hsc : ¬ b.length + c.length < kFrameOverhead + declaredSize b := by omega
  simp only [look, List.length_append, headerOk_append hb c, declaredSize_append hb c,
    checksumOk_append hb c hs, key_append hb c, payloadOf_append hb c hs, hbc, hsc,
    Nat.not_lt.mpr hb, Nat.not_lt.mpr hs, if_false]

def frameParser : FrontParser UInt8 TcpPacket where
  look := look
  accept_pos h := by
    obtain ⟨-, -, -, -, -, rfl⟩ := look_accept_iff.mp h
    have hpos : 0 < kFrameOverhead := by decide
    omega
  accept_le h := by
    obtain ⟨-, -, hs, -, -, rfl⟩ := look_accept_iff.mp h
    exact hs
  accept_front {b c v n} h := by
    obtain ⟨hb, -, hs, -, -, hn⟩ := look_accept_iff.mp h
    have ho := overhead_eq
    have hlen : (b.take n).length = n := by rw [List.length_take]; omega
    have hfront : kHeaderSize ≤ (b.take n).length := by omega
    have hsize : declaredSize (b.take n) = declaredSize b := by
      rw [← declaredSize_append hfront (b.drop n), List.take_append_drop]
    have hwhole : kFrameOverhead + declaredSize (b.take n) ≤ (b.take n).length := by omega
    rw [look_append hfront hwhole c, ← look_append hfront hwhole (b.drop n),
      List.take_append_drop, h]
  reject_append {b c} h := by
    rcases look_reject_iff.mp h with ⟨hb, hh⟩ | ⟨hh, hs, hc⟩
    · refine look_reject_iff.mpr (Or.inl ⟨?_, (headerOk_append hb c).not.mpr hh⟩)
      rw [List.length_append]
      omega
    · have hb : kHeaderSize ≤ b.length := by
        have ho := overhead_eq
        omega
      rw [look_append hb hs c, h]

/-- The frames of the parser are the valid frames of the wire format. -/
theorem frame_iff_validFrame {packet : TcpPacket} {f : List UInt8} :
    frameParser.Frame packet f ↔ ValidFrame packet f := by
  have ho := overhead_eq
  constructor
  · intro h
    obtain ⟨-, ⟨hm, hv, hk⟩, hs, hc, rfl, hn⟩ := look_accept_iff.mp h
    have hp := payloadOf_length hs
    refine ⟨hm, hv, rfl, hp.symm, ?_, ?_, ?_, ?_⟩ <;> dsimp only <;> rw [hp]
    · exact hk
    · exact hn
    · rfl
    · exact hc
  · intro h
    have hsize : declaredSize f = packet.payload.length := h.size
    have hlen := h.length
    have hbound := h.bound
    have hpay : payloadOf f = packet.payload := by rw [payloadOf, hsize]; exact h.payload
    refine look_accept_iff.mpr
      ⟨by omega, ⟨h.magic, h.version, by omega⟩, by omega, ?_, ?_, by omega⟩
    · rw [ChecksumOk, hpay, hsize]
      exact h.checksum
    · rw [hpay, h.key]

/-! ## One call and the whole loop -/

theorem tryParsePacket_more (now : Nat) {c : TcpConnection} (h : look c.receiveBuffer = .more) :
    tryParsePacket now c = (false, c) := by
  unfold look HeaderOk ChecksumOk payloadOf declaredSize at h
  unfold tryParsePacket
  grind

theorem tryParsePacket_reject (now : Nat) {c : TcpConnection}
    (h : look c.receiveBuffer = .reject) :
    ∃ ec, tryParsePacket now c = (false, closeWithError c ec) := by
  have ho := overhead_eq
  unfold tryParsePacket
  rcases look_reject_iff.mp h with ⟨hb, hh⟩ | ⟨⟨hm, hv, hk⟩, hs, hc⟩
  · have hb' : ¬ c.receiveBuffer.length < kHeaderSize := by omega
    by_cases hm : readU32 c.receiveBuffer = kMagic
    · by_cases hv : readU16 (c.receiveBuffer.drop 4) = kProtocolVersion
      · have hk : ¬ (readU32 (c.receiveBuffer.drop 8)).toNat ≤ kMaxPayloadSize :=
          fun hk => hh ⟨hm, hv, hk⟩
        exact ⟨.messageSize, by simp [hb', hm, hv, hk]⟩
      · exact ⟨.operationNotSupported, by simp [hb', hm, hv]⟩
    · exact ⟨.fault, by simp [hb', hm]⟩
  · have hb' : ¬ c.receiveBuffer.length < kHeaderSize := by omega
    unfold ChecksumOk payloadOf at hc
    unfold declaredSize at hk hs hc
    exact ⟨.badDescriptor, by simp [hb', hm, hv, hc, Nat.not_lt.mpr hk, Nat.not_lt.mpr hs]⟩

theorem tryParsePacket_accept (now : Nat) {c : TcpConnection} {v : TcpPacket} {n : Nat}
    (h : look c.receiveBuffer = .accept v n) :
    tryParsePacket now c = (true, { c with
      receiveBuffer := c.receiveBuffer.drop n
      calls := c.calls ++ [.packet v]
      lastReceivedNanos := now }) := by
  unfold look HeaderOk ChecksumOk payloadOf declaredSize at h
  unfold tryParsePacket
  grind

/-- The one call of the disconnect handler that ends a drained stream, if any. -/
def notice (closed : Bool) (ec : ErrorCode) : List Call :=
  if closed then [.disconnected ec] else []

@[simp] theorem notice_false (ec : ErrorCode) : notice false ec = [] := rfl
@[simp] theorem notice_true (ec : ErrorCode) : notice true ec = [.disconnected ec] := rfl

/-- **The loop drains the receive buffer.** It changes nothing but the buffer, the
clock of the last packet, the socket and the handler calls. -/
theorem drainPackets_eq (now : Nat) (c : TcpConnection) :
    ∃ t ec, drainPackets now c = { c with
      isOpen := c.isOpen && !(drain frameParser c.receiveBuffer).closed
      receiveBuffer := (drain frameParser c.receiveBuffer).rest
      lastReceivedNanos := t
      calls := c.calls ++ ((drain frameParser c.receiveBuffer).delivered.map Call.packet ++
        notice (drain frameParser c.receiveBuffer).closed ec) } := by
  generalize hb : c.receiveBuffer = b
  induction b using drain_induction frameParser generalizing c with
  | more b h =>
    have hd := drain_more frameParser h
    refine ⟨c.lastReceivedNanos, .fault, ?_⟩
    rw [drainPackets_false (tryParsePacket_more now (by rw [hb]; exact h)), hd]
    simp [← hb]
  | reject b h =>
    have hd := drain_reject frameParser h
    obtain ⟨ec, he⟩ := tryParsePacket_reject now (c := c) (by rw [hb]; exact h)
    refine ⟨c.lastReceivedNanos, ec, ?_⟩
    rw [drainPackets_false he, hd]
    simp [closeWithError, ← hb]
  | accept b v n h ih =>
    have hd := drain_accept frameParser h
    have he := tryParsePacket_accept now (c := c) (by rw [hb]; exact h)
    obtain ⟨t, ec, hrec⟩ := ih { c with
      receiveBuffer := c.receiveBuffer.drop n
      calls := c.calls ++ [.packet v]
      lastReceivedNanos := now } (congrArg (List.drop n) hb)
    refine ⟨t, ec, ?_⟩
    rw [drainPackets_true he, hrec, hd]
    simp

end MuonDetector.Network.Framing
