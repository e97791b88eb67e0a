import Mathlib.Data.List.Forall2
import MuonDetector.Network.Framing

/-!
# Packets delivered from a chunked byte stream

A connection is fed the chunks of a byte stream one read at a time. What it
delivers and whether it closes depend on the stream alone and are those of the
longest sequence of valid frames at its front. Hence the round trip of frames
built by a peer, and the exact payload sizes for which sender and receiver agree.
-/

namespace MuonDetector.Network.Delivery

open MuonDetector.Library.StreamParser
open MuonDetector.Network.Frame MuonDetector.Network.Connection MuonDetector.Network.Framing

/-- The bytes of one successful read and the clock when its lambda runs. -/
structure Chunk where
  now : Nat
  bytes : List UInt8

def wire (ks : List Chunk) : List UInt8 := (ks.map Chunk.bytes).flatten

/-- A chunk arrives: `consumeIncomingBytes` and the loop over `tryParsePacket`. A
closed socket reads nothing more. -/
def receive (c : TcpConnection) (k : Chunk) : TcpConnection :=
  if c.isOpen then drainPackets k.now (consumeIncomingBytes c k.bytes) else c

def receiveAll (c : TcpConnection) (ks : List Chunk) : TcpConnection := ks.foldl receive c

def packet? : Call → Option TcpPacket
  | .packet p => some p
  | .disconnected _ => none

/-- The packets among the handler calls, in order. -/
def deliveries (calls : List Call) : List TcpPacket := calls.filterMap packet?

theorem deliveries_append (cs ds : List Call) :
    deliveries (cs ++ ds) = deliveries cs ++ deliveries ds := List.filterMap_append

theorem deliveries_packets (ps : List TcpPacket) : deliveries (ps.map Call.packet) = ps := by
  simp [deliveries, Function.comp_def, packet?]

theorem deliveries_notice (closed : Bool) (ec : ErrorCode) :
    deliveries (notice closed ec) = [] := by
  cases closed <;> rfl

/-- A connection that has read what the incremental parser has read. -/
structure Tracks (c : TcpConnection) (o : Outcome UInt8 TcpPacket) : Prop where
  isOpen : c.isOpen = !o.closed
  calls : ∃ ec, c.calls = o.delivered.map Call.packet ++ notice o.closed ec
  buffer : o.closed = false → c.receiveBuffer = o.rest

theorem fresh_tracks (now : Nat) : Tracks (fresh now) (drain frameParser []) := by
  have hd : drain frameParser [] = ⟨[], [], false⟩ := drain_more frameParser (by rfl)
  rw [hd]
  exact ⟨rfl, ⟨.fault, rfl⟩, fun _ => rfl⟩

theorem receive_tracks {c : TcpConnection} {o : Outcome UInt8 TcpPacket} (h : Tracks c o)
    (k : Chunk) : Tracks (receive c k) (feed frameParser o k.bytes) := by
  unfold receive feed
  cases ho : o.closed with
  | true =>
    have hc : c.isOpen = false := by rw [h.isOpen, ho]; rfl
    rw [hc]
    exact h
  | false =>
    have hc : c.isOpen = true := by rw [h.isOpen, ho]; rfl
    obtain ⟨ec, hcalls⟩ := h.calls
    obtain ⟨t, ec', hdrain⟩ := drainPackets_eq k.now (consumeIncomingBytes c k.bytes)
    have hb : (consumeIncomingBytes c k.bytes).receiveBuffer = o.rest ++ k.bytes := by
      rw [consumeIncomingBytes, h.buffer ho]
    rw [hb] at hdrain
    simp only [hc, if_true, Bool.false_eq_true, if_false]
    rw [hdrain]
    refine ⟨?_, ⟨ec', ?_⟩, fun _ => rfl⟩
    · simp [consumeIncomingBytes, hc]
    · simp [consumeIncomingBytes, hcalls, ho]

theorem receiveAll_tracks {c : TcpConnection} {o : Outcome UInt8 TcpPacket} (h : Tracks c o)
    (ks : List Chunk) :
    Tracks (receiveAll c ks) ((ks.map Chunk.bytes).foldl (feed frameParser) o) := by
  induction ks generalizing c o with
  | nil => exact h
  | cons k ks ih => exact ih (receive_tracks h k)

/-- **A fresh connection makes of any chunks what draining their bytes makes of them.** -/
theorem receiveAll_fresh (now : Nat) (ks : List Chunk) :
    Tracks (receiveAll (fresh now) ks) (drain frameParser (wire ks)) := by
  have ht := receiveAll_tracks (fresh_tracks now) ks
  obtain ⟨hd, hc, hr⟩ := feed_chunks frameParser (ks.map Chunk.bytes)
  obtain ⟨ec, hcalls⟩ := ht.calls
  exact ⟨by rw [ht.isOpen, hc]; rfl, ⟨ec, by rw [hcalls, hd, hc]; rfl⟩,
    fun h => by rw [ht.buffer (hc.trans h), hr (hc.trans h)]; rfl⟩

/-! ## Frames built by a peer -/

def frames (packets : List TcpPacket) : List (List UInt8) :=
  packets.map fun p => buildFrame p.key p.payload

theorem frames_valid {packets : List TcpPacket}
    (hp : ∀ p ∈ packets, p.payload.length ≤ kMaxPayloadSize) :
    List.Forall₂ frameParser.Frame packets (frames packets) := by
  rw [frames, List.forall₂_map_right_iff, List.forall₂_same]
  exact fun p hmem => frame_iff_validFrame.mpr (validFrame_buildFrame (hp p hmem))

theorem drain_sent {packets : List TcpPacket}
    (hp : ∀ p ∈ packets, p.payload.length ≤ kMaxPayloadSize) :
    drain frameParser (frames packets).flatten = ⟨packets, [], false⟩ := by
  have hd : drain frameParser [] = ⟨[], [], false⟩ := drain_more frameParser (by rfl)
  have h := drain_frames frameParser (frames_valid hp) []
  rw [List.append_nil, hd] at h
  simpa [Outcome.after] using h

/-- As long as nothing is wrong there are only packets. -/
theorem Tracks.calls_packets {c : TcpConnection} {o : Outcome UInt8 TcpPacket} (h : Tracks c o)
    (ho : o.closed = false) : c.calls = o.delivered.map Call.packet := by
  obtain ⟨ec, hcalls⟩ := h.calls
  simpa [ho] using hcalls

theorem tracks_sent (now : Nat) {packets : List TcpPacket}
    (hp : ∀ p ∈ packets, p.payload.length ≤ kMaxPayloadSize) {ks : List Chunk}
    (hcut : wire ks = (frames packets).flatten) :
    Tracks (receiveAll (fresh now) ks) ⟨packets, [], false⟩ := by
  have ht := receiveAll_fresh now ks
  rwa [hcut, drain_sent hp] at ht

/-- **Framing round trip.** Frames built by `buildFrame`, cut anywhere, reach the
packet handler once each and in order, and nothing else happens. -/
theorem framing_round_trip (now : Nat) (packets : List TcpPacket)
    (hp : ∀ p ∈ packets, p.payload.length ≤ kMaxPayloadSize) (ks : List Chunk)
    (hcut : wire ks = (frames packets).flatten) :
    (receiveAll (fresh now) ks).calls = packets.map Call.packet ∧
      (receiveAll (fresh now) ks).isOpen = true ∧
      (receiveAll (fresh now) ks).receiveBuffer = [] := by
  have ht := tracks_sent now hp hcut
  exact ⟨ht.calls_packets rfl, ht.isOpen, ht.buffer rfl⟩

/-- Two frames in three chunks, the first cut inside the first header. -/
theorem framing_round_trip_split :
    (receiveAll (fresh 0) [⟨1, (buildFrame 2 [7]).take 5⟩,
      ⟨2, (buildFrame 2 [7]).drop 5 ++ (buildFrame 1 []).take 3⟩,
      ⟨3, (buildFrame 1 []).drop 3⟩]).calls = [.packet ⟨2, [7]⟩, .packet ⟨1, []⟩] :=
  (framing_round_trip 0 [⟨2, [7]⟩, ⟨1, []⟩] (by decide) _ (by decide)).1

/-! ## Arbitrary bytes -/

/-- `packets` is the longest sequence of valid frames at the front of the stream and
`rest` is what follows them. -/
structure LeadingFrames (stream : List UInt8) (packets : List TcpPacket) (rest : List UInt8) :
    Prop where
  decomposes : ∃ fs, List.Forall₂ ValidFrame packets fs ∧ stream = fs.flatten ++ rest
  longest : ∀ ps fs, List.Forall₂ ValidFrame ps fs → fs.flatten <+: stream → ps <+: packets

theorem frame_eq_validFrame : frameParser.Frame = ValidFrame := by
  funext packet f
  exact propext frame_iff_validFrame

theorem drain_leading (stream : List UInt8) :
    LeadingFrames stream (drain frameParser stream).delivered (drain frameParser stream).rest where
  decomposes := by
    have h := drain_decomposes frameParser stream
    rwa [frame_eq_validFrame] at h
  longest ps fs hfs hpre := by
    rw [← frame_eq_validFrame] at hfs
    exact drain_longest frameParser hfs hpre

theorem drain_closed_iff (stream : List UInt8) :
    (drain frameParser stream).closed = true ↔
      BadHeader (drain frameParser stream).rest ∨ BadChecksum (drain frameParser stream).rest := by
  have h : look (drain frameParser stream).rest = _ := look_rest frameParser stream
  rw [← look_reject_iff, h]
  cases (drain frameParser stream).closed <;> simp

/-- Bytes that wait for more are shorter than one maximal frame. -/
theorem look_more_length {b : List UInt8} (h : look b = .more) :
    b.length < kFrameOverhead + kMaxPayloadSize := by
  have ho := overhead_eq
  unfold look at h
  split at h
  · omega
  · split at h
    · cases h
    · rename_i hh
      have hk := (not_not.mp hh).2.2
      split at h
      · omega
      · split at h <;> cases h

/-- What a connection has done once it has read the chunks `ks`. -/
structure ParsesExactly (ks : List Chunk) (c : TcpConnection) : Prop where
  leading : ∃ rest, LeadingFrames (wire ks) (deliveries c.calls) rest ∧
    (c.isOpen = false ↔ BadHeader rest ∨ BadChecksum rest) ∧
    (c.isOpen = true → c.receiveBuffer = rest)
  silent : ∃ tail, c.calls = (deliveries c.calls).map Call.packet ++ tail ∧
    ∀ call ∈ tail, packet? call = none
  short : c.isOpen = true → c.receiveBuffer.length < kFrameOverhead + kMaxPayloadSize
  bounded : c.isOpen = true → ∀ bytes : List UInt8, bytes.length ≤ readBufferSize →
    (consumeIncomingBytes c bytes).receiveBuffer.length ≤
      kHeaderSize + kChecksumSize + kMaxPayloadSize - 1 + readBufferSize

theorem deliveries_tracks {c : TcpConnection} {o : Outcome UInt8 TcpPacket} (h : Tracks c o) :
    deliveries c.calls = o.delivered := by
  obtain ⟨ec, hcalls⟩ := h.calls
  rw [hcalls, deliveries_append, deliveries_packets, deliveries_notice, List.append_nil]

theorem parsesExactly_fresh (now : Nat) (ks : List Chunk) :
    ParsesExactly ks (receiveAll (fresh now) ks) := by
  have ht := receiveAll_fresh now ks
  have hd := deliveries_tracks ht
  obtain ⟨ec, hcalls⟩ := ht.calls
  have hopen : (receiveAll (fresh now) ks).isOpen = true →
      (drain frameParser (wire ks)).closed = false := fun h => by simpa [ht.isOpen] using h
  have hshort : (receiveAll (fresh now) ks).isOpen = true →
      (receiveAll (fresh now) ks).receiveBuffer.length < kFrameOverhead + kMaxPayloadSize := by
    intro h
    have hl := look_rest frameParser (wire ks)
    rw [hopen h] at hl
    rw [ht.buffer (hopen h)]
    exact look_more_length hl
  refine ⟨⟨(drain frameParser (wire ks)).rest, ?_, ?_, fun h => ht.buffer (hopen h)⟩, ?_, hshort,
    ?_⟩
  · rw [hd]
    exact drain_leading (wire ks)
  · rw [ht.isOpen, ← drain_closed_iff]
    simp
  · refine ⟨notice (drain frameParser (wire ks)).closed ec, by rw [hd]; exact hcalls, ?_⟩
    cases (drain frameParser (wire ks)).closed <;> simp [packet?]
  · intro h bytes hbytes
    have hs := hshort h
    have ho : kFrameOverhead = kHeaderSize + kChecksumSize := rfl
    simp only [consumeIncomingBytes, List.length_append]
    omega

/-- **Exactness on arbitrary bytes.** Every chunking of a stream gives the longest
leading sequence of valid frames, closes exactly on a bad header or checksum after
them, and keeps the buffer below one maximal frame. -/
theorem receiveAll_exact (now : Nat) (ks : List Chunk) :
    ParsesExactly ks (receiveAll (fresh now) ks) ∧
      ∀ (now' : Nat) (ks' : List Chunk), wire ks' = wire ks →
        deliveries (receiveAll (fresh now') ks').calls =
            deliveries (receiveAll (fresh now) ks).calls ∧
          (receiveAll (fresh now') ks').isOpen = (receiveAll (fresh now) ks).isOpen := by
  refine ⟨parsesExactly_fresh now ks, fun now' ks' hw => ?_⟩
  have ht := receiveAll_fresh now ks
  have ht' := receiveAll_fresh now' ks'
  rw [hw] at ht'
  exact ⟨by rw [deliveries_tracks ht, deliveries_tracks ht'], by rw [ht.isOpen, ht'.isOpen]⟩

/-! ## Sender and receiver -/

/-- The bytes that a call of `sendPacket` adds to the write queue; none when the
call refuses the packet. -/
def onWire (c : TcpConnection) (key : UInt16) (payload : List UInt8) : List UInt8 :=
  (((sendPacket c key payload).writeQueue.drop c.writeQueue.length).map Buffer.bytes).flatten

theorem sendPacket_writeQueue (c : TcpConnection) (key : UInt16) (payload : List UInt8) :
    (sendPacket c key payload).writeQueue =
      c.writeQueue ++ [⟨c.pushed, buildFrame key payload⟩] := by
  unfold sendPacket doWrite
  dsimp only
  split
  · rfl
  · split <;> simp_all

theorem onWire_eq (c : TcpConnection) (key : UInt16) (payload : List UInt8) :
    onWire c key payload = buildFrame key payload := by
  simp [onWire, sendPacket_writeQueue]

/-- The peer, however the bytes are cut, makes one packet of them and nothing else. -/
def Delivers (bytes : List UInt8) (packet : TcpPacket) : Prop :=
  ∀ (now : Nat) (ks : List Chunk), wire ks = bytes →
    (receiveAll (fresh now) ks).calls = [.packet packet]

/-- The peer never makes this packet of the bytes. -/
def Refuses (bytes : List UInt8) (packet : TcpPacket) : Prop :=
  ∀ (now : Nat) (ks : List Chunk), wire ks = bytes →
    Call.packet packet ∉ (receiveAll (fresh now) ks).calls

/-- What is put on the wire is delivered, and what the peer would refuse is refused
by the sender, whose connection stays as it was. -/
structure SizeAgreement (key : UInt16) (payload : List UInt8) : Prop where
  delivered : ∀ c, onWire c key payload ≠ [] → Delivers (onWire c key payload) ⟨key, payload⟩
  refused : Refuses (buildFrame key payload) ⟨key, payload⟩ →
    ∀ c, onWire c key payload = [] ∧ (sendPacket c key payload).isOpen = c.isOpen

theorem delivers_buildFrame (key : UInt16) {payload : List UInt8}
    (hp : payload.length ≤ kMaxPayloadSize) : Delivers (buildFrame key payload) ⟨key, payload⟩ := by
  intro now ks hcut
  have hone : ∀ p ∈ [(⟨key, payload⟩ : TcpPacket)], p.payload.length ≤ kMaxPayloadSize := by
    simpa using hp
  exact (tracks_sent now hone (by simpa [frames] using hcut)).calls_packets rfl

/-- No delivered payload is above the limit. -/
theorem delivered_bound {now : Nat} {ks : List Chunk} {packet : TcpPacket}
    (h : Call.packet packet ∈ (receiveAll (fresh now) ks).calls) :
    packet.payload.length ≤ kMaxPayloadSize := by
  obtain ⟨rest, hlead, -, -⟩ := (parsesExactly_fresh now ks).leading
  obtain ⟨fs, hfs, -⟩ := hlead.decomposes
  have hmem : packet ∈ deliveries (receiveAll (fresh now) ks).calls :=
    List.mem_filterMap.mpr ⟨_, h, rfl⟩
  have hbounds := (List.forall₂_and_left _ _).mp (hfs.imp fun _ _ hf => ⟨hf.bound, hf⟩)
  exact hbounds.1 packet hmem

theorem buildFrame_ne_nil (key : UInt16) (payload : List UInt8) : buildFrame key payload ≠ [] := by
  intro h
  have hl := buildFrame_length key payload
  have hpos : 0 < kFrameOverhead := by decide
  rw [h, List.length_nil] at hl
  omega

theorem sizeAgreement_of_le {key : UInt16} {payload : List UInt8}
    (hp : payload.length ≤ kMaxPayloadSize) : SizeAgreement key payload where
  delivered c _ := by
    rw [onWire_eq]
    exact delivers_buildFrame key hp
  refused h := by
    have hd := delivers_buildFrame key hp 0 [⟨0, buildFrame key payload⟩] (by simp [wire])
    exact absurd (by rw [hd]; exact List.mem_singleton.mpr rfl) (h 0 _ (by simp [wire]))

theorem le_of_sizeAgreement {key : UInt16} {payload : List UInt8}
    (h : SizeAgreement key payload) : payload.length ≤ kMaxPayloadSize := by
  have hne : onWire (fresh 0) key payload ≠ [] := by
    rw [onWire_eq]
    exact buildFrame_ne_nil key payload
  have hd := h.delivered (fresh 0) hne 0 [⟨0, onWire (fresh 0) key payload⟩] (by simp [wire])
  have hmem : Call.packet ⟨key, payload⟩ ∈
      (receiveAll (fresh 0) [⟨0, onWire (fresh 0) key payload⟩]).calls := by
    rw [hd]
    exact List.mem_singleton.mpr rfl
  exact delivered_bound hmem

/-- **Sender and receiver agree exactly on the payloads within the limit.** -/
theorem sizeAgreement_iff (key : UInt16) (payload : List UInt8) :
    SizeAgreement key payload ↔ payload.length ≤ kMaxPayloadSize :=
  ⟨le_of_sizeAgreement, sizeAgreement_of_le⟩

/-- An ADC trace one byte above the limit is put on the wire and never delivered. -/
theorem oversized_trace_disagrees :
    ¬ SizeAgreement 281 (List.replicate (kMaxPayloadSize + 1) 0) := by
  intro h
  have hle := le_of_sizeAgreement h
  rw [List.length_replicate] at hle
  omega

end MuonDetector.Network.Delivery
