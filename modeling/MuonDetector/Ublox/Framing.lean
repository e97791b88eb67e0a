import MuonDetector.Ublox.Tracking
import Mathlib.Data.List.Forall2

/-!
# Streams of UBX messages

What the parser makes of a stream of raw messages, and what it makes of any stream
at all.
-/

namespace MuonDetector.Ublox.Framing

open MuonDetector.Library MuonDetector.Ublox.Message MuonDetector.Ublox.Parser

/-- The raw messages, one after the other. -/
def rawStream (signedChar : Bool) (ms : List UbxMessage) : List UInt8 :=
  (ms.map (rawMessageString signedChar)).flatten

theorem rawMessageString_cons (signedChar : Bool) (m : UbxMessage) :
    ∃ rest, rawMessageString signedChar m = sync1 :: rest :=
  ⟨_, rawMessageString_eq signedChar m⟩

theorem frames_rawStream (signedChar : Bool) {ms : List UbxMessage}
    (h : ∀ m ∈ ms, m.payload.length ≤ maxLen.toNat) :
    List.Forall₂ UbxFrame ms (ms.map (rawMessageString signedChar)) := by
  rw [List.forall₂_map_right_iff, List.forall₂_same]
  exact fun m hm => ubxFrame_rawMessageString signedChar (h m hm)

/-- The first sync byte does the same in both sync states. -/
theorem feed_sync2 {p : UbxParser} (hs : p.state = .sync2) (rest : List UInt8) :
    feed p (sync1 :: rest) = feed { p with state := .sync1 } (sync1 :: rest) := by
  have h1 : feedByte p sync1 = ({ p with state := .sync2 }, none) := by
    simp [feedByte, hs, sync1]
  have h2 : feedByte { p with state := .sync1 } sync1 = ({ p with state := .sync2 }, none) := by
    simp [feedByte, sync1]
  rw [feed, feed, Scanner.scan_cons_none h1, Scanner.scan_cons_none h2]

theorem feed_rawStream (signedChar : Bool) {ms : List UbxMessage}
    (hlen : ∀ m ∈ ms, m.payload.length ≤ maxLen.toNat) {p : UbxParser} (hs : p.state = .sync1) :
    ∃ q, feed p (rawStream signedChar ms) = (q, ms) ∧ q.state = .sync1 := by
  have hne : ∀ f ∈ ms.map (rawMessageString signedChar), f ≠ [] := by
    intro f hf
    obtain ⟨m, -, rfl⟩ := List.mem_map.mp hf
    obtain ⟨rest, hrest⟩ := rawMessageString_cons signedChar m
    rw [hrest]
    exact List.cons_ne_nil _ _
  have hsince : Since p [] := by simp [Since, hs]
  obtain ⟨q, hscan, hq⟩ := tracker.reads (frames_rawStream signedChar hlen) hne hsince
  refine ⟨q, hscan, ?_⟩
  cases hstate : q.state <;> simp_all [tracker, Since]

/-- Reading a stream that is not empty may begin in either sync state. -/
theorem feed_rawStream_of_atSync (signedChar : Bool) {ms : List UbxMessage} (hne : ms ≠ [])
    (hlen : ∀ m ∈ ms, m.payload.length ≤ maxLen.toNat) {p : UbxParser} (hp : AtSync p) :
    ∃ q, feed p (rawStream signedChar ms) = (q, ms) ∧ q.state = .sync1 := by
  rcases hp with hs | hs
  · exact feed_rawStream signedChar hlen hs
  · obtain ⟨m, ms, rfl⟩ := List.exists_cons_of_ne_nil hne
    obtain ⟨rest, hrest⟩ := rawMessageString_cons signedChar m
    have hfirst : rawStream signedChar (m :: ms) = sync1 :: (rest ++ rawStream signedChar ms) := by
      rw [rawStream, List.map_cons, List.flatten_cons, hrest, rawStream]
      rfl
    have hread := feed_rawStream signedChar hlen (p := { p with state := .sync1 }) rfl
    rw [hfirst] at hread ⊢
    rw [← feed_sync2 hs] at hread
    exact hread

/-- **Raw messages, cut anywhere, are read back by a parser in a sync state.** -/
theorem raw_messages_round_trip (signedChar : Bool) (ms : List UbxMessage) (p : UbxParser)
    (chunks : List (List UInt8)) (hne : ms ≠ [])
    (hlen : ∀ m ∈ ms, m.payload.length ≤ maxLen.toNat) (hp : AtSync p)
    (hcut : chunks.flatten = rawStream signedChar ms) :
    ∃ q, feedChunks p chunks = (q, ms) ∧ q.state = .sync1 := by
  rw [feedChunks, Scanner.scanChunks_eq, hcut]
  exact feed_rawStream_of_atSync signedChar hne hlen hp

/-- Two messages, read after a stray `B5` and cut within both payloads, in the second between two
bytes that look like the head of a frame. -/
theorem raw_messages_round_trip_two :
    ∃ q, feedChunks { state := .sync2 } [[0xb5, 0x62, 6, 1, 3, 0, 1],
      [3, 5, 19, 77, 0xb5, 0x62, 1, 3, 4, 0, 0, 0, 0xb5], [0x62, 31, 1]] =
        (q, [⟨0x0601, [1, 3, 5]⟩, ⟨0x0103, [0, 0, 0xb5, 0x62]⟩]) ∧ q.state = .sync1 :=
  raw_messages_round_trip false [⟨0x0601, [1, 3, 5]⟩, ⟨0x0103, [0, 0, 0xb5, 0x62]⟩]
    { state := .sync2 } _ (by decide) (by decide) (Or.inr rfl) (by decide)

/-! ## Arbitrary streams -/

/-- What holds of the parser after any stream, cut in any way. -/
structure Sound (chunks : List (List UInt8)) : Prop where
  frames : ∃ fs, List.Forall₂ UbxFrame (feedChunks {} chunks).2 fs ∧
    Scanner.InOrder [] fs chunks.flatten
  cuts : ∀ chunks', chunks'.flatten = chunks.flatten → feedChunks {} chunks' = feedChunks {} chunks
  index : (feedChunks {} chunks).1.state = .payload →
    (feedChunks {} chunks).1.lenIdx.toNat < (feedChunks {} chunks).1.payload.length
  returns : ∀ more : List UInt8, 4102 ≤ more.length →
    ∃ n, n ≤ 4102 ∧ AtSync (feed (feedChunks {} chunks).1 (more.take n)).1

/-- A frame that is not complete has at most 4103 bytes. -/
theorem since_length {p : UbxParser} {w : List UInt8} (h : Since p w) : w.length ≤ 4103 := by
  have hmax : maxLen.toNat = 4096 := rfl
  unfold Since at h
  cases hs : p.state with
  | sync1 => rw [hs] at h; simp [h]
  | sync2 => rw [hs] at h; simp [h]
  | cls => rw [hs] at h; simp [h]
  | id => rw [hs] at h; simp [h.2]
  | len1 => rw [hs] at h; simp [h.2]
  | len2 =>
    rw [hs] at h
    obtain ⟨lo, -, -, rfl⟩ := h
    simp
  | payload =>
    rw [hs] at h
    obtain ⟨hd, hdecl, hidx, -, rfl⟩ := h
    have hbound := hdecl.bound
    simp [Header.bytes]
    omega
  | ckA =>
    rw [hs] at h
    obtain ⟨hd, hdecl, -, rfl⟩ := h
    have hbound := hdecl.bound
    simp [Header.bytes, hdecl.size]
    omega
  | ckB =>
    rw [hs] at h
    obtain ⟨hd, hdecl, -, rfl⟩ := h
    have hbound := hdecl.bound
    simp [Header.bytes, hdecl.size]
    omega

theorem atSync_of_since {p : UbxParser} {w : List UInt8} (h : Since p w) (hw : w.length ≤ 1) :
    AtSync p := by
  unfold Since at h
  cases hs : p.state with
  | sync1 => exact Or.inl hs
  | sync2 => exact Or.inr hs
  | cls => simp_all
  | id => simp_all
  | len1 => simp_all
  | len2 =>
    rw [hs] at h
    obtain ⟨lo, -, -, rfl⟩ := h
    simp at hw
  | payload =>
    rw [hs] at h
    obtain ⟨hd, -, -, -, rfl⟩ := h
    simp at hw
  | ckA =>
    rw [hs] at h
    obtain ⟨hd, -, -, rfl⟩ := h
    simp at hw
  | ckB =>
    rw [hs] at h
    obtain ⟨hd, -, -, rfl⟩ := h
    simp at hw

/-- In the payload state the index is inside the buffer. -/
theorem index_lt_of_since {p : UbxParser} {w : List UInt8} (h : Since p w)
    (hs : p.state = .payload) : p.lenIdx.toNat < p.payload.length := by
  simp only [Since, hs] at h
  obtain ⟨hd, hdecl, hidx, -, -⟩ := h
  rw [hdecl.size]
  exact hidx

theorem returns_of_since {p : UbxParser} {w : List UInt8} (h : Since p w) {more : List UInt8}
    (hmore : 4102 ≤ more.length) : ∃ n, n ≤ 4102 ∧ AtSync (feed p (more.take n)).1 := by
  by_cases hw : w.length ≤ 1
  · exact ⟨0, Nat.zero_le _, atSync_of_since h hw⟩
  · have hlong : 4103 + 1 ≤ w.length + more.length := by omega
    obtain ⟨n, q, hn, hq, hq1⟩ := tracker.returns (fun _ _ => since_length) h hlong
    exact ⟨n, by omega, atSync_of_since hq hq1⟩

/-- **Whatever the stream and its cuts, the parser emits only frames of it, stays
inside its buffer, and is back at a sync state within 4102 bytes.** -/
theorem feed_sound (chunks : List (List UInt8)) : Sound chunks := by
  have hall : feedChunks {} chunks = feed {} chunks.flatten := Scanner.scanChunks_eq _ chunks
  have hstart : tracker.since {} [] := rfl
  obtain ⟨fs, w, hfs, hw, hord⟩ := tracker.frames hstart chunks.flatten
  refine ⟨⟨fs, ?_, hord.forget⟩, ?_, ?_, ?_⟩
  · rw [hall]
    exact hfs
  · intro chunks' h
    rw [hall, feedChunks, Scanner.scanChunks_eq, h]
  · rw [hall]
    exact index_lt_of_since hw
  · intro more hmore
    rw [hall]
    exact returns_of_since hw hmore

end MuonDetector.Ublox.Framing
