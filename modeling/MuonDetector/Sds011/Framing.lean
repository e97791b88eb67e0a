import MuonDetector.Sds011.Parser
import Mathlib.Data.List.Forall2

/-!
# Streams of SDS011 frames

The state of the parser says which bytes of a frame it has read. One case analysis
of `feedByte` follows that through a byte; what is emitted, what is read back and
how soon the parser is back at a sync byte are then the rules of a tracker.
-/

namespace MuonDetector.Sds011.Framing

open MuonDetector.Library MuonDetector.Library.Bytes MuonDetector.Sds011.Parser

/-- The sync bytes and `n` data bytes have been read, `w` in all. -/
structure Taken (p : Sds011Parser) (n : Nat) (w : List UInt8) : Prop where
  sum : p.ckCalc = byteSum (p.data.toList.take n)
  bytes : w = [0xAA, typeByte p.msgType] ++ p.data.toList.take n

/-- The bytes of the frame at hand that have been read are `w`. -/
def Since (p : Sds011Parser) (w : List UInt8) : Prop :=
  match p.state with
  | .sync1 => w = []
  | .sync2 => w = [0xAA]
  | .dat0 => w = [0xAA, typeByte p.msgType]
  | .dat1 => Taken p 1 w
  | .dat2 => Taken p 2 w
  | .dat3 => Taken p 3 w
  | .dat4 => Taken p 4 w
  | .dat5 => Taken p 5 w
  | .chksm => Taken p 6 w
  | .tail => ∃ v, Taken p 6 v ∧ w = v ++ [p.ckCalc]

theorem Taken.datByte {p : Sds011Parser} {i : Fin 6} {w : List UInt8} (h : Taken p i w)
    (b : UInt8) (next : State) : Taken (datByte p i b next) (i + 1) (w ++ [b]) := by
  have hset : (p.data.set i b).toList.take (i + 1) = p.data.toList.take i ++ [b] := by
    rw [Vector.toList_set]
    exact take_succ_set (by simp) b
  constructor
  · change p.ckCalc + b = byteSum ((p.data.set i b).toList.take (i + 1))
    rw [hset, byteSum_concat, h.sum]
  · change w ++ [b] = [0xAA, typeByte p.msgType] ++ (p.data.set i b).toList.take (i + 1)
    rw [hset, h.bytes, List.append_assoc]

theorem Taken.length {p : Sds011Parser} {n : Nat} {w : List UInt8} (h : Taken p n w) :
    w.length = 2 + min n 6 := by
  rw [h.bytes]
  simp
  omega

/-- With all data bytes read, what has been read is a frame up to its checksum. -/
theorem Taken.all {p : Sds011Parser} {w : List UInt8} (h : Taken p 6 w) :
    p.ckCalc = byteSum p.data.toList ∧ w = [0xAA, typeByte p.msgType] ++ p.data.toList := by
  have htake : p.data.toList.take 6 = p.data.toList := List.take_of_length_le (by simp)
  exact ⟨by rw [h.sum, htake], by rw [h.bytes, htake]⟩

/-! ## One byte -/

/-- What can happen to the bytes `w` of the frame at hand when `b` is fed. -/
def Next (p : Sds011Parser) (w : List UInt8) (b : UInt8) : Prop :=
  (∃ t, feedByte p b = (t, none) ∧ Since t (w ++ [b]) ∧ ∀ m, ¬ Sds011Frame m (w ++ [b])) ∨
  (∃ t q, feedByte p b = (t, none) ∧ Since t q ∧ q <:+ [b] ∧
    ∀ m rest, ¬ Sds011Frame m (w ++ b :: rest)) ∨
  (∃ t m, feedByte p b = (t, some m) ∧ Since t [] ∧ Sds011Frame m (w ++ [b]))

theorem not_frame_of_short {w : List UInt8} (h : w.length < 10) (m : Sds011Msg) :
    ¬ Sds011Frame m w := by
  intro hf
  have hlen := hf.length
  omega

theorem next_sync1 {p : Sds011Parser} {w : List UInt8} (hs : p.state = .sync1) (h : Since p w)
    (b : UInt8) : Next p w b := by
  simp only [Since, hs] at h
  subst h
  by_cases hb : b = 0xAA
  · exact Or.inl ⟨{ p with state := .sync2 }, by simp [feedByte, hs, hb], by simp [Since, hb],
      not_frame_of_short (by simp)⟩
  · refine Or.inr (Or.inl ⟨p, [], by simp [feedByte, hs, hb], by simp [Since, hs],
      List.nil_suffix, ?_⟩)
    rintro m rest ⟨t, d, hw, -⟩
    exact hb (List.cons.inj hw).1

theorem next_sync2 {p : Sds011Parser} {w : List UInt8} (hs : p.state = .sync2) (h : Since p w)
    (b : UInt8) : Next p w b := by
  simp only [Since, hs] at h
  subst h
  by_cases hdata : b = 0xC0
  · exact Or.inl ⟨{ p with state := .dat0, msgType := .data }, by simp [feedByte, hs, hdata],
      by simp [Since, hdata, typeByte], not_frame_of_short (by simp)⟩
  by_cases hack : b = 0xC5
  · exact Or.inl ⟨{ p with state := .dat0, msgType := .ack },
      by simp [feedByte, hs, hack], by simp [Since, hack, typeByte],
      not_frame_of_short (by simp)⟩
  have hno : ∀ m rest, ¬ Sds011Frame m ([0xAA] ++ b :: rest) := by
    rintro m rest ⟨t, d, hw, -⟩
    have hb : b = typeByte t := (List.cons.inj (List.cons.inj hw).2).1
    cases t with
    | data => exact hdata hb
    | ack => exact hack hb
  by_cases hsync : b = 0xAA
  · exact Or.inr (Or.inl ⟨{ p with state := .sync2 }, [b], by simp [feedByte, hs, hsync],
      by simp [Since, hsync], List.suffix_refl _, hno⟩)
  · exact Or.inr (Or.inl ⟨{ p with state := .sync1 }, [],
      by simp [feedByte, hs, hdata, hack, hsync], by simp [Since], List.nil_suffix, hno⟩)

/-- A data byte goes on with the frame. -/
theorem next_dat {p q : Sds011Parser} {w : List UInt8} {b : UInt8} (i : Fin 6) (s : State)
    (hstep : feedByte p b = (datByte q i b s, none)) (h : Taken q i w)
    (hsince : ∀ r, r.state = s → Taken r (i + 1) (w ++ [b]) → Since r (w ++ [b])) :
    Next p w b := by
  have ht := h.datByte b s
  refine Or.inl ⟨datByte q i b s, hstep, hsince _ rfl ht, not_frame_of_short ?_⟩
  rw [ht.length]
  omega

theorem next_dat0 {p : Sds011Parser} {w : List UInt8} (hs : p.state = .dat0) (h : Since p w)
    (b : UInt8) : Next p w b := by
  simp only [Since, hs] at h
  have hstart : Taken { p with ckCalc := 0 } 0 w := ⟨rfl, by simpa using h⟩
  exact next_dat 0 .dat1 (by simp only [feedByte, hs]) hstart fun r hr ht => by
    rw [Since, hr]; exact ht

theorem next_chksm {p : Sds011Parser} {w : List UInt8} (hs : p.state = .chksm) (h : Since p w)
    (b : UInt8) : Next p w b := by
  simp only [Since, hs] at h
  have hlen := h.length
  by_cases hb : p.ckCalc = b
  · refine Or.inl ⟨{ p with state := .tail }, by simp [feedByte, hs, hb], ?_,
      not_frame_of_short (by simp [hlen])⟩
    exact ⟨w, ⟨h.sum, h.bytes⟩, by rw [← hb]⟩
  · refine Or.inr (Or.inl ⟨reset p, [], by simp [feedByte, hs, hb], rfl, List.nil_suffix, ?_⟩)
    rintro m rest ⟨t, d, hw, -⟩
    obtain ⟨hsum, hbytes⟩ := h.all
    rw [hbytes, frameBytes] at hw
    obtain ⟨-, rfl, hrest⟩ := frame_start_inj hw
    exact hb (hsum.trans (List.cons.inj hrest).1.symm)

theorem next_tail {p : Sds011Parser} {w : List UInt8} (hs : p.state = .tail) (h : Since p w)
    (b : UInt8) : Next p w b := by
  simp only [Since, hs] at h
  obtain ⟨v, hv, rfl⟩ := h
  obtain ⟨hsum, rfl⟩ := hv.all
  by_cases hb : b = 0xAB
  · refine Or.inr (Or.inr ⟨reset p, buildMsg p.msgType p.data, by simp [feedByte, hs, hb], rfl,
      p.msgType, p.data, ?_, buildMsg_carries _ _⟩)
    rw [hsum, hb, frameBytes, List.append_assoc]
    rfl
  · refine Or.inr (Or.inl ⟨reset p, [], by simp [feedByte, hs, hb], rfl, List.nil_suffix, ?_⟩)
    rintro m rest ⟨t, d, hw, -⟩
    rw [List.append_assoc, frameBytes] at hw
    obtain ⟨-, -, hrest⟩ := frame_start_inj hw
    exact hb (List.cons.inj (List.cons.inj hrest).2).1

/-- **What one byte does, in every state.** -/
theorem next {p : Sds011Parser} {w : List UInt8} (h : Since p w) (b : UInt8) : Next p w b := by
  cases hs : p.state with
  | sync1 => exact next_sync1 hs h b
  | sync2 => exact next_sync2 hs h b
  | dat0 => exact next_dat0 hs h b
  | dat1 =>
    rw [Since, hs] at h
    exact next_dat 1 .dat2 (by simp only [feedByte, hs]) h fun r hr ht => by
      rw [Since, hr]; exact ht
  | dat2 =>
    rw [Since, hs] at h
    exact next_dat 2 .dat3 (by simp only [feedByte, hs]) h fun r hr ht => by
      rw [Since, hr]; exact ht
  | dat3 =>
    rw [Since, hs] at h
    exact next_dat 3 .dat4 (by simp only [feedByte, hs]) h fun r hr ht => by
      rw [Since, hr]; exact ht
  | dat4 =>
    rw [Since, hs] at h
    exact next_dat 4 .dat5 (by simp only [feedByte, hs]) h fun r hr ht => by
      rw [Since, hr]; exact ht
  | dat5 =>
    rw [Since, hs] at h
    exact next_dat 5 .chksm (by simp only [feedByte, hs]) h fun r hr ht => by
      rw [Since, hr]; exact ht
  | chksm => exact next_chksm hs h b
  | tail => exact next_tail hs h b

/-- The parser is a scanner of frames. -/
def tracker : Scanner.Tracker feedByte Sds011Frame where
  since := Since
  next := next
  unique := Sds011Frame.unique

/-! ## How much of a frame has been read -/

/-- A frame that is not complete has at most nine bytes. -/
theorem since_length {p : Sds011Parser} {w : List UInt8} (h : Since p w) : w.length ≤ 9 := by
  unfold Since at h
  split at h
  case h_1 => simp [h]
  case h_2 => simp [h]
  case h_3 => simp [h]
  case h_10 =>
    obtain ⟨v, hv, rfl⟩ := h
    have hlen := hv.length
    rw [List.length_append, List.length_singleton]
    omega
  all_goals
    have hlen := h.length
    omega

theorem atSync_of_since {p : Sds011Parser} {w : List UInt8} (h : Since p w)
    (hw : w.length ≤ 1) : AtSync p := by
  unfold Since at h
  split at h
  case h_1 hs => exact Or.inl hs
  case h_2 hs => exact Or.inr hs
  case h_3 => simp [h] at hw
  case h_10 =>
    obtain ⟨v, hv, rfl⟩ := h
    have hlen := hv.length
    rw [List.length_append, List.length_singleton] at hw
    omega
  all_goals
    have hlen := h.length
    omega

theorem returns_of_since {p : Sds011Parser} {w : List UInt8} (h : Since p w)
    {more : List UInt8} (hmore : 8 ≤ more.length) :
    ∃ n, n ≤ 8 ∧ AtSync (feed p (more.take n)).1 := by
  by_cases hw : w.length ≤ 1
  · exact ⟨0, Nat.zero_le _, atSync_of_since h hw⟩
  · have hlong : 9 + 1 ≤ w.length + more.length := by omega
    obtain ⟨n, q, hn, hq, hq1⟩ := tracker.returns (fun _ _ => since_length) h hlong
    exact ⟨n, by omega, atSync_of_since hq hq1⟩

/-! ## Frames that are read back -/

/-- The first sync byte does the same in both sync states. -/
theorem feed_sync2 {p : Sds011Parser} (hs : p.state = .sync2) (rest : List UInt8) :
    feed p (0xAA :: rest) = feed { p with state := .sync1 } (0xAA :: rest) := by
  have h1 : feedByte p 0xAA = ({ p with state := .sync2 }, none) := by simp [feedByte, hs]
  have h2 : feedByte { p with state := .sync1 } 0xAA = ({ p with state := .sync2 }, none) := by
    simp [feedByte]
  rw [feed, feed, Scanner.scan_cons_none h1, Scanner.scan_cons_none h2]

theorem frame_ne_nil {m : Sds011Msg} {f : List UInt8} (h : Sds011Frame m f) : f ≠ [] :=
  List.ne_nil_of_length_pos (by rw [h.length]; decide)

theorem frames_ne_nil {ms : List Sds011Msg} {fs : List (List UInt8)}
    (h : List.Forall₂ Sds011Frame ms fs) : ∀ f ∈ fs, f ≠ [] := by
  induction h with
  | nil => simp
  | cons hf _ ih =>
    intro f hmem
    rcases List.mem_cons.mp hmem with rfl | hrest
    · exact frame_ne_nil hf
    · exact ih f hrest

theorem feed_frames_of_sync1 {ms : List Sds011Msg} {fs : List (List UInt8)}
    (h : List.Forall₂ Sds011Frame ms fs) {p : Sds011Parser} (hs : p.state = .sync1) :
    ∃ q, feed p fs.flatten = (q, ms) ∧ AtSync q := by
  have hsince : Since p [] := by simp [Since, hs]
  obtain ⟨q, hscan, hq⟩ := tracker.reads h (frames_ne_nil h) hsince
  exact ⟨q, hscan, atSync_of_since hq (Nat.zero_le 1)⟩

/-- **Frames written one after the other are read back from either sync state.** -/
theorem feed_frames {ms : List Sds011Msg} {fs : List (List UInt8)}
    (h : List.Forall₂ Sds011Frame ms fs) {p : Sds011Parser} (hp : AtSync p) :
    ∃ q, feed p fs.flatten = (q, ms) ∧ AtSync q := by
  rcases hp with hs | hs
  · exact feed_frames_of_sync1 h hs
  · cases h with
    | nil => exact ⟨p, rfl, Or.inr hs⟩
    | @cons m f ms fs hf hrest =>
      have hread := feed_frames_of_sync1 (.cons hf hrest) (p := { p with state := .sync1 }) rfl
      obtain ⟨t, d, rfl, -⟩ := hf
      exact (feed_sync2 hs _).symm ▸ hread

/-! ## Arbitrary streams -/

/-- What holds of the parser after any stream, cut in any way. -/
structure Sound (chunks : List (List UInt8)) : Prop where
  frames : ∃ fs, List.Forall₂ Sds011Frame (feedChunks {} chunks).2 fs ∧
    Scanner.InOrder [] fs chunks.flatten
  cuts : ∀ p, feedChunks p chunks = feed p chunks.flatten
  returns : ∀ more : List UInt8, 8 ≤ more.length →
    ∃ n, n ≤ 8 ∧ AtSync (feed (feedChunks {} chunks).1 (more.take n)).1

theorem sound (chunks : List (List UInt8)) : Sound chunks := by
  have hall : feedChunks {} chunks = feed {} chunks.flatten := Scanner.scanChunks_eq _ chunks
  have hstart : tracker.since {} [] := rfl
  obtain ⟨fs, w, hfs, hw, hord⟩ := tracker.frames hstart chunks.flatten
  refine ⟨⟨fs, ?_, hord.forget⟩, fun p => Scanner.scanChunks_eq p chunks, ?_⟩
  · rw [hall]
    exact hfs
  · intro more hmore
    rw [hall]
    exact returns_of_since hw hmore

/-- **The parser emits frames of the stream, reads back every concatenation of frames,
and leaves a broken one within eight bytes.** -/
theorem sds011_feed_exact :
    (∀ chunks, Sound chunks) ∧
    (∀ p ms fs (chunks : List (List UInt8)), AtSync p → List.Forall₂ Sds011Frame ms fs →
      chunks.flatten = fs.flatten → ∃ q, feedChunks p chunks = (q, ms) ∧ AtSync q) := by
  refine ⟨sound, ?_⟩
  intro p ms fs chunks hp hfs hcut
  rw [feedChunks, Scanner.scanChunks_eq, hcut]
  exact feed_frames hfs hp

/-- A measurement with sync and tail bytes among its data, read after a stray sync byte. -/
theorem sds011_feed_exact_sync_data :
    ∃ q, feedChunks { state := .sync2 } [[0xAA, 0xC0, 0xAA], [0xC0, 0xAB, 0, 1, 2, 0x18, 0xAB]] =
      (q, [.event { pm2dot5 := 0xC0AA, pm10dot0 := 0x00AB, id := 0x0201 }]) ∧ AtSync q :=
  sds011_feed_exact.2 { state := .sync2 } _ [frameBytes .data #v[0xAA, 0xC0, 0xAB, 0, 1, 2]] _
    (Or.inr rfl) (.cons ⟨.data, _, rfl, rfl, rfl, rfl⟩ .nil) (by decide)

end MuonDetector.Sds011.Framing
