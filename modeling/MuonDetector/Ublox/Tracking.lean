import MuonDetector.Ublox.Parser

/-!
# What the parser has read of a frame

The invariant of the nine states: the state, the fields and the running checksums
are those of the bytes read since the sync bytes. One case analysis of `feedByte`
says what a byte can do to it; soundness, resynchronisation and the round trip all
follow from that by the rules of a tracker.
-/

namespace MuonDetector.Ublox.Parser

open MuonDetector.Library MuonDetector.Library.Bytes MuonDetector.Ublox.Message

/-- The running checksums are those of `body`. -/
def Summed (p : UbxParser) (body : List UInt8) : Prop :=
  (p.ckACalc, p.ckBCalc) = fletcher body

/-- The header `h` has been read and the payload buffer has its length. -/
structure Declared (p : UbxParser) (h : Header) : Prop where
  classId : p.classId = h.classId
  msgId : p.msgId = h.messageId
  len : p.len.toNat = h.len
  bound : p.len.toNat ≤ maxLen.toNat
  size : p.payload.length = p.len.toNat

/-- The bytes of the frame at hand that have been read are `w`. -/
def Since (p : UbxParser) (w : List UInt8) : Prop :=
  match p.state with
  | .sync1 => w = []
  | .sync2 => w = [sync1]
  | .cls => w = [sync1, sync2]
  | .id => Summed p [p.classId] ∧ w = [sync1, sync2, p.classId]
  | .len1 => Summed p [p.classId, p.msgId] ∧ w = [sync1, sync2, p.classId, p.msgId]
  | .len2 => ∃ lo : UInt8, p.len = lo.toUInt16 ∧ Summed p [p.classId, p.msgId, lo] ∧
      w = [sync1, sync2, p.classId, p.msgId, lo]
  | .payload => ∃ h, Declared p h ∧ p.lenIdx.toNat < p.len.toNat ∧
      Summed p (h.bytes ++ p.payload.take p.lenIdx.toNat) ∧
      w = [sync1, sync2] ++ (h.bytes ++ p.payload.take p.lenIdx.toNat)
  | .ckA => ∃ h, Declared p h ∧ Summed p (h.bytes ++ p.payload) ∧
      w = [sync1, sync2] ++ (h.bytes ++ p.payload)
  | .ckB => ∃ h, Declared p h ∧ Summed p (h.bytes ++ p.payload) ∧
      w = [sync1, sync2] ++ (h.bytes ++ p.payload) ++ [p.ckARecv]

theorem Summed.update {p : UbxParser} {body : List UInt8} (h : Summed p body) (b : UInt8) :
    (p.ckACalc + b, p.ckBCalc + (p.ckACalc + b)) = fletcher (body ++ [b]) := by
  rw [fletcher_concat, ← h]
  rfl

/-! ## One byte

Each lemma is about one state of the parser. -/

/-- What can happen to the bytes `w` of the frame at hand when `b` is fed. -/
def Next (p : UbxParser) (w : List UInt8) (b : UInt8) : Prop :=
  (∃ t, feedByte p b = (t, none) ∧ Since t (w ++ [b]) ∧ ∀ m, ¬ UbxFrame m (w ++ [b])) ∨
  (∃ t q, feedByte p b = (t, none) ∧ Since t q ∧ q <:+ [b] ∧
    ∀ m rest, ¬ UbxFrame m (w ++ b :: rest)) ∨
  (∃ t m, feedByte p b = (t, some m) ∧ Since t [] ∧ UbxFrame m (w ++ [b]))

theorem not_frame_of_short {w : List UInt8} (h : w.length < 8) (m : UbxMessage) :
    ¬ UbxFrame m w := by
  intro hf
  have hlen := hf.length
  omega

theorem next_sync1 {p : UbxParser} {w : List UInt8} (hs : p.state = .sync1) (h : Since p w)
    (b : UInt8) : Next p w b := by
  simp only [Since, hs] at h
  subst h
  by_cases hb : b = 0xb5
  · refine Or.inl ⟨{ p with state := .sync2 }, by simp [feedByte, hs, hb],
      by simp [Since, hb, sync1],
      not_frame_of_short (by simp)⟩
  · refine Or.inr (Or.inl ⟨p, [], by simp [feedByte, hs, hb], by simp [Since, hs],
      List.nil_suffix, ?_⟩)
    intro m rest hf
    obtain ⟨hd, -, -, heq⟩ := hf.bytes
    exact hb (List.cons.inj heq).1

theorem next_sync2 {p : UbxParser} {w : List UInt8} (hs : p.state = .sync2) (h : Since p w)
    (b : UInt8) : Next p w b := by
  simp only [Since, hs] at h
  subst h
  by_cases hb : b = 0x62
  · refine Or.inl ⟨{ p with state := .cls }, by simp [feedByte, hs, hb], by simp [Since, hb, sync2],
      not_frame_of_short (by simp)⟩
  · have hno : ∀ m rest, ¬ UbxFrame m ([sync1] ++ b :: rest) := fun m rest hf => hb hf.sync.2
    by_cases hb' : b = 0xb5
    · exact Or.inr (Or.inl ⟨{ p with state := .sync2 }, [b], by simp [feedByte, hs, hb'],
        by simp [Since, hb', sync1], List.suffix_refl _, hno⟩)
    · exact Or.inr (Or.inl ⟨{ p with state := .sync1 }, [], by simp [feedByte, hs, hb, hb'],
        by simp [Since], List.nil_suffix, hno⟩)

theorem next_cls {p : UbxParser} {w : List UInt8} (hs : p.state = .cls) (h : Since p w)
    (b : UInt8) : Next p w b := by
  simp only [Since, hs] at h
  subst h
  refine Or.inl ⟨{ ckUpdate { p with classId := b, ckACalc := 0, ckBCalc := 0 } b with
    state := .id }, by simp only [feedByte, hs, ckUpdate], ?_, not_frame_of_short (by simp)⟩
  exact ⟨rfl, rfl⟩

theorem next_id {p : UbxParser} {w : List UInt8} (hs : p.state = .id) (h : Since p w)
    (b : UInt8) : Next p w b := by
  simp only [Since, hs] at h
  obtain ⟨hsum, rfl⟩ := h
  refine Or.inl ⟨{ ckUpdate { p with msgId := b } b with state := .len1 },
    by simp only [feedByte, hs, ckUpdate], ?_, not_frame_of_short (by simp)⟩
  exact ⟨hsum.update b, rfl⟩

theorem next_len1 {p : UbxParser} {w : List UInt8} (hs : p.state = .len1) (h : Since p w)
    (b : UInt8) : Next p w b := by
  simp only [Since, hs] at h
  obtain ⟨hsum, rfl⟩ := h
  refine Or.inl ⟨{ ckUpdate { p with len := b.toUInt16 } b with state := .len2 },
    by simp only [feedByte, hs, ckUpdate], ?_, not_frame_of_short (by simp)⟩
  exact ⟨b, rfl, hsum.update b, rfl⟩

theorem next_len2 {p : UbxParser} {w : List UInt8} (hs : p.state = .len2) (h : Since p w)
    (b : UInt8) : Next p w b := by
  simp only [Since, hs] at h
  obtain ⟨lo, hlo, hsum, rfl⟩ := h
  let hd : Header := ⟨p.classId, p.msgId, lo, b⟩
  have hlen : (p.len ||| b.toUInt16 <<< 8).toNat = hd.len := by rw [hlo, toNat_or_shiftLeft_eight]; rfl
  by_cases hmax : p.len ||| b.toUInt16 <<< 8 > maxLen
  · refine Or.inr (Or.inl ⟨{ reset p with state := .sync1 }, [],
      by simp [feedByte, hs, hmax, reset],
      rfl, List.nil_suffix, fun m rest hf => ?_⟩)
    have hdeclared : UbxFrame m ([sync1, sync2] ++ (hd.bytes ++ rest)) := hf
    obtain ⟨-, hm, -⟩ := hdeclared.after_header
    have hbound := hf.bound
    have hgt := UInt16.lt_iff_toNat_lt.mp hmax
    omega
  · have hle : hd.len ≤ maxLen.toNat := by
      rw [← hlen]
      exact Nat.le_of_not_lt fun hlt => hmax (UInt16.lt_iff_toNat_lt.mpr hlt)
    let t : UbxParser := { ckUpdate { p with len := p.len ||| b.toUInt16 <<< 8 } b with
      payload := resize p.payload (p.len ||| b.toUInt16 <<< 8).toNat
      lenIdx := 0
      state := if p.len ||| b.toUInt16 <<< 8 = 0 then .ckA else .payload }
    have hstep : feedByte p b = (t, none) := by simp [feedByte, hs, hmax, ckUpdate, t]
    have hdecl : Declared t hd :=
      ⟨rfl, rfl, hlen, by rw [← hlen] at hle; exact hle, resize_length _ _⟩
    have hsum' : Summed t hd.bytes := hsum.update b
    refine Or.inl ⟨t, hstep, ?_, not_frame_of_short (by simp)⟩
    by_cases hzero : p.len ||| b.toUInt16 <<< 8 = 0
    · have hstate : t.state = .ckA := by simp [t, hzero]
      have hnil : t.payload = [] := List.eq_nil_of_length_eq_zero (by simp [t, hzero])
      simp only [Since, hstate, hnil, List.append_nil]
      exact ⟨hd, hdecl, hsum', rfl⟩
    · have hstate : t.state = .payload := by simp [t, hzero]
      have hpos : 0 < (p.len ||| b.toUInt16 <<< 8).toNat :=
        Nat.pos_of_ne_zero fun h0 => hzero (UInt16.toNat_inj.mp h0)
      have hidx : t.lenIdx.toNat = 0 := rfl
      simp only [Since, hstate, hidx, List.take_zero, List.append_nil]
      exact ⟨hd, hdecl, hpos, hsum', rfl⟩

/-- Beyond the header, nothing but a payload and two more bytes makes a frame. -/
theorem not_frame_of_length {h : Header} {xs : List UInt8} (hx : xs.length ≠ h.len + 2)
    (m : UbxMessage) : ¬ UbxFrame m ([sync1, sync2] ++ (h.bytes ++ xs)) := by
  intro hf
  obtain ⟨-, hlen, rfl⟩ := hf.after_header
  exact hx (by simp [hlen])

theorem next_payload {p : UbxParser} {w : List UInt8} (hs : p.state = .payload) (h : Since p w)
    (b : UInt8) : Next p w b := by
  simp only [Since, hs] at h
  obtain ⟨hd, hdecl, hidx, hsum, rfl⟩ := h
  have hbound := hdecl.bound
  have hmax : maxLen.toNat = 4096 := rfl
  have hsize := hdecl.size
  have hsucc : (p.lenIdx + 1).toNat = p.lenIdx.toNat + 1 := by
    rw [UInt16.toNat_add]
    exact Nat.mod_eq_of_lt (by have h1 : UInt16.toNat 1 = 1 := rfl; omega)
  have hbody : hd.bytes ++ p.payload.take p.lenIdx.toNat ++ [b] =
      hd.bytes ++ (p.payload.set p.lenIdx.toNat b).take (p.lenIdx + 1).toNat := by
    rw [hsucc, take_succ_set (by omega), List.append_assoc]
  have hw : [sync1, sync2] ++ (hd.bytes ++ p.payload.take p.lenIdx.toNat) ++ [b] =
      [sync1, sync2] ++
        (hd.bytes ++ (p.payload.set p.lenIdx.toNat b).take (p.lenIdx + 1).toNat) := by
    rw [List.append_assoc, hbody]
  have hno : ∀ m, ¬ UbxFrame m ([sync1, sync2] ++
      (hd.bytes ++ (p.payload.set p.lenIdx.toNat b).take (p.lenIdx + 1).toNat)) := by
    refine not_frame_of_length ?_
    rw [List.length_take, List.length_set, ← hdecl.len]
    omega
  let t : UbxParser := ckUpdate { p with
    payload := p.payload.set p.lenIdx.toNat b, lenIdx := p.lenIdx + 1 } b
  have hdecl' : Declared t hd :=
    ⟨hdecl.classId, hdecl.msgId, hdecl.len, hbound, by simpa [t, ckUpdate] using hsize⟩
  have hsum' : Summed t (hd.bytes ++ t.payload.take t.lenIdx.toNat) := by
    refine Eq.trans (hsum.update b) ?_
    rw [hbody]
    rfl
  by_cases hend : p.lenIdx + 1 = p.len
  · have hfull : t.payload.take t.lenIdx.toNat = t.payload :=
      List.take_of_length_le
        (by rw [hdecl'.size]; exact Nat.le_of_eq (congrArg UInt16.toNat hend).symm)
    refine Or.inl ⟨{ t with state := .ckA }, by simp [feedByte, hs, hend, ckUpdate, t], ?_, ?_⟩
    · rw [hfull] at hsum'
      refine ⟨hd, ⟨hdecl'.classId, hdecl'.msgId, hdecl'.len, hdecl'.bound, hdecl'.size⟩, hsum', ?_⟩
      rw [hw]
      exact congrArg (fun v => [sync1, sync2] ++ (hd.bytes ++ v)) hfull
    · rw [hw]
      exact hno
  · have hlt : (p.lenIdx + 1).toNat < p.len.toNat := by
      have hne : (p.lenIdx + 1).toNat ≠ p.len.toNat := fun he => hend (UInt16.toNat_inj.mp he)
      omega
    have hstate : t.state = .payload := hs
    refine Or.inl ⟨t, by simp [feedByte, hs, hend, ckUpdate, t], ?_, ?_⟩
    · simp only [Since, hstate]
      exact ⟨hd, hdecl', hlt, hsum', hw⟩
    · rw [hw]
      exact hno

theorem next_ckA {p : UbxParser} {w : List UInt8} (hs : p.state = .ckA) (h : Since p w)
    (b : UInt8) : Next p w b := by
  simp only [Since, hs] at h
  obtain ⟨hd, hdecl, hsum, rfl⟩ := h
  refine Or.inl ⟨{ p with ckARecv := b, state := .ckB }, by simp [feedByte, hs], ?_, ?_⟩
  · exact ⟨hd, ⟨hdecl.classId, hdecl.msgId, hdecl.len, hdecl.bound, hdecl.size⟩, hsum, rfl⟩
  · simp only [List.append_assoc]
    refine not_frame_of_length ?_
    rw [List.length_append, hdecl.size, hdecl.len, List.length_singleton]
    omega

theorem next_ckB {p : UbxParser} {w : List UInt8} (hs : p.state = .ckB) (h : Since p w)
    (b : UInt8) : Next p w b := by
  simp only [Since, hs] at h
  obtain ⟨hd, hdecl, hsum, rfl⟩ := h
  have hfull : p.payload.take p.len.toNat = p.payload :=
    List.take_of_length_le (Nat.le_of_eq hdecl.size)
  have hlen : hd.len = p.payload.length := by rw [← hdecl.len, hdecl.size]
  by_cases hck : p.ckARecv = p.ckACalc ∧ b = p.ckBCalc
  · refine Or.inr (Or.inr ⟨{ reset p with state := .sync1 },
      ⟨p.classId.toUInt16 <<< 8 ||| p.msgId.toUInt16, p.payload⟩, ?_, rfl, ?_⟩)
    · simp [feedByte, hs, hck, reset, hfull]
    · have hbound : p.payload.length ≤ maxLen.toNat := by rw [hdecl.size]; exact hdecl.bound
      refine ⟨⟨hd, ?_, hlen, ?_⟩, hbound⟩
      · rw [Header.fullId, ← hdecl.classId, ← hdecl.msgId]
      · rw [← hsum, hck.1, hck.2, List.append_assoc]
        rfl
  · refine Or.inr (Or.inl ⟨{ reset p with state := .sync1 }, [], ?_, rfl, List.nil_suffix, ?_⟩)
    · simp [feedByte, hs, hck, reset]
    · intro m rest hf
      simp only [List.append_assoc] at hf
      obtain ⟨-, hmlen, heq⟩ := hf.after_header
      obtain ⟨hpay, hsums⟩ := List.append_inj heq (by rw [← hlen, hmlen])
      rw [← hpay, ← hsum] at hsums
      obtain ⟨hA, hB⟩ := List.cons.inj hsums
      exact hck ⟨hA, (List.cons.inj hB).1⟩

/-- **What one byte does, in every state.** -/
theorem next {p : UbxParser} {w : List UInt8} (h : Since p w) (b : UInt8) : Next p w b := by
  cases hs : p.state with
  | sync1 => exact next_sync1 hs h b
  | sync2 => exact next_sync2 hs h b
  | cls => exact next_cls hs h b
  | id => exact next_id hs h b
  | len1 => exact next_len1 hs h b
  | len2 => exact next_len2 hs h b
  | payload => exact next_payload hs h b
  | ckA => exact next_ckA hs h b
  | ckB => exact next_ckB hs h b

/-- The parser is a scanner of frames. -/
def tracker : Scanner.Tracker feedByte UbxFrame where
  since := Since
  next := next
  unique := UbxFrame.unique

end MuonDetector.Ublox.Parser
