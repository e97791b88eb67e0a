import MuonDetector.Library.Bytes

/-!
# UBX messages and their raw bytes

A raw message is the two sync bytes, class, id, the payload length in
little-endian order, the payload and the 8-bit Fletcher checksum of all that
follows the sync bytes. `rawMessageString` writes one and `UbxFrame` says, without
a parser, which bytes are one. Whether plain `char` is signed is a parameter of
the encoder; the frame does not depend on it.
-/

namespace MuonDetector.Ublox.Message

open MuonDetector.Library.Bytes

def sync1 : UInt8 := 0xb5
def sync2 : UInt8 := 0x62

/-- The longest payload that the parser takes. -/
def maxLen : UInt16 := 4096

structure UbxMessage where
  fullId : UInt16
  payload : List UInt8
  deriving DecidableEq, Repr

def classId (m : UbxMessage) : UInt8 := (m.fullId >>> 8 &&& 0xff).toUInt8
def messageId (m : UbxMessage) : UInt8 := (m.fullId &&& 0xff).toUInt8

/-- `chkB += chkA += ch`, with the sums truncated to 8 bits. -/
def checkSumChar (signedChar : Bool) (chk : UInt8 × UInt8) (ch : UInt8) : UInt8 × UInt8 :=
  let chkA := UInt8.ofInt (chk.1.toNat + charValue signedChar ch)
  (chkA, UInt8.ofNat (chk.2.toNat + chkA.toNat))

def checkSum (signedChar : Bool) (data : List UInt8) : UInt16 :=
  let chk := data.foldl (checkSumChar signedChar) (0, 0)
  chk.2.toUInt16 <<< 8 ||| chk.1.toUInt16

def rawMessageString (signedChar : Bool) (m : UbxMessage) : List UInt8 :=
  let size := m.payload.length
  let header := [sync1, sync2, classId m, messageId m, UInt8.ofNat (size &&& 0xff),
    (UInt16.ofNat (size &&& 0xff00) >>> 8).toUInt8]
  let raw := header ++ m.payload
  let chksum := checkSum signedChar (raw.drop 2)
  raw ++ [(chksum &&& 0xff).toUInt8, (chksum >>> 8).toUInt8]

/-! ## Frames -/

/-- A message with the bytes that a frame has between the sync bytes and the payload. -/
structure Header where
  classId : UInt8
  messageId : UInt8
  lenLo : UInt8
  lenHi : UInt8

def Header.bytes (h : Header) : List UInt8 := [h.classId, h.messageId, h.lenLo, h.lenHi]

def Header.len (h : Header) : Nat := h.lenLo.toNat + 256 * h.lenHi.toNat

def Header.fullId (h : Header) : UInt16 := h.classId.toUInt16 <<< 8 ||| h.messageId.toUInt16

/-- The bytes `f` are one whole frame carrying `m`. -/
structure UbxFrame (m : UbxMessage) (f : List UInt8) : Prop where
  bytes : ∃ h : Header, h.fullId = m.fullId ∧ h.len = m.payload.length ∧
    f = [sync1, sync2] ++ (h.bytes ++ m.payload) ++
      [(fletcher (h.bytes ++ m.payload)).1, (fletcher (h.bytes ++ m.payload)).2]
  bound : m.payload.length ≤ maxLen.toNat

/-! ## No frame is the beginning of another -/

theorem Header.eq_of_bytes {h h' : Header} {xs ys : List UInt8}
    (heq : h.bytes ++ xs = h'.bytes ++ ys) : h = h' ∧ xs = ys := by
  obtain ⟨c, i, lo, hi⟩ := h
  obtain ⟨c', i', lo', hi'⟩ := h'
  simpa [Header.bytes, and_assoc] using heq

/-- What follows the header of a frame is decided by the frame. -/
theorem UbxFrame.after_header {m : UbxMessage} {h : Header} {xs : List UInt8}
    (hf : UbxFrame m ([sync1, sync2] ++ (h.bytes ++ xs))) :
    h.fullId = m.fullId ∧ h.len = m.payload.length ∧ xs = m.payload ++
      [(fletcher (h.bytes ++ m.payload)).1, (fletcher (h.bytes ++ m.payload)).2] := by
  obtain ⟨h', hid, hlen, heq⟩ := hf.bytes
  simp only [List.append_assoc] at heq
  obtain ⟨rfl, hxs⟩ := Header.eq_of_bytes (List.append_cancel_left heq)
  exact ⟨hid, hlen, hxs⟩

theorem UbxFrame.unique {m m' : UbxMessage} {f rest : List UInt8} (hf : UbxFrame m f)
    (hf' : UbxFrame m' (f ++ rest)) : m' = m ∧ rest = [] := by
  obtain ⟨h, hid, hlen, rfl⟩ := hf.bytes
  simp only [List.append_assoc] at hf'
  obtain ⟨hid', hlen', hpay⟩ := hf'.after_header
  obtain ⟨hpayload, hrest⟩ := List.append_inj hpay (by rw [← hlen, ← hlen'])
  have hend := congrArg List.length hrest
  simp only [List.length_append, List.length_cons, List.length_nil] at hend
  refine ⟨?_, List.length_eq_zero_iff.mp (by omega)⟩
  obtain ⟨id, payload⟩ := m
  obtain ⟨id', payload'⟩ := m'
  rw [UbxMessage.mk.injEq]
  exact ⟨hid'.symm.trans hid, hpayload.symm⟩

/-- A frame begins with the sync bytes. -/
theorem UbxFrame.sync {m : UbxMessage} {a b : UInt8} {rest : List UInt8}
    (hf : UbxFrame m (a :: b :: rest)) : a = sync1 ∧ b = sync2 := by
  obtain ⟨h, -, -, heq⟩ := hf.bytes
  obtain ⟨ha, heq⟩ := List.cons.inj heq
  exact ⟨ha, (List.cons.inj heq).1⟩

theorem UbxFrame.length {m : UbxMessage} {f : List UInt8} (hf : UbxFrame m f) :
    f.length = m.payload.length + 8 := by
  obtain ⟨h, -, -, rfl⟩ := hf.bytes
  simp [Header.bytes]

/-! ## The encoder writes frames -/

/-- The sums do not depend on the sign of `char`. -/
theorem checkSumChar_eq (signedChar : Bool) (chk : UInt8 × UInt8) (ch : UInt8) :
    checkSumChar signedChar chk ch = fletcherStep chk ch := by
  have hch := ch.toNat_lt
  have hchk := chk.1.toNat_lt
  have hA : UInt8.ofInt (chk.1.toNat + charValue signedChar ch) = chk.1 + ch := by
    apply UInt8.toNat_inj.mp
    cases signedChar with
    | false =>
      simp [charValue, UInt8.ofInt]
      omega
    | true =>
      have hsigned : ch.toInt8.toInt = ch.toBitVec.toInt := rfl
      simp only [charValue, if_true, hsigned, BitVec.toInt_eq_toNat_cond]
      simp [UInt8.ofInt]
      split <;> omega
  simp only [checkSumChar, fletcherStep, hA, UInt8.ofNat_add, UInt8.ofNat_toNat]

theorem checkSum_bytes (signedChar : Bool) (data : List UInt8) :
    (checkSum signedChar data &&& 0xff).toUInt8 = (fletcher data).1 ∧
      (checkSum signedChar data >>> 8).toUInt8 = (fletcher data).2 := by
  have hfold : data.foldl (checkSumChar signedChar) (0, 0) = fletcher data := by
    have hstep : checkSumChar signedChar = fletcherStep := by
      funext chk ch
      exact checkSumChar_eq signedChar chk ch
    rw [hstep, fletcher]
  rw [checkSum, hfold]
  generalize (fletcher data).1 = a
  generalize (fletcher data).2 = b
  have ha := a.toNat_lt
  have hb := b.toNat_lt
  have h8 : UInt16.toNat 8 % 16 = 8 := rfl
  have hvalue : (b.toUInt16 <<< 8 ||| a.toUInt16).toNat = b.toNat * 2 ^ 8 + a.toNat := by
    simp only [UInt16.toNat_or, UInt16.toNat_shiftLeft, Nat.shiftLeft_eq, UInt8.toNat_toUInt16, h8]
    rw [Nat.mod_eq_of_lt (by omega), or_bytes_two ha]
  constructor
  · apply UInt8.toNat_inj.mp
    simp only [UInt16.toNat_toUInt8, UInt16.toNat_and, hvalue]
    have hmask : UInt16.toNat 0xff = 255 := rfl
    rw [hmask, and_byte]
    omega
  · apply UInt8.toNat_inj.mp
    simp only [UInt16.toNat_toUInt8, UInt16.toNat_shiftRight, hvalue, h8, Nat.shiftRight_eq_div_pow]
    omega

def headerOf (m : UbxMessage) : Header where
  classId := classId m
  messageId := messageId m
  lenLo := UInt8.ofNat (m.payload.length &&& 0xff)
  lenHi := (UInt16.ofNat (m.payload.length &&& 0xff00) >>> 8).toUInt8

theorem headerOf_fullId (m : UbxMessage) : (headerOf m).fullId = m.fullId := by
  apply UInt16.toNat_inj.mp
  have hid := m.fullId.toNat_lt
  have h8 : UInt16.toNat 8 % 16 = 8 := rfl
  have hmask : UInt16.toNat 0xff = 255 := rfl
  simp only [Header.fullId, headerOf, classId, messageId, UInt16.toNat_or, UInt16.toNat_shiftLeft,
    Nat.shiftLeft_eq, UInt8.toNat_toUInt16, UInt16.toNat_toUInt8, UInt16.toNat_and,
    UInt16.toNat_shiftRight, Nat.shiftRight_eq_div_pow, h8, hmask, and_byte]
  rw [Nat.mod_eq_of_lt (by omega), or_bytes_two (by omega)]
  omega

/-- Two bytes hold every size below 2 ^ 16. -/
theorem headerOf_len {m : UbxMessage} (h : m.payload.length < 2 ^ 16) :
    (headerOf m).len = m.payload.length := by
  generalize hn : m.payload.length = n at h
  have h8 : UInt16.toNat 8 % 16 = 8 := rfl
  simp only [Header.len, headerOf, hn, and_high_byte h, UInt8.toNat_ofNat', and_byte,
    UInt16.toNat_toUInt8, UInt16.toNat_shiftRight, UInt16.toNat_ofNat', h8, Nat.shiftRight_eq_div_pow]
  omega

theorem rawMessageString_eq (signedChar : Bool) (m : UbxMessage) :
    rawMessageString signedChar m = [sync1, sync2] ++ ((headerOf m).bytes ++ m.payload) ++
      [(fletcher ((headerOf m).bytes ++ m.payload)).1,
        (fletcher ((headerOf m).bytes ++ m.payload)).2] := by
  obtain ⟨hA, hB⟩ := checkSum_bytes signedChar ((headerOf m).bytes ++ m.payload)
  rw [← hA, ← hB]
  rfl

/-- **A raw message string is a frame of its message.** -/
theorem ubxFrame_rawMessageString (signedChar : Bool) {m : UbxMessage}
    (h : m.payload.length ≤ maxLen.toNat) : UbxFrame m (rawMessageString signedChar m) := by
  have hmax : maxLen.toNat = 4096 := rfl
  have hsize : m.payload.length < 2 ^ 16 := by omega
  exact ⟨⟨headerOf m, headerOf_fullId m, headerOf_len hsize, rawMessageString_eq signedChar m⟩, h⟩

end MuonDetector.Ublox.Message
