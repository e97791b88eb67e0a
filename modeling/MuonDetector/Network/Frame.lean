import MuonDetector.Library.Bytes

/-!
# The wire format of a TCP packet

A frame is a twelve-byte header (magic, protocol version, key, payload size, all
big-endian), the payload and its FNV-1a checksum. `buildFrame` writes one and
`ValidFrame` says, without a parser, which bytes are one.
-/

namespace MuonDetector.Network.Frame

open MuonDetector.Library.Bytes

def kMagic : UInt32 := 0x4D554F4E
def kProtocolVersion : UInt16 := 1
def kMaxPayloadSize : Nat := 1024 * 1024
def kHeaderSize : Nat := 12
def kChecksumSize : Nat := 4
def kFrameOverhead : Nat := kHeaderSize + kChecksumSize

structure TcpPacket where
  key : UInt16
  payload : List UInt8
  deriving DecidableEq, Repr

/-! ## Words in network byte order

A pointer into a buffer is the rest of the buffer from there on. -/

def readU16 (p : List UInt8) : UInt16 :=
  (p.getD 0 0).toUInt16 <<< 8 ||| (p.getD 1 0).toUInt16

def readU32 (p : List UInt8) : UInt32 :=
  (p.getD 0 0).toUInt32 <<< 24 ||| (p.getD 1 0).toUInt32 <<< 16 |||
    (p.getD 2 0).toUInt32 <<< 8 ||| (p.getD 3 0).toUInt32

def writeU16 (v : UInt16) : List UInt8 :=
  [((v >>> 8) &&& 0xFF).toUInt8, (v &&& 0xFF).toUInt8]

def writeU32 (v : UInt32) : List UInt8 :=
  [((v >>> 24) &&& 0xFF).toUInt8, ((v >>> 16) &&& 0xFF).toUInt8,
    ((v >>> 8) &&& 0xFF).toUInt8, (v &&& 0xFF).toUInt8]

@[simp] theorem writeU16_length (v : UInt16) : (writeU16 v).length = 2 := rfl
@[simp] theorem writeU32_length (v : UInt32) : (writeU32 v).length = 4 := rfl

theorem readU16_toNat (p : List UInt8) :
    (readU16 p).toNat = (p.getD 0 0).toNat * 2 ^ 8 + (p.getD 1 0).toNat := by
  unfold readU16
  generalize p.getD 0 0 = a
  generalize p.getD 1 0 = b
  have ha := a.toNat_lt
  have hb := b.toNat_lt
  have h8 : UInt16.toNat 8 % 16 = 8 := rfl
  simp only [UInt16.toNat_or, UInt16.toNat_shiftLeft, Nat.shiftLeft_eq, UInt8.toNat_toUInt16, h8]
  rw [Nat.mod_eq_of_lt (by omega), or_bytes_two hb]

theorem readU32_toNat (p : List UInt8) :
    (readU32 p).toNat = (p.getD 0 0).toNat * 2 ^ 24 + (p.getD 1 0).toNat * 2 ^ 16 +
      (p.getD 2 0).toNat * 2 ^ 8 + (p.getD 3 0).toNat := by
  unfold readU32
  generalize p.getD 0 0 = a
  generalize p.getD 1 0 = b
  generalize p.getD 2 0 = c
  generalize p.getD 3 0 = d
  have ha := a.toNat_lt
  have hb := b.toNat_lt
  have hc := c.toNat_lt
  have hd := d.toNat_lt
  have h8 : UInt32.toNat 8 % 32 = 8 := rfl
  have h16 : UInt32.toNat 16 % 32 = 16 := rfl
  have h24 : UInt32.toNat 24 % 32 = 24 := rfl
  simp only [UInt32.toNat_or, UInt32.toNat_shiftLeft, Nat.shiftLeft_eq, UInt8.toNat_toUInt32,
    h8, h16, h24]
  rw [Nat.mod_eq_of_lt (by omega), Nat.mod_eq_of_lt (by omega), Nat.mod_eq_of_lt (by omega),
    or_bytes_four hb hc hd]

theorem readU16_writeU16 (v : UInt16) (t : List UInt8) : readU16 (writeU16 v ++ t) = v := by
  apply UInt16.toNat_inj.mp
  rw [readU16_toNat]
  have hv := v.toNat_lt
  simp [writeU16, Nat.shiftRight_eq_div_pow, and_byte]
  omega

theorem readU32_writeU32 (v : UInt32) (t : List UInt8) : readU32 (writeU32 v ++ t) = v := by
  apply UInt32.toNat_inj.mp
  rw [readU32_toNat]
  have hv := v.toNat_lt
  simp [writeU32, Nat.shiftRight_eq_div_pow, and_byte]
  omega

/-- A word is read from its own bytes, whatever follows them. -/
theorem readU16_append {p : List UInt8} (hp : 2 ≤ p.length) (t : List UInt8) :
    readU16 (p ++ t) = readU16 p := by
  simp only [readU16, List.getD_eq_getElem?_getD,
    List.getElem?_append_left (show 0 < p.length by omega),
    List.getElem?_append_left (show 1 < p.length by omega)]

theorem readU32_append {p : List UInt8} (hp : 4 ≤ p.length) (t : List UInt8) :
    readU32 (p ++ t) = readU32 p := by
  simp only [readU32, List.getD_eq_getElem?_getD,
    List.getElem?_append_left (show 0 < p.length by omega),
    List.getElem?_append_left (show 1 < p.length by omega),
    List.getElem?_append_left (show 2 < p.length by omega),
    List.getElem?_append_left (show 3 < p.length by omega)]

/-! ## Frames -/

def checksum (payload : List UInt8) : UInt32 :=
  payload.foldl (fun hash b => (hash ^^^ b.toUInt32) * 16777619) 2166136261

/-- The size field is the payload size cast to 32 bits. -/
def buildFrame (key : UInt16) (payload : List UInt8) : List UInt8 :=
  writeU32 kMagic ++ writeU16 kProtocolVersion ++ writeU16 key ++
    writeU32 (UInt32.ofNat payload.length) ++ payload ++ writeU32 (checksum payload)

theorem buildFrame_length (key : UInt16) (payload : List UInt8) :
    (buildFrame key payload).length = kFrameOverhead + payload.length := by
  simp [buildFrame, kFrameOverhead, kHeaderSize, kChecksumSize]
  omega

/-- The bytes `f` are one whole frame carrying `packet`. -/
structure ValidFrame (packet : TcpPacket) (f : List UInt8) : Prop where
  magic : readU32 f = kMagic
  version : readU16 (f.drop 4) = kProtocolVersion
  key : readU16 (f.drop 6) = packet.key
  size : (readU32 (f.drop 8)).toNat = packet.payload.length
  bound : packet.payload.length ≤ kMaxPayloadSize
  length : f.length = kFrameOverhead + packet.payload.length
  payload : (f.drop kHeaderSize).take packet.payload.length = packet.payload
  checksum : readU32 (f.drop (kHeaderSize + packet.payload.length)) = checksum packet.payload

theorem validFrame_buildFrame {key : UInt16} {payload : List UInt8}
    (hp : payload.length ≤ kMaxPayloadSize) :
    ValidFrame ⟨key, payload⟩ (buildFrame key payload) where
  magic := by
    rw [buildFrame, List.append_assoc, List.append_assoc, List.append_assoc, List.append_assoc,
      readU32_writeU32]
  version := by
    simp only [buildFrame, List.append_assoc]
    rw [List.drop_left' (writeU32_length _), readU16_writeU16]
  key := by
    rw [show 6 = 4 + 2 from rfl, ← List.drop_drop]
    simp only [buildFrame, List.append_assoc]
    rw [List.drop_left' (writeU32_length _), List.drop_left' (writeU16_length _), readU16_writeU16]
  size := by
    rw [show 8 = 4 + 2 + 2 from rfl, ← List.drop_drop, ← List.drop_drop]
    simp only [buildFrame, List.append_assoc]
    rw [List.drop_left' (writeU32_length _), List.drop_left' (writeU16_length _),
      List.drop_left' (writeU16_length _), readU32_writeU32, UInt32.toNat_ofNat']
    have hk : kMaxPayloadSize < 2 ^ 32 := by decide
    exact Nat.mod_eq_of_lt (by omega)
  bound := hp
  length := buildFrame_length key payload
  payload := by
    have h : (writeU32 kMagic ++ writeU16 kProtocolVersion ++ writeU16 key ++
        writeU32 (UInt32.ofNat payload.length)).length = kHeaderSize := rfl
    rw [buildFrame, List.append_assoc, List.drop_left' h, List.take_left]
  checksum := by
    have h : (writeU32 kMagic ++ writeU16 kProtocolVersion ++ writeU16 key ++
        writeU32 (UInt32.ofNat payload.length)).length = kHeaderSize := rfl
    rw [← List.drop_drop, buildFrame, List.append_assoc, List.drop_left' h, List.drop_left]
    simpa using readU32_writeU32 (Frame.checksum payload) []

end MuonDetector.Network.Frame
