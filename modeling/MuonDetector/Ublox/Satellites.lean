import MuonDetector.Ublox.ReadBounds
import MuonDetector.Ublox.TimeMark

/-!
# Lists of satellites

Two messages bring the same event: a header of eight bytes and a block of twelve for
each satellite, with a layout of the blocks for each message. A satellite is what its
own block says. The header of `NAV-SVINFO` is in the event; that of `NAV-SAT` is read
and dropped, but for the time.
-/

namespace MuonDetector.Ublox.Satellites

open MuonDetector.Library MuonDetector.Library.Reader MuonDetector.Library.Fields
open MuonDetector.Utility.HelperFunctions MuonDetector.Ublox.Message MuonDetector.Ublox.Events
open MuonDetector.Ublox.MessageProcessor MuonDetector.Ublox.ReadBounds
open MuonDetector.Ublox.TimeMark (fieldAt)

/-- The bytes of a `std::string`, whose size is a `std::size_t`. -/
structure Payload where
  bytes : List UInt8
  size_lt : bytes.length < 2 ^ 64

inductive ListMessage where
  | navSVinfo
  | navSat
  deriving DecidableEq, Repr

def ListMessage.id : ListMessage → UInt16
  | .navSVinfo => MsgId.navSVinfo
  | .navSat => MsgId.navSat

/-- What a block of twelve bytes says, for either sign of plain `char`. -/
def ListMessage.satellite (m : ListMessage) (c : Bool) (block : List UInt8) : GnssSatellite :=
  match m with
  | .navSVinfo =>
    let satId := fieldAt UInt8 c block 1
    let flags := fieldAt UInt8 c block 2
    { gnssId := svinfoGnssId satId
      satId := satId
      cnr := fieldAt UInt8 c block 4
      elev := fieldAt Int8 c block 5
      azim := fieldAt Int16 c block 6
      prRes := ⟨(fieldAt Int32 c block 8).toInt, 100⟩
      quality := fieldAt UInt8 c block 3
      health := (flags >>> 4 &&& 0x01) + 1
      orbitSource := svinfoOrbitSource flags
      used := flags &&& 0x01 ≠ 0
      diffCorr := flags &&& 0x02 ≠ 0
      smoothed := flags &&& 0x80 ≠ 0 }
  | .navSat =>
    GnssSatellite.ofFlags (fieldAt UInt8 c block 0) (fieldAt UInt8 c block 1)
      (fieldAt UInt8 c block 2) (fieldAt Int8 c block 3) (fieldAt Int16 c block 4)
      ⟨(fieldAt Int16 c block 6).toInt, 10⟩ (fieldAt UInt32 c block 8)

/-- The byte of the header that counts the satellites. -/
def ListMessage.countByte : ListMessage → Nat
  | .navSVinfo => 4
  | .navSat => 5

/-! ## Blocks -/

section Blocks

variable {c : Bool} {buf : List UInt8}

theorem gives_field {T : Type} [Integral T] {i off : Nat} (h : 8 + (i + 1) * 12 ≤ buf.length)
    (hoff : off + Integral.size T ≤ 12) :
    Gives buf (get T c (8 + i * 12 + off)) (fieldAt T c (bytesAt buf (8 + i * 12) 12) off) := by
  have hend : 8 + i * 12 + off + Integral.size T ≤ buf.length := by omega
  have hgives := gives_getEndian (T := T) .little c hend
  rw [← bytesAt_bytesAt hoff] at hgives
  exact hgives

theorem gives_svinfoBlock {i : Nat} (h : 8 + (i + 1) * 12 ≤ buf.length) :
    Gives buf (svinfoBlock c i)
      (ListMessage.navSVinfo.satellite c (bytesAt buf (8 + i * 12) 12)) := by
  repeat refine (gives_field h (by decide)).bind ?_
  exact Gives.pure buf _

theorem gives_satBlock {i : Nat} (h : 8 + (i + 1) * 12 ≤ buf.length) :
    Gives buf (satBlock c i) (ListMessage.navSat.satellite c (bytesAt buf (8 + i * 12) 12)) := by
  have hgnssId := gives_field (T := UInt8) (c := c) h (Nat.le_add_left 1 11)
  refine hgnssId.bind ?_
  repeat refine (gives_field h (by decide)).bind ?_
  exact Gives.pure buf _

/-- The satellites of a payload that has `n` blocks. -/
def ListMessage.satellites (m : ListMessage) (c : Bool) (buf : List UInt8) (n : Nat) :
    List GnssSatellite :=
  (List.range n).map fun i => m.satellite c (bytesAt buf (8 + i * 12) 12)

theorem gives_satellites {m : ListMessage} {block : Nat → Reader UInt8 GnssSatellite} {n : Nat}
    (hlen : buf.length = 8 + 12 * n)
    (hblock : ∀ i, 8 + (i + 1) * 12 ≤ buf.length →
      Gives buf (block i) (m.satellite c (bytesAt buf (8 + i * 12) 12))) :
    Gives buf (times n block) (m.satellites c buf n) := by
  have hn : (m.satellites c buf n).length = n := by simp [ListMessage.satellites]
  have htimes : Gives buf (times (m.satellites c buf n).length block) (m.satellites c buf n) := by
    apply Gives.times
    intro i hi
    rw [hn] at hi
    simp only [ListMessage.satellites, List.getElem_map, List.getElem_range]
    exact hblock i (by omega)
  rwa [hn] at htimes

theorem gives_count {n : Nat} (hlen : buf.length = 8 + 12 * n) (hsize : buf.length < 2 ^ 64) :
    Gives buf (blockCount 8 12) n := by
  have height : UInt64.toNat 8 = 8 := rfl
  have htwelve : UInt64.toNat 12 = 12 := rfl
  have hcount := gives_blockCount 8 12 (by omega) hsize
  have hdiv : (buf.length - UInt64.toNat 8) / UInt64.toNat 12 = n := by
    rw [height, htwelve]
    omega
  rwa [hdiv] at hcount

/-- A byte is read as it is, for either sign of plain `char`. -/
theorem gives_byte {i : Nat} (h : i < buf.length) : Gives buf (get UInt8 c i) buf[i] := by
  have hgives := gives_getEndian (T := UInt8) .little c (Nat.succ_le_of_lt h)
  have hbyte : bytesAt buf i (Integral.size UInt8) = [buf[i]] := by
    rw [bytesAt, List.drop_eq_getElem_cons h]
    rfl
  rw [hbyte, getFrom_byte] at hgives
  exact hgives

end Blocks

/-! ## Events -/

/-- What a list message is decoded to. -/
def ListMessage.decoded (m : ListMessage) (c : Bool) (buf : List UInt8) (n : Nat) : NavSat :=
  let satellites := m.satellites c buf n
  match m with
  | .navSVinfo => {
      iTOW := fieldAt UInt32 c buf 0
      numSvs := buf.getD 4 0
      globFlags := some (buf.getD 5 0)
      goodSats := goodSats satellites
      satellites := satellites }
  | .navSat => {
      iTOW := fieldAt UInt32 c buf 0
      goodSats := goodSats satellites
      satellites := satellites }

theorem gives_decode {m : ListMessage} {c : Bool} {p : Payload} {n : Nat}
    (hlen : p.bytes.length = 8 + 12 * n) (s : ProcessorState) :
    Gives p.bytes (decode c s m.id) (some (.navSat (m.decoded c p.bytes n)), s) := by
  have htime : Gives p.bytes (get UInt32 c 0) (fieldAt UInt32 c p.bytes 0) :=
    gives_getEndian .little c (by rw [size_uint32]; omega)
  have hbyte : ∀ i, i < 8 → Gives p.bytes (get UInt8 c i) (p.bytes.getD i 0) := by
    intro i hi
    have hlt : i < p.bytes.length := by omega
    have hget : p.bytes.getD i 0 = p.bytes[i] := by simp [hlt]
    rw [hget]
    exact gives_byte hlt
  have hcount := gives_count hlen p.size_lt
  cases m with
  | navSVinfo =>
    apply gives_stateless .navSat rfl
    have hsats := gives_satellites (m := .navSVinfo) (c := c) hlen fun i => gives_svinfoBlock
    exact htime.bind ((hbyte 4 (by decide)).bind ((hbyte 5 (by decide)).bind
      (hcount.bind (hsats.bind (Gives.pure p.bytes _)))))
  | navSat =>
    apply gives_stateless .navSat rfl
    have hsats := gives_satellites (m := .navSat) (c := c) hlen fun i => gives_satBlock
    exact htime.bind ((hbyte 4 (by decide)).bind ((hbyte 5 (by decide)).bind
      (hcount.bind (hsats.bind (Gives.pure p.bytes _)))))

/-! ## The promise -/

/-- The event has its header: the number of satellites, and the other byte in the field of
the message. -/
def ListMessage.HeaderReturned (m : ListMessage) (bytes : List UInt8) (data : NavSat) : Prop :=
  bytes[m.countByte]? = some data.numSvs ∧
    match m with
    | .navSVinfo => data.globFlags = bytes[5]?
    | .navSat => data.version = bytes[4]?

/-- The event of a payload with `n` blocks has the satellite of each block, counts those with
a signal, and has the header. -/
structure Listed (m : ListMessage) (c : Bool) (bytes : List UInt8) (n : Nat) (data : NavSat) :
    Prop where
  length : data.satellites.length = n
  block : ∀ i, i < n → data.satellites[i]? = some (m.satellite c (bytesAt bytes (8 + i * 12) 12))
  good : data.goodSats = (data.satellites.filter fun sat => 0 < sat.cnr).length
  header : m.HeaderReturned bytes data

theorem decoded_satellites (m : ListMessage) (c : Bool) (buf : List UInt8) (n : Nat) :
    (m.decoded c buf n).satellites = m.satellites c buf n := by
  cases m <;> rfl

theorem decoded_goodSats (m : ListMessage) (c : Bool) (buf : List UInt8) (n : Nat) :
    (m.decoded c buf n).goodSats = goodSats (m.satellites c buf n) := by
  cases m <;> rfl

theorem headerReturned_iff {m : ListMessage} {c : Bool} {buf : List UInt8} {n : Nat}
    (hlen : buf.length = 8 + 12 * n) :
    m.HeaderReturned buf (m.decoded c buf n) ↔ m = .navSVinfo := by
  have hfour : 4 < buf.length := by omega
  have hfive : 5 < buf.length := by omega
  cases m with
  | navSVinfo =>
    simp [ListMessage.HeaderReturned, ListMessage.countByte, ListMessage.decoded, hfour, hfive]
  | navSat =>
    simp [ListMessage.HeaderReturned, ListMessage.decoded, hfour]

/-- **Lists of satellites.** For every payload of whole blocks one event comes out, with the
satellites of the blocks; it is all that the payload says exactly for `NAV-SVINFO`. -/
theorem satellites_listed_iff (m : ListMessage) (c : Bool) (p : Payload) {n : Nat}
    (hlen : p.bytes.length = 8 + 12 * n) :
    ∃ data, (∀ s, (processMessage c s ⟨m.id, p.bytes⟩).1 = some (some (.navSat data), s)) ∧
      data.satellites = m.satellites c p.bytes n ∧ data.goodSats = goodSats data.satellites ∧
      (Listed m c p.bytes n data ↔ m = .navSVinfo) := by
  refine ⟨m.decoded c p.bytes n, gives_decode hlen, decoded_satellites m c p.bytes n, ?_, ?_⟩
  · rw [decoded_goodSats, decoded_satellites]
  · constructor
    · intro h
      exact (headerReturned_iff hlen).mp h.header
    · intro h
      refine ⟨?_, ?_, ?_, (headerReturned_iff hlen).mpr h⟩
      · rw [decoded_satellites]
        simp [ListMessage.satellites]
      · intro i hi
        rw [decoded_satellites]
        simp [ListMessage.satellites, hi]
      · rw [decoded_goodSats, decoded_satellites, goodSats, List.countP_eq_length_filter]

/-- One satellite in each message. -/
theorem one_satellite_listed :
    ∃ data, Listed .navSVinfo true (List.replicate 20 1) 1 data := by
  obtain ⟨data, -, -, -, h⟩ :=
    satellites_listed_iff (n := 1) .navSVinfo true ⟨List.replicate 20 1, by decide⟩ rfl
  exact ⟨data, h.mpr rfl⟩

/-- The version and the number of satellites of `NAV-SAT` do not arrive. -/
theorem navSat_header_lost :
    ¬∃ data, (processMessage false {}
        ⟨MsgId.navSat, [0, 0, 0, 0, 1, 1, 0, 0] ++ List.replicate 12 0⟩).1 =
          some (some (.navSat data), {}) ∧
      Listed .navSat false ([0, 0, 0, 0, 1, 1, 0, 0] ++ List.replicate 12 0) 1 data := by
  rintro ⟨data, hdata, hlisted⟩
  have hgives := gives_decode (m := .navSat) (c := false) (n := 1)
    (p := ⟨[0, 0, 0, 0, 1, 1, 0, 0] ++ List.replicate 12 0, by decide⟩) rfl {}
  have hpair := hdata.symm.trans hgives
  injection hpair with hpair
  injection hpair with hevent
  injection hevent with hevent
  injection hevent with hevent
  have hheader := (headerReturned_iff rfl).mp (hevent ▸ hlisted.header)
  cases hheader

end MuonDetector.Ublox.Satellites
