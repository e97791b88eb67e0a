import MuonDetector.Library.Bytes
import MuonDetector.Library.Scanner

/-!
# The SDS011 parser

The particle sensor sends frames of ten bytes: two sync bytes of which the second
tells the type, six data bytes, their sum and a tail byte. `feed` runs a state
machine of ten states over them and turns each frame into a measurement or into the
acknowledgement of a command.
-/

namespace MuonDetector.Sds011.Parser

open MuonDetector.Library MuonDetector.Library.Bytes

inductive State where
  | sync1
  | sync2
  | dat0
  | dat1
  | dat2
  | dat3
  | dat4
  | dat5
  | chksm
  | tail
  deriving DecidableEq, Repr

inductive MsgType where
  | data
  | ack
  deriving DecidableEq, Repr

structure Sds011Event where
  id : UInt16 := 0
  pm2dot5 : UInt16 := 0
  pm10dot0 : UInt16 := 0
  deriving DecidableEq, Repr

structure Sds011StatusEvent where
  ackType : Option UInt8 := none
  sleep : Option Bool := none
  queryOnlyMode : Option Bool := none
  modeByte : Option UInt8 := none
  id : Option UInt16 := none
  firmwareDate : Option String := none
  deriving DecidableEq, Repr

inductive Sds011Msg where
  | event (e : Sds011Event)
  | status (e : Sds011StatusEvent)
  deriving DecidableEq, Repr

abbrev Data := Vector UInt8 6

structure Sds011Parser where
  state : State := .sync1
  msgType : MsgType := .data
  ckCalc : UInt8 := 0
  data : Data := Vector.replicate 6 0
  deriving DecidableEq, Repr

def reset (p : Sds011Parser) : Sds011Parser := { p with state := .sync1, ckCalc := 0 }

def ckUpdate (p : Sds011Parser) (b : UInt8) : Sds011Parser := { p with ckCalc := p.ckCalc + b }

/-! ## Messages -/

def word (lo hi : UInt8) : UInt16 := lo.toUInt16 ||| hi.toUInt16 <<< 8

def buildDataMsg (d : Data) : Sds011Event where
  id := word d[4] d[5]
  pm2dot5 := word d[0] d[1]
  pm10dot0 := word d[2] d[3]

/-- `std::to_string` behind `std::setw(2)` and `std::setfill('0')`. -/
def padded (b : UInt8) : String :=
  let digits := toString b.toNat
  if digits.length < 2 then "0" ++ digits else digits

def parseFirmware (d : Data) : String :=
  "20" ++ padded d[1] ++ "-" ++ padded d[2] ++ "-" ++ padded d[3]

def buildAckMsg (d : Data) : Sds011StatusEvent :=
  let msg : Sds011StatusEvent := { ackType := some d[0] }
  match d[0] with
  | 2 => { msg with queryOnlyMode := some (d[2] == 1) }
  | 5 => { msg with id := some (word d[4] d[5]) }
  | 6 => { msg with sleep := some (d[2] == 0) }
  | 7 => { msg with firmwareDate := some (parseFirmware d) }
  | 8 => { msg with modeByte := some d[2] }
  | _ => msg

def buildMsg (t : MsgType) (d : Data) : Sds011Msg :=
  match t with
  | .data => .event (buildDataMsg d)
  | .ack => .status (buildAckMsg d)

/-! ## The state machine -/

/-- What the states `DAT0` to `DAT5` do with the byte of index `i`. -/
def datByte (p : Sds011Parser) (i : Fin 6) (b : UInt8) (next : State) : Sds011Parser :=
  { ckUpdate { p with data := p.data.set i b } b with state := next }

/-- The body of the loop of `feed`, with the message it gives to the callback. -/
def feedByte (p : Sds011Parser) (b : UInt8) : Sds011Parser × Option Sds011Msg :=
  match p.state with
  | .sync1 => (if b = 0xAA then { p with state := .sync2 } else p, none)
  | .sync2 =>
    if b = 0xC0 then ({ p with state := .dat0, msgType := .data }, none)
    else if b = 0xC5 then ({ p with state := .dat0, msgType := .ack }, none)
    else if b = 0xAA then ({ p with state := .sync2 }, none)
    else ({ p with state := .sync1 }, none)
  | .dat0 => (datByte { p with ckCalc := 0 } 0 b .dat1, none)
  | .dat1 => (datByte p 1 b .dat2, none)
  | .dat2 => (datByte p 2 b .dat3, none)
  | .dat3 => (datByte p 3 b .dat4, none)
  | .dat4 => (datByte p 4 b .dat5, none)
  | .dat5 => (datByte p 5 b .chksm, none)
  | .chksm => (if p.ckCalc = b then { p with state := .tail } else reset p, none)
  | .tail => (reset p, if b = 0xAB then some (buildMsg p.msgType p.data) else none)

abbrev feed (p : Sds011Parser) (data : List UInt8) : Sds011Parser × List Sds011Msg :=
  Scanner.scan feedByte p data

abbrev feedChunks (p : Sds011Parser) (chunks : List (List UInt8)) :
    Sds011Parser × List Sds011Msg :=
  Scanner.scanChunks feedByte p chunks

/-- The states in which no frame has begun. -/
def AtSync (p : Sds011Parser) : Prop := p.state = .sync1 ∨ p.state = .sync2

/-! ## Frames -/

/-- The second sync byte. -/
def typeByte : MsgType → UInt8
  | .data => 0xC0
  | .ack => 0xC5

def frameBytes (t : MsgType) (d : Data) : List UInt8 :=
  [0xAA, typeByte t] ++ d.toList ++ [byteSum d.toList, 0xAB]

/-- What the message of a frame says of its data bytes. -/
def Carries : Sds011Msg → MsgType → Data → Prop
  | .event e, .data, d =>
    e.pm2dot5.toNat = d[0].toNat + 256 * d[1].toNat ∧
    e.pm10dot0.toNat = d[2].toNat + 256 * d[3].toNat ∧
    e.id.toNat = d[4].toNat + 256 * d[5].toNat
  | .status e, .ack, d => e = buildAckMsg d
  | _, _, _ => False

/-- The bytes `w` are a frame of the message `m`. -/
def Sds011Frame (m : Sds011Msg) (w : List UInt8) : Prop :=
  ∃ t d, w = frameBytes t d ∧ Carries m t d

theorem buildMsg_carries (t : MsgType) (d : Data) : Carries (buildMsg t d) t d := by
  cases t with
  | data =>
    exact ⟨toNat_or_shiftLeft_eight _ _, toNat_or_shiftLeft_eight _ _,
      toNat_or_shiftLeft_eight _ _⟩
  | ack => rfl

theorem Carries.eq {m : Sds011Msg} {t : MsgType} {d : Data} (h : Carries m t d) :
    m = buildMsg t d := by
  match m, t, h with
  | .event ⟨id, pm2dot5, pm10dot0⟩, .data, h =>
    obtain ⟨h2, h10, hid⟩ := h
    obtain ⟨g2, g10, gid⟩ := buildMsg_carries .data d
    have e2 := UInt16.toNat_inj.mp (h2.trans g2.symm)
    have e10 := UInt16.toNat_inj.mp (h10.trans g10.symm)
    have eid := UInt16.toNat_inj.mp (hid.trans gid.symm)
    simp only at e2 e10 eid
    subst e2 e10 eid
    rfl
  | .status e, .ack, h =>
    have he : e = buildAckMsg d := h
    rw [he, buildMsg]

@[simp] theorem frameBytes_length (t : MsgType) (d : Data) : (frameBytes t d).length = 10 := by
  simp [frameBytes]

theorem Sds011Frame.length {m : Sds011Msg} {w : List UInt8} (h : Sds011Frame m w) :
    w.length = 10 := by
  obtain ⟨t, d, rfl, -⟩ := h
  exact frameBytes_length t d

theorem typeByte_inj {t t' : MsgType} (h : typeByte t = typeByte t') : t = t' := by
  cases t <;> cases t' <;> first | rfl | exact absurd h (by decide)

/-- A frame is determined by what stands before its checksum. -/
theorem frame_start_inj {t t' : MsgType} {d d' : Data} {xs ys : List UInt8}
    (h : [0xAA, typeByte t] ++ d.toList ++ xs = [0xAA, typeByte t'] ++ d'.toList ++ ys) :
    t = t' ∧ d = d' ∧ xs = ys := by
  obtain ⟨hstart, hrest⟩ := List.append_inj h (by simp)
  obtain ⟨hsync, hdata⟩ := List.append_inj hstart rfl
  refine ⟨typeByte_inj ?_, Vector.toList_inj.mp hdata, hrest⟩
  exact (List.cons.inj (List.cons.inj hsync).2).1

/-- No frame is the beginning of another. -/
theorem Sds011Frame.unique {m m' : Sds011Msg} {w rest : List UInt8} (h : Sds011Frame m w)
    (h' : Sds011Frame m' (w ++ rest)) : m' = m ∧ rest = [] := by
  have hlen := h.length
  have hlen' := h'.length
  rw [List.length_append, hlen] at hlen'
  have hnil : rest = [] := List.eq_nil_of_length_eq_zero (by omega)
  subst hnil
  obtain ⟨t, d, rfl, hm⟩ := h
  obtain ⟨t', d', hw, hm'⟩ := h'
  rw [List.append_nil] at hw
  obtain ⟨rfl, rfl, -⟩ := frame_start_inj hw
  exact ⟨hm'.eq.trans hm.eq.symm, rfl⟩

end MuonDetector.Sds011.Parser
