import MuonDetector.Library.Scanner
import MuonDetector.Ublox.Message

/-!
# The UBX parser

`feed` runs a state machine of nine states over the bytes of a chunk. The payload
buffer is kept between messages and only resized, so what it holds beyond the
current length index belongs to earlier messages.
-/

namespace MuonDetector.Ublox.Parser

open MuonDetector.Library MuonDetector.Ublox.Message

inductive State where
  | sync1
  | sync2
  | cls
  | id
  | len1
  | len2
  | payload
  | ckA
  | ckB
  deriving DecidableEq, Repr

structure UbxParser where
  state : State := .sync1
  classId : UInt8 := 0
  msgId : UInt8 := 0
  len : UInt16 := 0
  lenIdx : UInt16 := 0
  ckACalc : UInt8 := 0
  ckBCalc : UInt8 := 0
  ckARecv : UInt8 := 0
  ckBRecv : UInt8 := 0
  payload : List UInt8 := []
  deriving DecidableEq, Repr

def reset (p : UbxParser) : UbxParser where
  state := .sync1
  classId := 0
  msgId := 0
  len := 0
  lenIdx := 0
  ckACalc := 0
  ckBCalc := 0
  ckARecv := 0
  ckBRecv := 0
  payload := p.payload

def ckUpdate (p : UbxParser) (b : UInt8) : UbxParser :=
  { p with ckACalc := p.ckACalc + b, ckBCalc := p.ckBCalc + (p.ckACalc + b) }

/-- As `std::vector::resize`. -/
def resize (v : List UInt8) (n : Nat) : List UInt8 :=
  v.take n ++ List.replicate (n - v.length) 0

/-- The body of the loop of `feed`, with the message it gives to the callback. -/
def feedByte (p : UbxParser) (b : UInt8) : UbxParser × Option UbxMessage :=
  match p.state with
  | .sync1 => (if b = 0xb5 then { p with state := .sync2 } else p, none)
  | .sync2 =>
    if b = 0x62 then ({ p with state := .cls }, none)
    else if b = 0xb5 then ({ p with state := .sync2 }, none)
    else ({ p with state := .sync1 }, none)
  | .cls =>
    let p := ckUpdate { p with classId := b, ckACalc := 0, ckBCalc := 0 } b
    ({ p with state := .id }, none)
  | .id =>
    let p := ckUpdate { p with msgId := b } b
    ({ p with state := .len1 }, none)
  | .len1 =>
    let p := ckUpdate { p with len := b.toUInt16 } b
    ({ p with state := .len2 }, none)
  | .len2 =>
    let p := { p with len := p.len ||| b.toUInt16 <<< 8 }
    if p.len > maxLen then ({ reset p with state := .sync1 }, none)
    else
      let p := ckUpdate p b
      if p.len > maxLen then (reset p, none)
      else
        let p := { p with payload := resize p.payload p.len.toNat, lenIdx := 0 }
        ({ p with state := if p.len = 0 then .ckA else .payload }, none)
  | .payload =>
    let p := { p with payload := p.payload.set p.lenIdx.toNat b, lenIdx := p.lenIdx + 1 }
    let p := ckUpdate p b
    (if p.lenIdx = p.len then { p with state := .ckA } else p, none)
  | .ckA => ({ p with ckARecv := b, state := .ckB }, none)
  | .ckB =>
    let p := { p with ckBRecv := b }
    let msg :=
      if p.ckARecv = p.ckACalc ∧ p.ckBRecv = p.ckBCalc then
        some ⟨p.classId.toUInt16 <<< 8 ||| p.msgId.toUInt16, p.payload.take p.len.toNat⟩
      else none
    ({ reset p with state := .sync1 }, msg)

abbrev feed (p : UbxParser) (data : List UInt8) : UbxParser × List UbxMessage :=
  Scanner.scan feedByte p data

abbrev feedChunks (p : UbxParser) (chunks : List (List UInt8)) : UbxParser × List UbxMessage :=
  Scanner.scanChunks feedByte p chunks

/-- The states in which no frame has begun. -/
def AtSync (p : UbxParser) : Prop := p.state = .sync1 ∨ p.state = .sync2

@[simp] theorem resize_length (v : List UInt8) (n : Nat) : (resize v n).length = n := by
  simp [resize]
  omega

end MuonDetector.Ublox.Parser
