import MuonDetector.Ublox.MessageProcessor

/-!
# Payloads of a fixed layout

Ten messages have a payload of one length in which every field has its place. What a
payload says is its event as the layout gives it, each field the little-endian value of
its own bytes. What the decoder makes of it differs in two messages: the reference info
of a time pulse comes from the byte of the flags, and the flags of the UTC time are
dropped. Plain `char` is unsigned here.
-/

namespace MuonDetector.Ublox.FixedLayout

open MuonDetector.Library MuonDetector.Library.Reader MuonDetector.Library.Bytes
open MuonDetector.Library.Fields
open MuonDetector.Utility.HelperFunctions MuonDetector.Ublox.Message MuonDetector.Ublox.Events
open MuonDetector.Ublox.MessageProcessor

/-! ## Fields -/

/-- The little-endian value of the `n` bytes from `off` on, as a value of the type. -/
def littleAt (T : Type) [Integral T] (payload : List UInt8) (off n : Nat) : T :=
  Integral.ofInt (littleValue (bytesAt payload off n))

section Fields

variable {T : Type} [Integral T] {payload : List UInt8} {size : Nat}

theorem gives_get {off : Nat} (h : payload.length = size) (hoff : off + Integral.size T ≤ size) :
    Gives payload (get T false off) (littleAt T payload off (Integral.size T)) := by
  have hread : getFrom T .little false (bytesAt payload off (Integral.size T)) =
      littleAt T payload off (Integral.size T) := by
    apply eq_of_toInt_modEq
    have hzero : Int.ModEq (256 ^ Integral.size T) (Integral.toInt (Integral.ofInt 0 : T)) 0 :=
      Integral.toInt_ofInt (T := T) 0
    have hbytes := accumulate_little (bytesAt payload off (Integral.size T)) 0
      (Integral.ofInt 0 : T)
    have hvalue := hzero.add_right (littleValue (bytesAt payload off (Integral.size T)) : Int)
    rw [Int.zero_add] at hvalue
    rw [Int.pow_zero, Int.mul_one] at hbytes
    exact (hbytes.trans hvalue).trans (Integral.toInt_ofInt (T := T) _).symm
  have hgives := gives_getEndian (T := T) .little false (hoff.trans h.ge)
  rw [hread] at hgives
  exact hgives

theorem bytesAt_one {i : Nat} (h : i < payload.length) : bytesAt payload i 1 = [payload[i]] := by
  rw [bytesAt, List.drop_eq_getElem_cons h]
  rfl

theorem littleAt_one {i : Nat} (h : i < payload.length) :
    littleAt T payload i 1 = castChar T false payload[i] := by
  simp [littleAt, bytesAt_one h, littleValue, castChar, charValue]

theorem littleAt_byte {i : Nat} (h : i < payload.length) :
    littleAt UInt8 payload i 1 = payload[i] := by
  rw [littleAt, bytesAt_one h, littleValue, littleValue, Nat.mul_zero, Nat.add_zero]
  exact Integral.ofInt_toInt payload[i]

theorem gives_charAt {i : Nat} (h : payload.length = size) (hi : i < size) :
    Gives payload (charAt false T i) (littleAt T payload i 1) := by
  have hlt : i < payload.length := by omega
  have hread : Gives payload (index 0 i) payload[i] := by
    have hne : i ≠ payload.length := by omega
    simp [Gives, Reader.index, hne, hlt]
  rw [littleAt_one hlt]
  exact hread.bind (Gives.pure payload _)

/-- A field tells its bytes. -/
theorem bytesAt_of_littleAt {p q : List UInt8} {off n : Nat} (hp : p.length = size)
    (hq : q.length = size) (hoff : off + n ≤ size) (hn : n ≤ Integral.size T)
    (h : littleAt T p off n = littleAt T q off n) : bytesAt p off n = bytesAt q off n := by
  have hlen : ∀ r : List UInt8, r.length = size → (bytesAt r off n).length = n := by
    intro r hr
    rw [bytesAt, List.length_take, List.length_drop]
    omega
  have hbound : ∀ r : List UInt8, r.length = size →
      littleValue (bytesAt r off n) < 256 ^ Integral.size T := by
    intro r hr
    have hlt := littleValue_lt (bytesAt r off n)
    rw [hlen r hr] at hlt
    exact hlt.trans_le (Nat.pow_le_pow_right (by omega) hn)
  have hmod : Int.ModEq (256 ^ Integral.size T) (littleValue (bytesAt p off n))
      (littleValue (bytesAt q off n)) := by
    have hval := congrArg Integral.toInt h
    exact (Integral.toInt_ofInt (T := T) _).symm.trans
      (hval ▸ Integral.toInt_ofInt (T := T) _)
  have hnat := Int.natCast_modEq_iff.mp (by exact_mod_cast hmod)
  rw [Nat.ModEq, Nat.mod_eq_of_lt (hbound p hp), Nat.mod_eq_of_lt (hbound q hq)] at hnat
  exact littleValue_inj ((hlen p hp).trans (hlen q hq).symm) hnat

/-- The fields hold the same bytes. -/
def Agree (p q : List UInt8) (layout : List (Nat × Nat)) : Prop :=
  ∀ f ∈ layout, bytesAt p f.1 f.2 = bytesAt q f.1 f.2

theorem Agree.nil (p q : List UInt8) : Agree p q [] := fun _ hf => absurd hf List.not_mem_nil

theorem Agree.cons {p q : List UInt8} {layout : List (Nat × Nat)} {off n : Nat}
    (hlen : p.length = size ∧ q.length = size) (h : littleAt T p off n = littleAt T q off n)
    (hrest : Agree p q layout) (hoff : off + n ≤ size := by decide)
    (hn : n ≤ Integral.size T := by decide) : Agree p q ((off, n) :: layout) :=
  List.forall_mem_cons.mpr ⟨bytesAt_of_littleAt hlen.1 hlen.2 hoff hn h, hrest⟩

end Fields

/-! ## Messages -/

inductive FixedMessage where
  | navStatus
  | navDop
  | navTimeGPS
  | navTimeUTC
  | navClock
  | navPosLLH
  | cfgTP5
  | monHW
  | monHW2
  | timTP
  deriving DecidableEq, Repr

def FixedMessage.id : FixedMessage → UInt16
  | .navStatus => MsgId.navStatus
  | .navDop => MsgId.navDop
  | .navTimeGPS => MsgId.navTimeGPS
  | .navTimeUTC => MsgId.navTimeUTC
  | .navClock => MsgId.navClock
  | .navPosLLH => MsgId.navPosLLH
  | .cfgTP5 => MsgId.cfgTP5
  | .monHW => MsgId.monHW
  | .monHW2 => MsgId.monHW2
  | .timTP => MsgId.timTP

/-- The length of the payload. -/
def FixedMessage.size : FixedMessage → Nat
  | .navStatus => 16
  | .navDop => 18
  | .navTimeGPS => 16
  | .navTimeUTC => 20
  | .navClock => 20
  | .navPosLLH => 28
  | .cfgTP5 => 32
  | .monHW => 60
  | .monHW2 => 28
  | .timTP => 16

/-- Where the fields of the event stand: offset and number of bytes. -/
def FixedMessage.layout : FixedMessage → List (Nat × Nat)
  | .navStatus => [(0, 4), (4, 1), (5, 1), (7, 1), (8, 4), (12, 4)]
  | .navDop => [(4, 2), (6, 2), (8, 2), (10, 2), (12, 2), (14, 2), (16, 2)]
  | .navTimeGPS => [(0, 4), (4, 4), (8, 2), (10, 1), (11, 1), (12, 4)]
  | .navTimeUTC => [(0, 4), (4, 4), (8, 4), (12, 2), (14, 1), (15, 1), (16, 1), (17, 1), (18, 1),
      (19, 1)]
  | .navClock => [(0, 4), (4, 4), (8, 4), (12, 4), (16, 4)]
  | .navPosLLH => [(0, 4), (4, 4), (8, 4), (12, 4), (16, 4), (20, 4), (24, 4)]
  | .cfgTP5 => [(0, 1), (1, 1), (4, 2), (6, 2), (8, 4), (12, 4), (16, 4), (20, 4), (24, 4), (28, 4)]
  | .monHW => [(16, 2), (18, 2), (20, 1), (21, 1), (22, 1), (45, 1)]
  | .monHW2 => [(0, 1), (1, 1), (2, 1), (3, 1), (4, 1), (20, 4)]
  | .timTP => [(0, 4), (4, 4), (8, 4), (12, 2), (14, 1), (15, 1)]

/-- What a payload says. -/
def FixedMessage.event (m : FixedMessage) (p : List UInt8) : UbxEvent :=
  match m with
  | .navStatus => .navStatus {
      iTOW := littleAt UInt32 p 0 4
      gpsFix := littleAt UInt8 p 4 1
      flags := littleAt UInt8 p 5 1
      flags2 := littleAt UInt8 p 7 1
      ttff := littleAt UInt32 p 8 4
      msss := littleAt UInt32 p 12 4 }
  | .navDop => .navDop {
      gDOP := littleAt UInt16 p 4 2
      pDOP := littleAt UInt16 p 6 2
      tDOP := littleAt UInt16 p 8 2
      vDOP := littleAt UInt16 p 10 2
      hDOP := littleAt UInt16 p 12 2
      nDOP := littleAt UInt16 p 14 2
      eDOP := littleAt UInt16 p 16 2 }
  | .navTimeGPS => .navTimeGPS {
      iTOW := littleAt UInt32 p 0 4
      fTOW := littleAt Int32 p 4 4
      wnR := littleAt UInt16 p 8 2
      leapS := littleAt Int8 p 10 1
      flags := littleAt UInt8 p 11 1
      tAcc := littleAt UInt32 p 12 4 }
  | .navTimeUTC => .navTimeUTC {
      iTOW := littleAt UInt32 p 0 4
      tAcc := littleAt UInt32 p 4 4
      nano := littleAt Int32 p 8 4
      year := littleAt UInt16 p 12 2
      month := littleAt UInt16 p 14 1
      day := littleAt UInt16 p 15 1
      hour := littleAt UInt16 p 16 1
      min := littleAt UInt16 p 17 1
      sec := littleAt UInt16 p 18 1
      flags := littleAt UInt8 p 19 1 }
  | .navClock => .navClock {
      iTOW := littleAt UInt32 p 0 4
      clkB := littleAt Int32 p 4 4
      clkD := littleAt Int32 p 8 4
      tAcc := littleAt UInt32 p 12 4
      fAcc := littleAt UInt32 p 16 4 }
  | .navPosLLH => .navPosLLH {
      iTOW := littleAt UInt32 p 0 4
      lon := littleAt Int32 p 4 4
      lat := littleAt Int32 p 8 4
      height := littleAt Int32 p 12 4
      hMSL := littleAt Int32 p 16 4
      hAcc := littleAt UInt32 p 20 4
      vAcc := littleAt UInt32 p 24 4 }
  | .cfgTP5 => .cfgTP5 {
      tpIndex := littleAt UInt8 p 0 1
      version := littleAt UInt8 p 1 1
      antCableDelay := littleAt Int16 p 4 2
      rfGroupDelay := littleAt Int16 p 6 2
      freqPeriod := littleAt UInt32 p 8 4
      freqPeriodLock := littleAt UInt32 p 12 4
      pulseLenRatio := littleAt UInt32 p 16 4
      pulseLenRatioLock := littleAt UInt32 p 20 4
      userConfigDelay := littleAt Int32 p 24 4
      flags := littleAt UInt32 p 28 4 }
  | .monHW => .monHW {
      noisePerMS := littleAt UInt16 p 16 2
      agcCnt := littleAt UInt16 p 18 2
      antStatus := littleAt UInt8 p 20 1
      antPower := littleAt UInt8 p 21 1
      flags := littleAt UInt8 p 22 1
      jamInd := littleAt UInt8 p 45 1 }
  | .monHW2 => .monHW2 {
      ofsI := littleAt Int8 p 0 1
      magI := littleAt UInt8 p 1 1
      ofsQ := littleAt Int8 p 2 1
      magQ := littleAt UInt8 p 3 1
      cfgSrc := littleAt UInt8 p 4 1
      postStatus := littleAt UInt32 p 20 4 }
  | .timTP => .timTP {
      towMS := littleAt UInt32 p 0 4
      towSubMS := littleAt UInt32 p 4 4
      qErr := littleAt Int32 p 8 4
      week := littleAt UInt16 p 12 2
      flags := littleAt UInt8 p 14 1
      refInfo := littleAt UInt8 p 15 1 }

/-- Events tell the bytes of every field. -/
theorem agree_of_event {m : FixedMessage} {p q : List UInt8}
    (hlen : p.length = m.size ∧ q.length = m.size) (h : m.event p = m.event q) :
    Agree p q m.layout := by
  cases m with
  | navStatus =>
    injection h with h
    injection h with h0 h1 h2 h3 h4 h5
    exact .cons hlen h0 <| .cons hlen h1 <| .cons hlen h2 <| .cons hlen h3 <| .cons hlen h4 <|
      .cons hlen h5 <| Agree.nil p q
  | navDop =>
    injection h with h
    injection h with h0 h1 h2 h3 h4 h5 h6
    exact .cons hlen h0 <| .cons hlen h1 <| .cons hlen h2 <| .cons hlen h3 <| .cons hlen h4 <|
      .cons hlen h5 <| .cons hlen h6 <| Agree.nil p q
  | navTimeGPS =>
    injection h with h
    injection h with h0 h1 h2 h3 h4 h5
    exact .cons hlen h0 <| .cons hlen h1 <| .cons hlen h2 <| .cons hlen h3 <| .cons hlen h4 <|
      .cons hlen h5 <| Agree.nil p q
  | navTimeUTC =>
    injection h with h
    injection h with h0 h1 h2 h3 h4 h5 h6 h7 h8 h9
    exact .cons hlen h0 <| .cons hlen h1 <| .cons hlen h2 <| .cons hlen h3 <| .cons hlen h4 <|
      .cons hlen h5 <| .cons hlen h6 <| .cons hlen h7 <| .cons hlen h8 <| .cons hlen h9 <|
      Agree.nil p q
  | navClock =>
    injection h with h
    injection h with h0 h1 h2 h3 h4
    exact .cons hlen h0 <| .cons hlen h1 <| .cons hlen h2 <| .cons hlen h3 <| .cons hlen h4 <|
      Agree.nil p q
  | navPosLLH =>
    injection h with h
    injection h with h0 h1 h2 h3 h4 h5 h6
    exact .cons hlen h0 <| .cons hlen h1 <| .cons hlen h2 <| .cons hlen h3 <| .cons hlen h4 <|
      .cons hlen h5 <| .cons hlen h6 <| Agree.nil p q
  | cfgTP5 =>
    injection h with h
    injection h with h0 h1 h2 h3 h4 h5 h6 h7 h8 h9
    exact .cons hlen h0 <| .cons hlen h1 <| .cons hlen h2 <| .cons hlen h3 <| .cons hlen h4 <|
      .cons hlen h5 <| .cons hlen h6 <| .cons hlen h7 <| .cons hlen h8 <| .cons hlen h9 <|
      Agree.nil p q
  | monHW =>
    injection h with h
    injection h with h0 h1 h2 h3 h4 h5
    exact .cons hlen h0 <| .cons hlen h1 <| .cons hlen h2 <| .cons hlen h3 <| .cons hlen h4 <|
      .cons hlen h5 <| Agree.nil p q
  | monHW2 =>
    injection h with h
    injection h with h0 h1 h2 h3 h4 h5
    exact .cons hlen h0 <| .cons hlen h1 <| .cons hlen h2 <| .cons hlen h3 <| .cons hlen h4 <|
      .cons hlen h5 <| Agree.nil p q
  | timTP =>
    injection h with h
    injection h with h0 h1 h2 h3 h4 h5
    exact .cons hlen h0 <| .cons hlen h1 <| .cons hlen h2 <| .cons hlen h3 <| .cons hlen h4 <|
      .cons hlen h5 <| Agree.nil p q

/-! ## Decoders -/

/-- What the decoder makes of a payload. -/
def FixedMessage.decoded (m : FixedMessage) (p : List UInt8) : UbxEvent :=
  match m with
  | .navTimeUTC => .navTimeUTC {
      iTOW := littleAt UInt32 p 0 4
      tAcc := littleAt UInt32 p 4 4
      nano := littleAt Int32 p 8 4
      year := littleAt UInt16 p 12 2
      month := littleAt UInt16 p 14 1
      day := littleAt UInt16 p 15 1
      hour := littleAt UInt16 p 16 1
      min := littleAt UInt16 p 17 1
      sec := littleAt UInt16 p 18 1 }
  | .timTP => .timTP {
      towMS := littleAt UInt32 p 0 4
      towSubMS := littleAt UInt32 p 4 4
      qErr := littleAt Int32 p 8 4
      week := littleAt UInt16 p 12 2
      flags := littleAt UInt8 p 14 1
      refInfo := littleAt UInt8 p 14 1 }
  | m => m.event p

theorem gives_decode {m : FixedMessage} {p : List UInt8} (h : p.length = m.size)
    (s : ProcessorState) : Gives p (decode false s m.id) (some (m.decoded p), s) := by
  cases m with
  | navTimeUTC =>
    apply gives_stateless .navTimeUTC rfl
    repeat refine (gives_get h (by decide)).bind ?_
    repeat refine (gives_charAt h (by decide)).bind ?_
    exact Gives.pure p _
  | navStatus =>
    apply gives_stateless .navStatus rfl
    repeat refine (gives_get h (by decide)).bind ?_
    exact Gives.pure p _
  | navDop =>
    apply gives_stateless .navDop rfl
    repeat refine (gives_get h (by decide)).bind ?_
    exact Gives.pure p _
  | navTimeGPS =>
    apply gives_stateless .navTimeGPS rfl
    repeat refine (gives_get h (by decide)).bind ?_
    exact Gives.pure p _
  | navClock =>
    apply gives_stateless .navClock rfl
    repeat refine (gives_get h (by decide)).bind ?_
    exact Gives.pure p _
  | navPosLLH =>
    apply gives_stateless .navPosLLH rfl
    repeat refine (gives_get h (by decide)).bind ?_
    exact Gives.pure p _
  | cfgTP5 =>
    apply gives_stateless .cfgTP5 rfl
    repeat refine (gives_get h (by decide)).bind ?_
    exact Gives.pure p _
  | monHW =>
    apply gives_stateless .monHW rfl
    repeat refine (gives_get h (by decide)).bind ?_
    exact Gives.pure p _
  | monHW2 =>
    apply gives_stateless .monHW2 rfl
    repeat refine (gives_get h (by decide)).bind ?_
    exact Gives.pure p _
  | timTP =>
    apply gives_stateless .timTP rfl
    repeat refine (gives_get h (by decide)).bind ?_
    exact Gives.pure p _

/-! ## Returned payloads -/

/-- The message is processed to the event that its payload says, in every state. -/
def Returned (m : FixedMessage) (p : List UInt8) : Prop :=
  ∀ s, (processMessage false s ⟨m.id, p⟩).1 = some (some (m.event p), s)

/-- The bytes that a decoder gets wrong are as it takes them. -/
def FixedMessage.Unconfused (m : FixedMessage) (p : List UInt8) : Prop :=
  match m with
  | .navTimeUTC => bytesAt p 19 1 = [0]
  | .timTP => bytesAt p 15 1 = bytesAt p 14 1
  | _ => True

theorem returned_iff_decoded {m : FixedMessage} {p : List UInt8} (h : p.length = m.size) :
    Returned m p ↔ m.decoded p = m.event p := by
  constructor
  · intro hret
    have hgives : Gives p (decode false {} m.id) (some (m.event p), {}) := hret {}
    rw [Gives, gives_decode h] at hgives
    injection hgives with hpair
    injection (congrArg Prod.fst hpair)
  · intro heq s
    rw [← heq]
    exact gives_decode h s

theorem decoded_iff_unconfused {m : FixedMessage} {p : List UInt8} (h : p.length = m.size) :
    m.decoded p = m.event p ↔ m.Unconfused p := by
  cases m with
  | navTimeUTC =>
    have hlt : 19 < p.length := by
      rw [h]
      decide
    simp [FixedMessage.decoded, FixedMessage.event, FixedMessage.Unconfused, littleAt_byte hlt,
      bytesAt_one hlt, eq_comm]
  | timTP =>
    have hinfo : 15 < p.length := by
      rw [h]
      decide
    have hflags : 14 < p.length := by omega
    simp [FixedMessage.decoded, FixedMessage.event, FixedMessage.Unconfused, littleAt_byte hinfo,
      littleAt_byte hflags, bytesAt_one hinfo, bytesAt_one hflags, eq_comm]
  | _ => exact iff_of_true rfl trivial

/-- **Payloads of a fixed layout.** A payload of the nominal length is returned field by
field exactly when the bytes that its decoder gets wrong are as it takes them, and then
two payloads that differ in a field give different events. -/
theorem fixed_layout_iff (m : FixedMessage) {p : List UInt8} (hp : p.length = m.size) :
    (Returned m p ↔ m.Unconfused p) ∧
      ∀ q s t, q.length = m.size → m.Unconfused p → m.Unconfused q →
        (∃ f ∈ m.layout, bytesAt p f.1 f.2 ≠ bytesAt q f.1 f.2) →
        (processMessage false s ⟨m.id, p⟩).1.map Prod.fst ≠
          (processMessage false t ⟨m.id, q⟩).1.map Prod.fst := by
  have hreturned : ∀ r : List UInt8, r.length = m.size → (Returned m r ↔ m.Unconfused r) :=
    fun r hr => (returned_iff_decoded hr).trans (decoded_iff_unconfused hr)
  refine ⟨hreturned p hp, ?_⟩
  rintro q s t hq hup huq ⟨f, hf, hne⟩ heq
  rw [(hreturned p hp).mpr hup s, (hreturned q hq).mpr huq t] at heq
  have hevent : m.event p = m.event q := by simpa using heq
  exact hne (agree_of_event ⟨hp, hq⟩ hevent f hf)

/-- Two time pulses whose reference info is equal to their flags. -/
theorem timePulses_returned :
    Returned .timTP (List.replicate 16 0) ∧
      (processMessage false {} ⟨MsgId.timTP, List.replicate 16 0⟩).1.map Prod.fst ≠
        (processMessage false {} ⟨MsgId.timTP, List.replicate 14 0 ++ [1, 1]⟩).1.map Prod.fst :=
  ⟨(fixed_layout_iff .timTP rfl).1.mpr rfl,
    (fixed_layout_iff .timTP rfl).2 (List.replicate 14 0 ++ [1, 1]) {} {} rfl rfl rfl
      ⟨(14, 1), by decide, by decide⟩⟩

/-- Two time pulses with different reference info. -/
theorem refInfo_confused :
    ¬Returned .timTP (List.replicate 15 0 ++ [1]) ∧
      (processMessage false {} ⟨MsgId.timTP, List.replicate 15 0 ++ [1]⟩).1 =
        (processMessage false {} ⟨MsgId.timTP, List.replicate 16 0⟩).1 := by
  constructor
  · intro h
    have heq := (returned_iff_decoded rfl).mp h
    revert heq
    decide
  · decide

end MuonDetector.Ublox.FixedLayout
