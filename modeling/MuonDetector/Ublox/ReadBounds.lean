import MuonDetector.Ublox.MessageProcessor

/-!
# Which payloads a decoder reads inside its bounds

Only the decoder of acknowledges looks at the payload size before it reads. Every
other decoder stays inside the payload exactly when the payload has the bytes that
it decodes, and the version decoder needs one byte more when its second string is
not terminated.
-/

namespace MuonDetector.Ublox.ReadBounds

open MuonDetector.Library MuonDetector.Library.Reader MuonDetector.Utility.HelperFunctions
open MuonDetector.Ublox.Message MuonDetector.Ublox.Events MuonDetector.Ublox.MessageProcessor

/-! ## Fixed layouts -/

/-- A field inside the first `n` bytes of a payload that has them. -/
theorem field {T : Type} [Integral T] {e : Endian} {c : Bool} {n off : Nat} {buf : List UInt8}
    (h : n ≤ buf.length) (hoff : off + Integral.size T ≤ n) :
    InRange buf (getEndian T e c off) :=
  inRange_getEndian (Nat.le_trans hoff h)

theorem charField {T : Type} [Integral T] {c : Bool} {n i : Nat} {buf : List UInt8}
    (h : n ≤ buf.length) (hi : i < n) : InRange buf (charAt c T i) :=
  (InRange.index 0 (Nat.lt_of_lt_of_le hi h)).bind fun _ => InRange.pure buf _

section Layouts

variable {c : Bool} {buf : List UInt8}

theorem inRange_ubxNavStatus (h : 16 ≤ buf.length) : InRange buf (ubxNavStatus c) := by
  repeat refine (field h (by decide)).bind fun _ => ?_
  exact InRange.pure buf _

theorem inRange_ubxNavDOP (h : 18 ≤ buf.length) : InRange buf (ubxNavDOP c) := by
  repeat refine (field h (by decide)).bind fun _ => ?_
  exact InRange.pure buf _

theorem inRange_ubxNavTimeGPS (h : 16 ≤ buf.length) : InRange buf (ubxNavTimeGPS c) := by
  repeat refine (field h (by decide)).bind fun _ => ?_
  exact InRange.pure buf _

theorem inRange_ubxNavTimeUTC (h : 20 ≤ buf.length) : InRange buf (ubxNavTimeUTC c) := by
  repeat refine (field h (by decide)).bind fun _ => ?_
  repeat refine (charField h (by decide)).bind fun _ => ?_
  exact InRange.pure buf _

theorem inRange_ubxNavClock (h : 20 ≤ buf.length) : InRange buf (ubxNavClock c) := by
  repeat refine (field h (by decide)).bind fun _ => ?_
  exact InRange.pure buf _

theorem inRange_ubxNavPosLLH (h : 28 ≤ buf.length) : InRange buf (ubxNavPosLLH c) := by
  repeat refine (field h (by decide)).bind fun _ => ?_
  exact InRange.pure buf _

theorem inRange_ubxCfgAnt (h : 4 ≤ buf.length) : InRange buf (ubxCfgAnt c) := by
  repeat refine (field h (by decide)).bind fun _ => ?_
  exact InRange.pure buf _

theorem inRange_ubxCfgNavX5 (h : 32 ≤ buf.length) : InRange buf (ubxCfgNavX5 c) := by
  repeat refine (field h (by decide)).bind fun _ => ?_
  exact InRange.pure buf _

theorem inRange_ubxCfgNav5 (h : 26 ≤ buf.length) : InRange buf (ubxCfgNav5 c) := by
  repeat refine (field h (by decide)).bind fun _ => ?_
  exact InRange.pure buf _

theorem inRange_ubxCfgTP5 (h : 32 ≤ buf.length) : InRange buf (ubxCfgTP5 c) := by
  repeat refine (field h (by decide)).bind fun _ => ?_
  exact InRange.pure buf _

theorem inRange_ubxCfgMSG (h : 4 ≤ buf.length) : InRange buf (ubxCfgMSG c) := by
  repeat refine (field h (by decide)).bind fun _ => ?_
  exact InRange.pure buf _

theorem inRange_ubxMonHW (h : 46 ≤ buf.length) : InRange buf (ubxMonHW c) := by
  repeat refine (field h (by decide)).bind fun _ => ?_
  exact InRange.pure buf _

theorem inRange_ubxMonHW2 (h : 24 ≤ buf.length) : InRange buf (ubxMonHW2 c) := by
  repeat refine (field h (by decide)).bind fun _ => ?_
  exact InRange.pure buf _

theorem inRange_ubxTimTP (h : 15 ≤ buf.length) : InRange buf (ubxTimTP c) := by
  repeat refine (field h (by decide)).bind fun _ => ?_
  exact InRange.pure buf _

theorem inRange_ubxTimTM2 (h : 28 ≤ buf.length) (lastPulseLength : Int) :
    InRange buf (ubxTimTM2 c lastPulseLength) := by
  repeat refine (field h (by decide)).bind fun _ => ?_
  exact InRange.pure buf _

theorem inRange_bufTarget (h : 24 ≤ buf.length) {target : Nat} (ht : target < nrTargets) :
    InRange buf (bufTarget c target) := by
  have hn : nrTargets = 6 := rfl
  have hword := size_uint16
  have hbyte := size_uint8
  refine (field h (by omega)).bind fun _ => (field h (by omega)).bind fun _ => ?_
  exact (field h (by omega)).bind fun _ => InRange.pure buf _

theorem inRange_ubxMonRx (h : 24 ≤ buf.length) : InRange buf (ubxMonRx c) :=
  (InRange.times fun _ ht => inRange_bufTarget h ht).bind fun _ => InRange.pure buf _

theorem inRange_ubxMonTx (h : 26 ≤ buf.length) : InRange buf (ubxMonTx c) := by
  refine (InRange.times fun _ ht => inRange_bufTarget (Nat.le_trans (by decide) h) ht).bind ?_
  intro targets
  repeat refine (field h (by decide)).bind fun _ => ?_
  exact InRange.pure buf _

end Layouts

/-! ## Lists of blocks -/

/-- For a payload that has its header the number of blocks does not wrap. -/
theorem blockCount_eq {header block : UInt64} {n : Nat} (h : header.toNat ≤ n)
    (hn : n < 2 ^ 64) :
    ((UInt64.ofNat n - header) / block).toNat = (n - header.toNat) / block.toNat := by
  have hsize : (UInt64.ofNat n).toNat = n := by
    rw [UInt64.toNat_ofNat']
    exact Nat.mod_eq_of_lt hn
  have hle : header ≤ UInt64.ofNat n := by rw [UInt64.le_iff_toNat_le, hsize]; exact h
  rw [UInt64.toNat_div, UInt64.toNat_sub_of_le _ _ hle, hsize]

section Blocks

variable {c : Bool} {buf : List UInt8}

theorem size_lt (h : buf.length ≤ maxLen.toNat) : buf.length < 2 ^ 64 :=
  Nat.lt_of_le_of_lt h (by decide)

theorem gives_blockCount (header block : UInt64) (h : header.toNat ≤ buf.length)
    (hn : buf.length < 2 ^ 64) :
    Gives buf (blockCount header block) ((buf.length - header.toNat) / block.toNat) := by
  rw [← blockCount_eq h hn]
  exact (Gives.size buf).bind ((Gives.bound buf _).bind (Gives.pure buf _))

theorem inRange_blockCount {header block : UInt64} (h : header.toNat ≤ buf.length)
    (hn : buf.length < 2 ^ 64) : InRange buf (blockCount header block) := by
  refine (InRange.size buf).bind_gives fun size hsize => ?_
  obtain rfl : buf.length = size := Option.some.inj hsize
  refine (InRange.bound ?_).bind fun _ => InRange.pure buf _
  rw [blockCount_eq h hn]
  exact Nat.le_trans (Nat.div_le_self _ _) (Nat.sub_le _ _)

theorem inRange_blocks {α γ : Type} {header block : UInt64} {f : Nat → Reader UInt8 α}
    {g : List α → γ} (h : header.toNat ≤ buf.length) (hn : buf.length < 2 ^ 64)
    (hf : ∀ i, header.toNat + (i + 1) * block.toNat ≤ buf.length → InRange buf (f i)) :
    InRange buf (do
      let n ← blockCount header block
      let blocks ← times n f
      pure (g blocks)) := by
  refine (inRange_blockCount h hn).bind_gives fun n hcount => ?_
  obtain rfl : (buf.length - header.toNat) / block.toNat = n :=
    Option.some.inj ((gives_blockCount header block h hn).symm.trans hcount)
  refine (InRange.times fun i hi => hf i ?_).bind fun _ => InRange.pure buf _
  have hmul : (i + 1) * block.toNat ≤ (buf.length - header.toNat) / block.toNat * block.toNat :=
    Nat.mul_le_mul_right _ hi
  have hdiv := Nat.div_mul_le_self (buf.length - header.toNat) block.toNat
  omega

theorem inRange_svinfoBlock {i : Nat} (h : 8 + (i + 1) * 12 ≤ buf.length) :
    InRange buf (svinfoBlock c i) := by
  have hbyte := size_uint8
  have hsbyte := size_int8
  have hword := size_int16
  have hdword := size_int32
  repeat refine (field h (by omega)).bind fun _ => ?_
  exact InRange.pure buf _

theorem inRange_satBlock {i : Nat} (h : 8 + (i + 1) * 12 ≤ buf.length) :
    InRange buf (satBlock c i) := by
  have hbyte := size_uint8
  have hsbyte := size_int8
  have hword := size_int16
  have hdword := size_uint32
  repeat refine (field h (by omega)).bind fun _ => ?_
  exact InRange.pure buf _

theorem inRange_gnssBlock {i : Nat} (h : 4 + (i + 1) * 8 ≤ buf.length) :
    InRange buf (gnssBlock c i) := by
  have hbyte := size_uint8
  have hdword := size_uint32
  repeat refine (field h (by omega)).bind fun _ => ?_
  exact InRange.pure buf _

theorem inRange_ubxNavSVinfo (h : 8 ≤ buf.length) (hn : buf.length ≤ maxLen.toNat) :
    InRange buf (ubxNavSVinfo c) := by
  repeat refine (field h (by decide)).bind fun _ => ?_
  exact inRange_blocks h (size_lt hn) fun i hi => inRange_svinfoBlock hi

theorem inRange_ubxNavSat (h : 8 ≤ buf.length) (hn : buf.length ≤ maxLen.toNat) :
    InRange buf (ubxNavSat c) := by
  repeat refine (field h (by decide)).bind fun _ => ?_
  exact inRange_blocks h (size_lt hn) fun i hi => inRange_satBlock hi

theorem inRange_ubxCfgGNSS (h : 4 ≤ buf.length) (hn : buf.length ≤ maxLen.toNat) :
    InRange buf (ubxCfgGNSS c) := by
  repeat refine (field h (by decide)).bind fun _ => ?_
  exact inRange_blocks h (size_lt hn) fun i hi => inRange_gnssBlock hi

end Blocks

/-! ## The version message -/

section Version

variable {buf : List UInt8}

/-- A loop over a string stays inside a payload that is longer than its last turn, and
inside any payload that has the end of the string. -/
theorem inRange_textFrom {i left : Nat}
    (h : i + left < buf.length ∨ 0 ∈ (buf.drop i).take left) : InRange buf (textFrom i left) := by
  induction left generalizing i with
  | zero =>
    have hi : i < buf.length := h.resolve_right (by simp)
    exact (InRange.index 0 hi).bind fun _ => InRange.pure buf _
  | succ left ih =>
    have hi : i < buf.length := by
      rcases h with h | h
      · omega
      · by_contra hge
        rw [List.drop_eq_nil_of_le (Nat.le_of_not_lt hge)] at h
        cases h
    refine (InRange.index 0 hi).bind_gives fun ch hch => ?_
    split
    · exact InRange.pure buf _
    · next hne =>
      have hget : buf[i] = ch := by
        simpa [Gives, index, Nat.ne_of_lt hi, hi] using hch
      refine (ih ?_).bind fun _ => InRange.pure buf _
      refine h.imp (fun h => by omega) fun hnul => ?_
      rw [List.drop_eq_getElem_cons hi, List.take_succ_cons, hget] at hnul
      exact (List.mem_cons.mp hnul).resolve_left fun h0 => hne h0.symm

/-- With no end of the string in its turns the loop reads the place behind them. -/
theorem textFrom_reads_end {i left : Nat} (h : i + left ≤ buf.length)
    (hnul : 0 ∉ (buf.drop i).take left) : i + left ∈ (textFrom i left buf).2.reads := by
  induction left generalizing i with
  | zero => exact reads_bind_left _ List.mem_cons_self
  | succ left ih =>
    have hi : i < buf.length := by omega
    rw [List.drop_eq_getElem_cons hi, List.take_succ_cons, List.mem_cons, not_or] at hnul
    have hch : Gives buf (index 0 i) buf[i] := by simp [Gives, index, Nat.ne_of_lt hi, hi]
    refine reads_bind_right hch ?_
    rw [if_neg fun h0 => hnul.1 h0.symm]
    refine reads_bind_left _ ?_
    have hrest := ih (i := i + 1) (by omega) hnul.2
    rwa [Nat.add_right_comm] at hrest

theorem inRange_scanTurn {i : Nat} (hi : i ≤ buf.length) (prot : List UInt8) :
    InRange buf (scanTurn i prot) := by
  refine (InRange.find buf 0 _).bind fun _ => (InRange.substr _ hi).bind fun _ => ?_
  exact (InRange.find buf 0 _).bind fun _ => InRange.pure buf _

theorem inRange_scanExtensions (i : Nat) (prot : List UInt8) :
    InRange buf fun buf => scanExtensions buf i prot := by
  induction hleft : buf.length - i using Nat.strong_induction_on generalizing i prot with
  | _ left ih =>
    by_cases hi : i < buf.length
    · refine InRange.of_apply_eq (scanExtensions_turn hi prot) ?_
      refine (inRange_scanTurn (Nat.le_of_lt hi) prot).bind_gives fun turn hturn => ?_
      obtain ⟨prot', _ | j⟩ := turn
      · exact InRange.pure buf prot'
      · obtain ⟨hj, -⟩ := scanTurn_next hturn
        exact ih (buf.length - j) (by omega) j prot' rfl
    · exact InRange.of_apply_eq (scanExtensions_end hi prot) (InRange.pure buf prot)

theorem inRange_ubxMonVer (h : 40 ≤ buf.length)
    (hnul : 40 < buf.length ∨ 0 ∈ (buf.drop 30).take 10) : InRange buf ubxMonVer := by
  refine (inRange_textFrom (Or.inl (by omega))).bind fun _ => ?_
  refine (inRange_textFrom (hnul.imp_left fun h => by omega)).bind fun _ => ?_
  refine (InRange.size buf).bind_gives fun size hsize => ?_
  obtain rfl : buf.length = size := Option.some.inj hsize
  refine (InRange.bound (Nat.le_refl _)).bind fun _ => ?_
  exact (inRange_scanExtensions 0 []).bind fun _ => InRange.pure buf _

/-- A payload of forty bytes without the end of the second string is read at its end. -/
theorem ubxMonVer_reads_end (h : buf.length = 40) (hnul : 0 ∉ (buf.drop 30).take 10) :
    40 ∈ (ubxMonVer buf).2.reads := by
  have hsw : InRange buf (textFrom 0 30) := inRange_textFrom (Or.inl (by omega))
  obtain ⟨swString, hgives⟩ := Option.isSome_iff_exists.mp hsw.defined
  have hend : 30 + 10 ∈ (textFrom 30 10 buf).2.reads := textFrom_reads_end (by omega) hnul
  exact reads_bind_right hgives (reads_bind_left _ hend)

end Version

/-! ## Layouts of the payloads -/

/-- How many bytes the decoder of each id decodes. Of a list this is the header, since a
payload with no block is a list of none. -/
def decodedSizes : List (UInt16 × Nat) :=
  [(MsgId.navStatus, 16), (MsgId.navDop, 18), (MsgId.navTimeGPS, 16), (MsgId.navTimeUTC, 20),
    (MsgId.navClock, 20), (MsgId.navSVinfo, 8), (MsgId.navSat, 8), (MsgId.navPosLLH, 28),
    (MsgId.cfgAnt, 4), (MsgId.cfgNavX5, 32), (MsgId.cfgNav5, 26), (MsgId.cfgTP5, 32),
    (MsgId.cfgGNSS, 4), (MsgId.cfgMsg, 4), (MsgId.monRxBuf, 24), (MsgId.monTxBuf, 26),
    (MsgId.monHW, 46), (MsgId.monHW2, 24), (MsgId.monVer, 40), (MsgId.timTP, 15),
    (MsgId.timTM2, 28)]

def handledIds : List UInt16 := decodedSizes.map Prod.fst

/-- The smallest payload of each id: no smaller than what its decoder decodes. An
acknowledge has the two bytes of the acknowledged id. -/
structure Layout where
  size : UInt16 → Nat
  covers : ∀ p ∈ decodedSizes, p.2 ≤ size p.1
  ack : ∀ id : UInt16, (id >>> 8 &&& 0xff).toUInt8 = 0x05 → size id = 2

/-- The layout of exactly what is decoded. -/
def decodedLayout : Layout where
  size id := if (id >>> 8 &&& 0xff).toUInt8 = 0x05 then 2 else (decodedSizes.lookup id).getD 0
  covers := by decide
  ack id h := if_pos h

theorem Layout.covers_of_le (L : Layout) {id : UInt16} {n k : Nat} (hmem : (id, n) ∈ decodedSizes)
    (h : L.size id ≤ k) : n ≤ k := Nat.le_trans (L.covers (id, n) hmem) h

/-! ## The lookup -/

section Lookup

variable {c : Bool} {s : ProcessorState} {buf : List UInt8}

theorem handlers_ids : (handlers c s).map Prod.fst = handledIds := rfl

theorem inRange_stateless {α : Type} {r : Reader UInt8 α} {event : α → UbxEvent}
    (h : InRange buf r) : InRange buf (stateless s r event) :=
  h.bind fun _ => InRange.pure buf _

/-- The string of the version message that may run up to its end is terminated, or
followed by something. -/
def TerminatedVersion (id : UInt16) (payload : List UInt8) : Prop :=
  id = MsgId.monVer → 40 < payload.length ∨ 0 ∈ (payload.drop 30).take 10

theorem inRange_handlers (L : Layout) (hn : buf.length ≤ maxLen.toNat) :
    ∀ p ∈ handlers c s, L.size p.1 ≤ buf.length → TerminatedVersion p.1 buf → InRange buf p.2 := by
  simp only [handlers, List.forall_mem_cons]
  refine ⟨fun h _ => inRange_stateless (inRange_ubxNavStatus (L.covers_of_le (by decide) h)),
    fun h _ => inRange_stateless (inRange_ubxNavDOP (L.covers_of_le (by decide) h)),
    fun h _ => inRange_stateless (inRange_ubxNavTimeGPS (L.covers_of_le (by decide) h)),
    fun h _ => inRange_stateless (inRange_ubxNavTimeUTC (L.covers_of_le (by decide) h)),
    fun h _ => inRange_stateless (inRange_ubxNavClock (L.covers_of_le (by decide) h)),
    fun h _ => inRange_stateless (inRange_ubxNavSVinfo (L.covers_of_le (by decide) h) hn),
    fun h _ => inRange_stateless (inRange_ubxNavSat (L.covers_of_le (by decide) h) hn),
    fun h _ => inRange_stateless (inRange_ubxNavPosLLH (L.covers_of_le (by decide) h)),
    fun h _ => inRange_stateless (inRange_ubxCfgAnt (L.covers_of_le (by decide) h)),
    fun h _ => inRange_stateless (inRange_ubxCfgNavX5 (L.covers_of_le (by decide) h)),
    fun h _ => inRange_stateless (inRange_ubxCfgNav5 (L.covers_of_le (by decide) h)),
    fun h _ => inRange_stateless (inRange_ubxCfgTP5 (L.covers_of_le (by decide) h)),
    fun h _ => inRange_stateless (inRange_ubxCfgGNSS (L.covers_of_le (by decide) h) hn),
    fun h _ => inRange_stateless (inRange_ubxCfgMSG (L.covers_of_le (by decide) h)),
    fun h _ => inRange_stateless (inRange_ubxMonRx (L.covers_of_le (by decide) h)),
    fun h _ => inRange_stateless (inRange_ubxMonTx (L.covers_of_le (by decide) h)),
    fun h _ => inRange_stateless (inRange_ubxMonHW (L.covers_of_le (by decide) h)),
    fun h _ => inRange_stateless (inRange_ubxMonHW2 (L.covers_of_le (by decide) h)),
    fun h hver => ?_,
    fun h _ => inRange_stateless (inRange_ubxTimTP (L.covers_of_le (by decide) h)),
    fun h _ => ?_, fun _ hmem => absurd hmem List.not_mem_nil⟩
  · have hsize := L.covers_of_le (n := 40) (by decide) h
    exact (inRange_ubxMonVer hsize (hver rfl)).bind fun _ => InRange.pure buf _
  · have hsize := L.covers_of_le (n := 28) (by decide) h
    exact (inRange_ubxTimTM2 hsize _).bind fun _ => InRange.pure buf _

theorem lookup_handlers_isSome (id : UInt16) :
    ((handlers c s).lookup id).isSome ↔ id ∈ handledIds := by
  rw [List.lookup_isSome_iff, ← handlers_ids (c := c) (s := s)]
  simp [List.mem_map]

theorem mem_handlers_of_lookup {id : UInt16} {handle : Reader UInt8 (UbxEvent × ProcessorState)}
    (h : (handlers c s).lookup id = some handle) : (id, handle) ∈ handlers c s := by
  obtain ⟨before, rest, heq, -⟩ := List.lookup_eq_some_iff.mp h
  rw [heq]
  exact List.mem_append_right _ List.mem_cons_self

/-- A message with a handler always makes an event, when it makes anything. -/
theorem decode_ne_none {id : UInt16} (h : id ∈ handledIds) (s' : ProcessorState) :
    ¬ Gives buf (decode c s id) (none, s') := by
  obtain ⟨handle, hlookup⟩ :=
    Option.isSome_iff_exists.mp ((lookup_handlers_isSome (c := c) (s := s) id).mpr h)
  rw [decode_of_handler hlookup]
  intro hgives
  obtain ⟨⟨event, s''⟩, -, hpure⟩ := hgives.of_bind
  cases hpure

theorem lookup_handlers_none {id : UInt16} (h : id ∉ handledIds) :
    (handlers c s).lookup id = none :=
  Option.not_isSome_iff_eq_none.mp fun hsome => h ((lookup_handlers_isSome id).mp hsome)

theorem inRange_ubxAck (id : UInt16) : InRange buf (ubxAck c id) := by
  refine (InRange.size buf).bind_gives fun size hsize => ?_
  obtain rfl : buf.length = size := Option.some.inj hsize
  split
  · exact InRange.pure buf none
  · next hlt =>
    have hack : 2 ≤ buf.length := Nat.le_of_not_lt hlt
    refine (charField hack (by decide)).bind fun _ => (charField hack (by decide)).bind fun _ => ?_
    split <;> exact InRange.pure buf _

theorem gives_ubxAck_short {id : UInt16} (h : buf.length < 2) : Gives buf (ubxAck c id) none := by
  refine (Gives.size buf).bind ?_
  rw [if_pos h]
  exact Gives.pure buf none

theorem inRange_decode_unhandled {id : UInt16} (h : id ∉ handledIds) :
    InRange buf (decode c s id) := by
  rw [decode_of_no_handler (lookup_handlers_none h)]
  split
  · exact (inRange_ubxAck id).bind fun _ => InRange.pure buf _
  · exact InRange.pure buf _

theorem gives_decode_unhandled {L : Layout} {id : UInt16} (h : id ∉ handledIds)
    (hshort : buf.length < L.size id) : Gives buf (decode c s id) (none, s) := by
  rw [decode_of_no_handler (lookup_handlers_none h)]
  split
  · next hclass =>
    rw [L.ack id hclass] at hshort
    exact (gives_ubxAck_short hshort).bind (Gives.pure buf _)
  · exact Gives.pure buf _

end Lookup

/-! ## When a message is read inside its payload -/

/-- What a decoder owes to a payload: no read and no loop bound past its size, and no
event for a payload that is too short. -/
structure ReadsInside (L : Layout) (c : Bool) (s : ProcessorState) (msg : UbxMessage) : Prop where
  reads : ∀ i ∈ (processMessage c s msg).2.reads, i < msg.payload.length
  bounds : ∀ n ∈ (processMessage c s msg).2.bounds, n ≤ msg.payload.length
  short : msg.payload.length < L.size msg.fullId →
    ∃ s', (processMessage c s msg).1 = some (none, s')

/-- The message has no handler, or as many bytes as its layout. -/
def LongEnough (L : Layout) (msg : UbxMessage) : Prop :=
  msg.fullId ∈ handledIds →
    L.size msg.fullId ≤ msg.payload.length ∧ TerminatedVersion msg.fullId msg.payload

theorem readsInside_of_longEnough {L : Layout} {c : Bool} {s : ProcessorState} {msg : UbxMessage}
    (hmax : msg.payload.length ≤ maxLen.toNat) (h : LongEnough L msg) :
    ReadsInside L c s msg := by
  by_cases hid : msg.fullId ∈ handledIds
  · obtain ⟨hsize, hver⟩ := h hid
    obtain ⟨handle, hlookup⟩ :=
      Option.isSome_iff_exists.mp ((lookup_handlers_isSome (c := c) (s := s) _).mpr hid)
    have hin : InRange msg.payload (decode c s msg.fullId) := by
      rw [decode_of_handler hlookup]
      have hhandle := inRange_handlers L hmax _ (mem_handlers_of_lookup hlookup) hsize hver
      exact hhandle.bind fun _ => InRange.pure _ _
    exact ⟨hin.reads, hin.bounds, fun hshort => absurd hsize (Nat.not_le_of_lt hshort)⟩
  · have hin : InRange msg.payload (decode c s msg.fullId) := inRange_decode_unhandled hid
    exact ⟨hin.reads, hin.bounds, fun hshort => ⟨s, gives_decode_unhandled hid hshort⟩⟩

theorem longEnough_of_readsInside {L : Layout} {c : Bool} {s : ProcessorState} {msg : UbxMessage}
    (h : ReadsInside L c s msg) : LongEnough L msg := by
  intro hid
  have hsize : L.size msg.fullId ≤ msg.payload.length := by
    by_contra hlt
    obtain ⟨s', hs'⟩ := h.short (Nat.lt_of_not_le hlt)
    exact decode_ne_none hid s' hs'
  refine ⟨hsize, fun hver => ?_⟩
  by_contra hnul
  rw [not_or, Nat.not_lt] at hnul
  rw [hver] at hsize
  have hlen : msg.payload.length = 40 :=
    Nat.le_antisymm hnul.1 (L.covers_of_le (by decide) hsize)
  have hread : 40 ∈ (processMessage c s msg).2.reads := by
    have hlookup : (handlers c s).lookup MsgId.monVer = some (monVerHandler s) := rfl
    unfold processMessage
    rw [hver, decode_of_handler hlookup]
    exact reads_bind_left _ (reads_bind_left _ (ubxMonVer_reads_end hlen hnul.2))
  exact absurd (h.reads 40 hread) (by omega)

/-- **`processMessage` stays inside the payload exactly when the payload has the bytes of
the layout of its id**, and the second string of a version message of forty bytes ends. -/
theorem processMessage_inside_iff (L : Layout) (c : Bool) (s : ProcessorState) (msg : UbxMessage)
    (hmax : msg.payload.length ≤ maxLen.toNat) :
    ReadsInside L c s msg ↔ LongEnough L msg :=
  ⟨longEnough_of_readsInside, readsInside_of_longEnough hmax⟩

/-- A version message whose last byte is the end of the second string. -/
theorem processMessage_inside_version :
    ReadsInside decodedLayout false {} ⟨MsgId.monVer, List.replicate 40 0⟩ := by
  refine (processMessage_inside_iff decodedLayout false {} ⟨MsgId.monVer, List.replicate 40 0⟩
    (by decide)).mpr fun _ => ⟨by decide, fun _ => ?_⟩
  exact Or.inr (by decide)

/-- A navigation status with no payload is a whole frame, and its first read is outside. -/
theorem empty_status_read_outside :
    UbxFrame ⟨MsgId.navStatus, []⟩ [0xb5, 0x62, 0x01, 0x03, 0x00, 0x00, 0x04, 0x0d] ∧
      0 ∈ (processMessage false {} ⟨MsgId.navStatus, []⟩).2.reads ∧
      ¬ ReadsInside decodedLayout false {} ⟨MsgId.navStatus, []⟩ := by
  have hread : 0 ∈ (processMessage false {} ⟨MsgId.navStatus, []⟩).2.reads := by decide
  refine ⟨⟨⟨⟨0x01, 0x03, 0, 0⟩, by decide⟩, by decide⟩, hread, fun h => ?_⟩
  exact absurd (h.reads 0 hread) (Nat.not_lt_zero 0)

end MuonDetector.Ublox.ReadBounds
