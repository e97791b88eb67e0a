import MuonDetector.Ublox.Serial
import MuonDetector.Ublox.Framing
import MuonDetector.Ublox.ReadBounds

/-!
# The decoders read back what the configuration commands write

The handlers write their payloads at fixed offsets and the decoders read them at
theirs. What is shown here for each pair gives, with the round trip of raw messages,
that a configuration message sent to the receiver and echoed by it is decoded to the
values of the command.
-/

namespace MuonDetector.Ublox.ConfigAgreement

open MuonDetector.Library MuonDetector.Library.Reader MuonDetector.Library.Fields
open MuonDetector.Utility.HelperFunctions MuonDetector.Ublox.Message MuonDetector.Ublox.Events
open MuonDetector.Ublox.MessageProcessor MuonDetector.Ublox.ProtVersion MuonDetector.Ublox.Serial
open MuonDetector.Ublox.Parser MuonDetector.Ublox.Framing MuonDetector.Ublox.ReadBounds

/-! ## The time pulse -/

theorem tp5Payload_length (tp : UbxTimePulseStruct) : (tp5Payload tp).length = 32 := by
  simp [tp5Payload]

/-- No field of the payload is written over by another. -/
theorem tp5Payload_fields (tp : UbxTimePulseStruct) :
    bytesAt (tp5Payload tp) 0 1 = put .little tp.tpIndex ∧
      bytesAt (tp5Payload tp) 1 1 = put .little (0 : UInt8) ∧
      bytesAt (tp5Payload tp) 4 2 = put .little (convert UInt16 tp.antCableDelay) ∧
      bytesAt (tp5Payload tp) 6 2 = put .little (convert UInt16 tp.rfGroupDelay) ∧
      bytesAt (tp5Payload tp) 8 4 = put .little tp.freqPeriod ∧
      bytesAt (tp5Payload tp) 12 4 = put .little tp.freqPeriodLock ∧
      bytesAt (tp5Payload tp) 16 4 = put .little tp.pulseLenRatio ∧
      bytesAt (tp5Payload tp) 20 4 = put .little tp.pulseLenRatioLock ∧
      bytesAt (tp5Payload tp) 24 4 = put .little (convert UInt32 tp.userConfigDelay) ∧
      bytesAt (tp5Payload tp) 28 4 = put .little tp.flags := by
  refine ⟨?_, ?_, ?_, ?_, ?_, ?_, ?_, ?_, ?_, ?_⟩ <;>
    simp (disch := simp) [tp5Payload, bytesAt_putAt, bytesAt_putAt_of_disjoint]

theorem gives_ubxCfgTP5 (tp : UbxTimePulseStruct) :
    Gives (tp5Payload tp) (ubxCfgTP5 false) { tp with version := 0 } := by
  obtain ⟨h0, h1, h4, h6, h8, h12, h16, h20, h24, h28⟩ := tp5Payload_fields tp
  have hlen := tp5Payload_length tp
  generalize tp5Payload tp = buf at *
  have hin {n : Nat} (hn : n ≤ 32) : n ≤ buf.length := by rwa [hlen]
  have gIndex : Gives buf (get UInt8 false 0) tp.tpIndex := gives_of_put h0 (hin (by decide))
  have gVersion : Gives buf (get UInt8 false 1) 0 := gives_of_put h1 (hin (by decide))
  have gCable : Gives buf (get Int16 false 4) tp.antCableDelay :=
    gives_of_put_convert h4 rfl (hin (by decide))
  have gGroup : Gives buf (get Int16 false 6) tp.rfGroupDelay :=
    gives_of_put_convert h6 rfl (hin (by decide))
  have gPeriod : Gives buf (get UInt32 false 8) tp.freqPeriod :=
    gives_of_put h8 (hin (by decide))
  have gPeriodLock : Gives buf (get UInt32 false 12) tp.freqPeriodLock :=
    gives_of_put h12 (hin (by decide))
  have gRatio : Gives buf (get UInt32 false 16) tp.pulseLenRatio :=
    gives_of_put h16 (hin (by decide))
  have gRatioLock : Gives buf (get UInt32 false 20) tp.pulseLenRatioLock :=
    gives_of_put h20 (hin (by decide))
  have gDelay : Gives buf (get Int32 false 24) tp.userConfigDelay :=
    gives_of_put_convert h24 rfl (hin (by decide))
  have gFlags : Gives buf (get UInt32 false 28) tp.flags := gives_of_put h28 (hin (by decide))
  unfold ubxCfgTP5
  refine gIndex.bind (gVersion.bind (gCable.bind (gGroup.bind (gPeriod.bind ?_))))
  refine gPeriodLock.bind (gRatio.bind (gRatioLock.bind (gDelay.bind (gFlags.bind ?_))))
  exact Gives.pure buf _

/-! ## Message rates -/

/-- The rate that a message rate command sets on the port in use. -/
def echoedRate (cmd : UbxMsgRateCmd) : UInt8 := if cmd.port = 1 then cmd.rate else 0

/-- A port below six has its own byte of the payload. -/
theorem msgRatePayload_fields {cmd : UbxMsgRateCmd} (h : cmd.port ≤ 5) :
    ∃ data, msgRatePayload cmd = .ok data ∧ data.length = 8 ∧
      bytesAt data 0 2 = put .big cmd.id ∧
      bytesAt data 3 1 = put .little (echoedRate cmd) := by
  obtain ⟨id, port, rate⟩ := cmd
  have hport : port = 0 ∨ port = 1 ∨ port = 2 ∨ port = 3 ∨ port = 4 ∨ port = 5 := by
    simp only [UInt8.le_iff_toNat_le, ← UInt8.toNat_inj] at *
    simp at *
    omega
  rw [put_big_uint16, put_uint8]
  rcases hport with rfl | rfl | rfl | rfl | rfl | rfl
  all_goals exact ⟨_, rfl, rfl, rfl, rfl⟩

theorem gives_ubxCfgMSG {cmd : UbxMsgRateCmd} (h : cmd.port ≤ 5) :
    ∃ data, msgRatePayload cmd = .ok data ∧ data.length = 8 ∧
      Gives data (ubxCfgMSG false) ⟨cmd.id, (echoedRate cmd).toNat⟩ := by
  obtain ⟨data, hok, hlen, hid, hrate⟩ := msgRatePayload_fields h
  have gId : Gives data (getEndian UInt16 .big false 0) cmd.id :=
    gives_of_put hid (by rw [hlen]; decide)
  have gRate : Gives data (get UInt8 false 3) (echoedRate cmd) :=
    gives_of_put hrate (by rw [hlen]; decide)
  exact ⟨data, hok, hlen, gId.bind (gRate.bind (Gives.pure data _))⟩

/-! ## GNSS configuration -/

/-- A block with the flags that are sent for the version. -/
def sentConfig (version : UbxProtVersion) (cfg : GnssConfigStruct) : GnssConfigStruct :=
  { cfg with flags := configFlags version cfg }

def configBlock (cfg : GnssConfigStruct) : List UInt8 :=
  [cfg.gnssId, cfg.resTrkCh, cfg.maxTrkCh, 0] ++ put .little cfg.flags

theorem configBlock_length (cfg : GnssConfigStruct) : (configBlock cfg).length = 8 := by
  simp [configBlock]

/-- One turn of the loop writes one block. -/
theorem putConfig_block (version : UbxProtVersion) {pre rest : List UInt8} {i : Nat}
    (hpre : pre.length = 4 + 8 * i) (cfg : GnssConfigStruct) :
    putConfig (some version) (pre ++ (List.replicate 8 0 ++ rest)) i cfg =
      .ok (pre ++ (configBlock (sentConfig version cfg) ++ rest)) := by
  have hoff (k : Nat) : (4 + k) + 8 * i = pre.length + k := by omega
  have hset (k : Nat) (x : UInt8) (buf : List UInt8) :
      (pre ++ buf).set ((4 + k) + 8 * i) x = pre ++ buf.set k x := by
    rw [hoff, set_append]
  rw [configBlock, put_little_uint32, putConfig]
  simp only [hset 0, hset 1, hset 2, hset 4, hset 5, hset 6, hset 7]
  rfl

theorem putConfigs_blocks (version : UbxProtVersion) (configs : List GnssConfigStruct)
    (pre : List UInt8) {i : Nat} (hpre : pre.length = 4 + 8 * i) :
    putConfigs (some version) (pre ++ List.replicate (8 * configs.length) 0) i configs =
      .ok (pre ++ (configs.map fun cfg => configBlock (sentConfig version cfg)).flatten) := by
  induction configs generalizing pre i with
  | nil => rfl
  | cons cfg configs ih =>
    have hzeros : List.replicate (8 * (cfg :: configs).length) (0 : UInt8) =
        List.replicate 8 0 ++ List.replicate (8 * configs.length) 0 := by
      rw [List.replicate_append_replicate, List.length_cons, Nat.mul_succ, Nat.add_comm]
    have hnext : (pre ++ configBlock (sentConfig version cfg)).length = 4 + 8 * (i + 1) := by
      rw [List.length_append, configBlock_length]
      omega
    rw [hzeros, putConfigs, putConfig_block version hpre, ← List.append_assoc]
    refine (ih _ hnext).trans ?_
    rw [List.map_cons, List.flatten_cons, List.append_assoc]

/-- The payload of a list of blocks. -/
def gnssBytes (configs : List GnssConfigStruct) : List UInt8 :=
  [0, 0, 0xff, UInt8.ofNat configs.length] ++ (configs.map configBlock).flatten

theorem gnssPayload_eq (version : UbxProtVersion) (configs : List GnssConfigStruct) :
    gnssPayload (some version) configs = .ok (gnssBytes (configs.map (sentConfig version))) := by
  have hzeros : List.replicate (4 + 8 * configs.length) (0 : UInt8) =
      List.replicate 4 0 ++ List.replicate (8 * configs.length) 0 := by
    rw [List.replicate_append_replicate]
  have hblocks := putConfigs_blocks version configs (i := 0)
    [0, 0, 0xff, UInt8.ofNat configs.length] rfl
  rw [gnssPayload, hzeros, gnssBytes, List.map_map, List.length_map]
  exact hblocks

theorem configBlocks_length (configs : List GnssConfigStruct) :
    ∀ b ∈ configs.map configBlock, b.length = 8 := by
  intro b hb
  obtain ⟨cfg, -, rfl⟩ := List.mem_map.mp hb
  exact configBlock_length cfg

theorem gnssBytes_length (configs : List GnssConfigStruct) :
    (gnssBytes configs).length = 4 + 8 * configs.length := by
  rw [gnssBytes, List.length_append, length_flatten_blocks (configBlocks_length configs),
    List.length_map]
  rfl

theorem bytesAt_gnssBytes {configs : List GnssConfigStruct} {k : Nat} (hk : k < configs.length) :
    bytesAt (gnssBytes configs) (4 + 8 * k) 8 = configBlock configs[k] := by
  have hmap : k < (configs.map configBlock).length := by rwa [List.length_map]
  have hblock := bytesAt_flatten (configBlocks_length configs) hmap
  rw [List.getElem_map] at hblock
  rw [← hblock]
  exact bytesAt_append [0, 0, 0xff, UInt8.ofNat configs.length] _ _ _

theorem bytesAt_configBlock_flags (cfg : GnssConfigStruct) :
    bytesAt (configBlock cfg) 4 4 = put .little cfg.flags := by
  have hlen : (put .little cfg.flags).length = 4 := put_length _ _
  exact (bytesAt_append [cfg.gnssId, cfg.resTrkCh, cfg.maxTrkCh, 0] _ 0 4).trans
    (List.take_of_length_le (Nat.le_of_eq hlen))

theorem gives_gnssBlock {configs : List GnssConfigStruct} {k : Nat} (hk : k < configs.length) :
    Gives (gnssBytes configs) (gnssBlock false k) configs[k] := by
  have hlen := gnssBytes_length configs
  have hblock := bytesAt_gnssBytes hk
  have hfield (off n : Nat) (h : off + n ≤ 8) :
      bytesAt (gnssBytes configs) (8 * k + (4 + off)) n =
        bytesAt (configBlock configs[k]) off n := by
    rw [← hblock, bytesAt_bytesAt h]
    congr 1
    omega
  generalize gnssBytes configs = buf at *
  generalize configs[k] = cfg at *
  have hbyte (off : Nat) (hoff : off < 3) :
      Gives buf (get UInt8 false (8 * k + (4 + off)))
        ([cfg.gnssId, cfg.resTrkCh, cfg.maxTrkCh].getD off 0) := by
    refine gives_of_put ((hfield off 1 (by omega)).trans ?_) (by rw [size_uint8]; omega)
    rw [put_uint8]
    match off, hoff with
    | 0, _ | 1, _ | 2, _ => rfl
  have gFlags : Gives buf (get UInt32 false (8 * k + 8)) cfg.flags := by
    refine gives_of_put ((hfield 4 4 (by decide)).trans ?_) (by rw [size_uint32]; omega)
    exact bytesAt_configBlock_flags cfg
  exact (hbyte 0 (by decide)).bind ((hbyte 1 (by decide)).bind ((hbyte 2 (by decide)).bind
    (gFlags.bind (Gives.pure buf cfg))))

/-- The number of blocks is computed from the size, and it is the number written. -/
theorem gives_ubxCfgGNSS {configs : List GnssConfigStruct} (h : configs.length ≤ 255) :
    Gives (gnssBytes configs) (ubxCfgGNSS false) {
      version := 0
      numTrkChHw := 0
      numTrkChUse := 0xff
      numConfigBlocks := UInt8.ofNat configs.length
      configs := configs } := by
  have hmax : maxLen.toNat = 4096 := rfl
  have hlen := gnssBytes_length configs
  have hheader (k : Nat) (hk : k < 4) :
      Gives (gnssBytes configs) (get UInt8 false k)
        ([0, 0, 0xff, UInt8.ofNat configs.length].getD k 0) := by
    refine gives_of_put ?_ (by rw [size_uint8]; omega)
    rw [put_uint8]
    match k, hk with
    | 0, _ | 1, _ | 2, _ | 3, _ => rfl
  have hcount : Gives (gnssBytes configs) (blockCount 4 8) configs.length := by
    have hheader4 : UInt64.toNat 4 ≤ (gnssBytes configs).length := by
      rw [hlen]
      exact Nat.le_add_right 4 _
    have hblocks := gives_blockCount 4 8 hheader4 (by omega)
    have hdiv : (4 + 8 * configs.length - UInt64.toNat 4) / UInt64.toNat 8 = configs.length := by
      have hfour : UInt64.toNat 4 = 4 := rfl
      have height : UInt64.toNat 8 = 8 := rfl
      rw [hfour, height]
      omega
    rwa [hlen, hdiv] at hblocks
  have hconfigs :
      Gives (gnssBytes configs) (times configs.length fun i => gnssBlock false i) configs :=
    Gives.times fun k hk => gives_gnssBlock hk
  exact (hheader 0 (by decide)).bind ((hheader 1 (by decide)).bind ((hheader 2 (by decide)).bind
    ((hheader 3 (by decide)).bind (hcount.bind (hconfigs.bind (Gives.pure _ _))))))

/-! ## From the command to the event -/

/-- The configuration commands that have a decoder. -/
inductive ConfigCmd where
  | tp5 (tp : UbxTimePulseStruct)
  | gnssConfig (cmd : UbxGnssConfigCmd)
  | msgRate (cmd : UbxMsgRateCmd)
  deriving DecidableEq, Repr

def handle (signedChar : Bool) (s : SerialUblox) : ConfigCmd → Except Fault SerialUblox
  | .tp5 tp => .ok (handleTp5 signedChar s tp)
  | .gnssConfig cmd => handleGnssConfig signedChar s cmd
  | .msgRate cmd => handleMsgRate signedChar s cmd

/-- The flags that a receiver of this version is expected to report. -/
def echoedFlags (version : UbxProtVersion) (cfg : GnssConfigStruct) : UInt32 :=
  if version.major < 15 then cfg.flags
  else if cfg.gnssId = 5 then cfg.flags ||| 0x00010000 ||| 0x00040000
  else cfg.flags ||| 0x00010000

/-- The event in which the configuration of a command comes back, for the commands that
can be sent in the state `s`. -/
inductive Echo (s : SerialUblox) : ConfigCmd → UbxEvent → Prop where
  | tp5 (tp : UbxTimePulseStruct) : Echo s (.tp5 tp) (.cfgTP5 { tp with version := 0 })
  | gnssConfig (configs : List GnssConfigStruct) (gps : GpsVersion) (version : UbxProtVersion)
      (hstored : s.protocolVersion = some gps) (hparsed : getProtVersion gps.prot = some version)
      (hlen : configs.length ≤ 255) :
      Echo s (.gnssConfig ⟨configs⟩) (.cfgGNSS {
        version := 0
        numTrkChHw := 0
        numTrkChUse := 0xff
        numConfigBlocks := UInt8.ofNat configs.length
        configs := configs.map fun cfg => { cfg with flags := echoedFlags version cfg } })
  | msgRate (cmd : UbxMsgRateCmd) (hport : cmd.port ≤ 5) :
      Echo s (.msgRate cmd) (.cfgMsg ⟨cmd.id, if cmd.port = 1 then cmd.rate.toNat else 0⟩)

theorem sentConfig_eq (version : UbxProtVersion) (cfg : GnssConfigStruct) :
    sentConfig version cfg = { cfg with flags := echoedFlags version cfg } := by
  have hflags : configFlags version cfg = echoedFlags version cfg := by
    by_cases h : version.major < 15
    · have hlow : ¬ version.major ≥ 15 := UInt32.not_le.mpr h
      rw [configFlags, echoedFlags, if_neg hlow, if_pos h]
    · have hhigh : version.major ≥ 15 := UInt32.not_lt.mp h
      rw [configFlags, echoedFlags, if_pos hhigh, if_neg h]
      rfl
  rw [sentConfig, hflags]

/-- Outside the handshake a message is posted exactly when the connection is ready. -/
theorem enqueueMessage_posted (c : Bool) (s : SerialUblox) {id : UInt16} (payload : List UInt8)
    (hprt : id ≠ MsgId.cfgPrt) (hrate : id ≠ MsgId.cfgRate) :
    (enqueueMessage c s ⟨id, payload⟩).posted =
      s.posted ++ if s.initState = .ready then [rawMessageString c ⟨id, payload⟩] else [] := by
  unfold enqueueMessage isAllowed
  by_cases hready : s.initState = .ready
  · simp [hready, send]
  · simp [hready, hprt, hrate, retryLater]

/-- The message that a command makes, and its event. -/
theorem handle_message {s : SerialUblox} {cmd : ConfigCmd} {event : UbxEvent}
    (h : Echo s cmd event) :
    ∃ msg s', handle false s cmd = .ok s' ∧
      s'.posted = s.posted ++ (if s.initState = .ready then [rawMessageString false msg] else []) ∧
      msg.payload.length ≤ maxLen.toNat ∧
      ∀ ps, Gives msg.payload (decode false ps msg.fullId) (some event, ps) := by
  cases h with
  | tp5 tp =>
    refine ⟨⟨MsgId.cfgTP5, tp5Payload tp⟩, _, rfl, ?_, ?_, fun ps => ?_⟩
    · exact enqueueMessage_posted false s _ (by decide) (by decide)
    · rw [tp5Payload_length]
      decide
    · exact gives_stateless .cfgTP5 rfl (gives_ubxCfgTP5 tp)
  | gnssConfig configs gps version hstored hparsed hlen =>
    have hmap : (configs.map fun cfg => { cfg with flags := echoedFlags version cfg }) =
        configs.map (sentConfig version) :=
      List.map_congr_left fun cfg _ => (sentConfig_eq version cfg).symm
    have hcount : (configs.map (sentConfig version)).length = configs.length := List.length_map _
    have hsmall : (configs.map (sentConfig version)).length ≤ 255 := by rwa [hcount]
    have hmax : maxLen.toNat = 4096 := rfl
    rw [hmap, ← hcount]
    let msg : UbxMessage := ⟨MsgId.cfgGNSS, gnssBytes (configs.map (sentConfig version))⟩
    have hok : handle false s (.gnssConfig ⟨configs⟩) =
        .ok (publish (enqueueMessage false s msg) (.msgPoll MsgId.cfgGNSS)) := by
      simp only [handle, handleGnssConfig, hstored, hparsed, gnssPayload_eq]
      rfl
    refine ⟨msg, _, hok, ?_, ?_, fun ps => ?_⟩
    · exact enqueueMessage_posted false s _ (by decide) (by decide)
    · rw [gnssBytes_length]
      omega
    · exact gives_stateless .cfgGNSS rfl (gives_ubxCfgGNSS hsmall)
  | msgRate cmd hport =>
    obtain ⟨data, hdata, hlen, hgives⟩ := gives_ubxCfgMSG hport
    have hrate : (if cmd.port = 1 then (cmd.rate.toNat : Int) else 0) = (echoedRate cmd).toNat := by
      unfold echoedRate
      split <;> rfl
    rw [hrate]
    have hok : handle false s (.msgRate cmd) =
        .ok (publish (enqueueMessage false s ⟨MsgId.cfgMsg, data⟩) (.msgPollRate cmd.id)) := by
      simp only [handle, handleMsgRate, hdata]
      rfl
    refine ⟨⟨MsgId.cfgMsg, data⟩, _, hok, ?_, ?_, fun ps => ?_⟩
    · exact enqueueMessage_posted false s _ (by decide) (by decide)
    · rw [hlen]
      decide
    · exact gives_stateless .cfgMsg rfl hgives

/-- **A configuration command comes back as its event**: what its handler posts, read
by any parser between two messages, in any cuts, is decoded to the values of the
command. -/
theorem config_command_echoed (s : SerialUblox) (cmd : ConfigCmd) (event : UbxEvent)
    (h : Echo s cmd event) :
    ∃ raw s', handle false s cmd = .ok s' ∧
      s'.posted = s.posted ++ (if s.initState = .ready then [raw] else []) ∧
      ∀ (r : Receiver) (chunks : List (List UInt8)), AtSync r.parser → chunks.flatten = raw →
        ∃ q, onReads false r chunks = some ([event], { r with parser := q }) ∧
          q.state = .sync1 := by
  obtain ⟨msg, s', hok, hposted, hlen, hdecode⟩ := handle_message h
  refine ⟨rawMessageString false msg, s', hok, hposted, fun r chunks hsync hcut => ?_⟩
  have hstream : rawStream false [msg] = rawMessageString false msg := List.append_nil _
  obtain ⟨q, hfeed, hq⟩ := feed_rawStream_of_atSync false (List.cons_ne_nil msg [])
    (List.forall_mem_singleton.mpr hlen) hsync
  rw [hstream] at hfeed
  refine ⟨q, ?_, hq⟩
  have hmsg : processMessages false r.processor [msg] = some ([event], r.processor) := by
    have hgives : (processMessage false r.processor msg).1 = some (some event, r.processor) :=
      hdecode r.processor
    simp [processMessages, hgives]
  rw [onReads_eq, hcut, onRead, hfeed]
  simp [hmsg]

/-- One QZSS block, sent by a ready connection that knows the version `18.00`. -/
theorem config_command_echoed_qzss :
    ∃ raw s', handle false
        { initState := .ready, protocolVersion := some { prot := [0x31, 0x38, 0x2e, 0x30, 0x30] } }
        (.gnssConfig ⟨[⟨5, 0, 3, 0x00000001⟩]⟩) = .ok s' ∧ s'.posted = [raw] ∧
      ∃ q, onReads false {} [raw] = some ([.cfgGNSS {
        version := 0
        numTrkChHw := 0
        numTrkChUse := 0xff
        numConfigBlocks := 1
        configs := [⟨5, 0, 3, 0x00050001⟩] }], { parser := q }) := by
  obtain ⟨raw, s', hok, hposted, hread⟩ := config_command_echoed
    { initState := .ready, protocolVersion := some { prot := [0x31, 0x38, 0x2e, 0x30, 0x30] } }
    (.gnssConfig ⟨[⟨5, 0, 3, 0x00000001⟩]⟩) _
    (Echo.gnssConfig _ { prot := [0x31, 0x38, 0x2e, 0x30, 0x30] } ⟨18, 0⟩ rfl (by decide)
      (by decide))
  obtain ⟨q, hq, -⟩ := hread {} [raw] (Or.inl rfl) (List.append_nil raw)
  exact ⟨raw, s', hok, hposted, q, hq⟩

end MuonDetector.Ublox.ConfigAgreement
