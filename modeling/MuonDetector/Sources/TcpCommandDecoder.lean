import MuonDetector.Capnp.CommandCodecs
import MuonDetector.Capnp.GnssCodecs
import MuonDetector.Network.Delivery

/-!
# Commands on their way to the bus

The GUI encodes a command and sends it in a packet with the key of its codec. The decoder
of the daemon tells from the key of a received packet which type to decode and publishes
the value. Both tables are written by hand, so a command arrives only when they agree and
its message holds all of it.
-/

namespace MuonDetector.Sources.TcpCommandDecoder

open MuonDetector.Capnp.CommandCodecs MuonDetector.Capnp.EventCodecs MuonDetector.Capnp.GnssCodecs
open MuonDetector.Library.Messages
open MuonDetector.Network.Connection MuonDetector.Network.Delivery MuonDetector.Network.Frame
open MuonDetector.Network.MessageKeys
open MuonDetector.Ublox.Commands (UbxMsgPollCmd UbxResetCmd UbxSaveCmd UbxSetAopCmd)
open MuonDetector.Ublox.Events (UbxTimePulseStruct)
open MuonDetector.Ublox.Serial (UbxGnssConfigCmd UbxMsgRateCmd)

/-! ## Commands and events -/

/-- The commands that have a codec. -/
inductive Command where
  | empty (cmd : EmptyCmd)
  | startBurst (cmd : StartBurstSampling)
  | gainSwitch (cmd : GainSwitchCmd)
  | thresholdSetting (cmd : ThresholdSettingCmd)
  | pcaSwitch (cmd : PcaSwitchCmd)
  | ubxMsgPoll (cmd : UbxMsgPollCmd)
  | ubxMsgRate (cmd : UbxMsgRateCmd)
  | ubxGnssConfig (cmd : UbxGnssConfigCmd)
  | ubxRate (cmd : UbxRateCmd)
  | ubxReset (cmd : UbxResetCmd)
  | ubxSave (cmd : UbxSaveCmd)
  | ubxSetAop (cmd : UbxSetAopCmd)
  | mqttInhibit (cmd : MqttInhibitCmd)
  | polaritySwitch (cmd : PolaritySwitchCmd)
  | biasVoltage (cmd : BiasVoltageCmd)
  | biasSwitch (cmd : BiasSwitchCmd)
  | preampSwitch (cmd : PreampSwitchCmd)
  | adcSampleTrigger (cmd : AdcSampleTriggerCmd)
  | histogramClear (cmd : HistogramClearCmd)
  | gpioRateRequest (cmd : GpioRateRequestCmd)
  | eventTrigger (cmd : EventTriggerCmd)
  deriving DecidableEq, Repr

structure AdcModeEvent where
  mode : UInt8 := 0
  deriving DecidableEq, Repr

structure AdcModeEventCapnp where
  mode : UInt8 := 0
  deriving DecidableEq, Repr, Countable

instance : Message AdcModeEventCapnp where

def adcModeEvent : CapnpCodec AdcModeEvent where
  Root := AdcModeEventCapnp
  messageKey := TcpMsgKey.adcMode.number
  toRoot event := { mode := event.mode }
  ofRoot root := some { mode := root.mode }

structure GpioInhibitEvent where
  inhibit : Bool := false
  deriving DecidableEq, Repr

structure GpioInhibitEventCapnp where
  inhibit : Bool := false
  deriving DecidableEq, Repr, Countable

instance : Message GpioInhibitEventCapnp where

def gpioInhibitEvent : CapnpCodec GpioInhibitEvent where
  Root := GpioInhibitEventCapnp
  messageKey := TcpMsgKey.gpioInhibit.number
  toRoot event := { inhibit := event.inhibit }
  ofRoot root := some { inhibit := root.inhibit }

/-- What the decoder publishes: commands, and events that are taken for commands. -/
inductive BusEvent where
  | command (cmd : Command)
  | ubxTp5 (tp5 : UbxTimePulseStruct)
  | positionMode (config : PositionModeConfig)
  | adcMode (event : AdcModeEvent)
  | gpioInhibit (event : GpioInhibitEvent)
  deriving DecidableEq, Repr

/-! ## The sender -/

/-- A command as a value of its type, with the codec of the type and the command that each
other value of it is. -/
structure Coded where
  Value : Type
  codec : CapnpCodec Value
  ofValue : Value → Command
  value : Value

def Command.coded : Command → Coded
  | .empty cmd => ⟨_, emptyCmdCodec cmd, fun _ => .empty cmd, ()⟩
  | .startBurst cmd => ⟨_, startBurstSampling, .startBurst, cmd⟩
  | .gainSwitch cmd => ⟨_, gainSwitchCmd, .gainSwitch, cmd⟩
  | .thresholdSetting cmd => ⟨_, thresholdSettingCmd, .thresholdSetting, cmd⟩
  | .pcaSwitch cmd => ⟨_, pcaSwitchCmd, .pcaSwitch, cmd⟩
  | .ubxMsgPoll cmd => ⟨_, ubxMsgPollCmd, .ubxMsgPoll, cmd⟩
  | .ubxMsgRate cmd => ⟨_, ubxMsgRateCmd, .ubxMsgRate, cmd⟩
  | .ubxGnssConfig cmd => ⟨_, ubxGnssConfigCmd, .ubxGnssConfig, cmd⟩
  | .ubxRate cmd => ⟨_, ubxRateCmd, .ubxRate, cmd⟩
  | .ubxReset cmd => ⟨_, ubxResetCmd, .ubxReset, cmd⟩
  | .ubxSave cmd => ⟨_, ubxSaveCmd, .ubxSave, cmd⟩
  | .ubxSetAop cmd => ⟨_, ubxSetAopCmd, .ubxSetAop, cmd⟩
  | .mqttInhibit cmd => ⟨_, mqttInhibitCmd, .mqttInhibit, cmd⟩
  | .polaritySwitch cmd => ⟨_, polaritySwitchCmd, .polaritySwitch, cmd⟩
  | .biasVoltage cmd => ⟨_, biasVoltageCmd, .biasVoltage, cmd⟩
  | .biasSwitch cmd => ⟨_, biasSwitchCmd, .biasSwitch, cmd⟩
  | .preampSwitch cmd => ⟨_, preampSwitchCmd, .preampSwitch, cmd⟩
  | .adcSampleTrigger cmd => ⟨_, adcSampleTriggerCmd, .adcSampleTrigger, cmd⟩
  | .histogramClear cmd => ⟨_, histogramClearCmd, .histogramClear, cmd⟩
  | .gpioRateRequest cmd => ⟨_, gpioRateRequestCmd, .gpioRateRequest, cmd⟩
  | .eventTrigger cmd => ⟨_, eventTriggerCmd, .eventTrigger, cmd⟩

theorem Command.ofValue_value (cmd : Command) : cmd.coded.ofValue cmd.coded.value = cmd := by
  cases cmd <;> rfl

theorem Command.ofValue_injective (cmd : Command) : Function.Injective cmd.coded.ofValue := by
  intro v w h
  cases cmd <;> first | rfl | (cases h; rfl)

/-- The packet that a command is sent in. -/
def Command.packet (lib : Serializer) (cmd : Command) : TcpPacket :=
  ⟨cmd.coded.codec.messageKey, cmd.coded.codec.encode lib cmd.coded.value⟩

def Command.frame (lib : Serializer) (cmd : Command) : List UInt8 :=
  buildFrame (cmd.packet lib).key (cmd.packet lib).payload

/-- Whether the main window of the GUI sends commands of the type. -/
def Command.sentByGui : Command → Bool
  | .empty .spiStatsRequest => false
  | .empty .dacSettingRequest => false
  | .empty .eventTriggerRequest => false
  | .ubxMsgPoll _ => false
  | .ubxRate _ => false
  | .ubxSetAop _ => false
  | .polaritySwitch _ => false
  | _ => true

/-! ## The decoder -/

/-- A payload that cannot be decoded is logged, and nothing is published. -/
def publishDecoded {T : Type} (lib : Serializer) (packet : TcpPacket) (codec : CapnpCodec T)
    (event : T → BusEvent) : List BusEvent :=
  ((codec.decode lib packet.payload).map event).toList

def handle (lib : Serializer) (packet : TcpPacket) : List BusEvent :=
  let publish {T : Type} (codec : CapnpCodec T) (event : T → BusEvent) :=
    publishDecoded lib packet codec event
  let publishEmpty (cmd : EmptyCmd) := publish (emptyCmdCodec cmd) fun _ => .command (.empty cmd)
  match TcpMsgKey.ofNumber packet.key with
  | some .ubxCfgTp5 => publish ubxTimePulse .ubxTp5
  | some .ubxGnssConfig => publish ubxGnssConfigCmd fun cmd => .command (.ubxGnssConfig cmd)
  | some .ubxMsgRate => publish ubxMsgRateCmd fun cmd => .command (.ubxMsgRate cmd)
  | some .ubxMsgPoll => publish ubxMsgPollCmd fun cmd => .command (.ubxMsgPoll cmd)
  | some .ubxMsgRateRequest => publishEmpty .ubxMsgRateRequest
  | some .ubxReset => publish ubxResetCmd fun cmd => .command (.ubxReset cmd)
  | some .ubxCfgSave => publish ubxSaveCmd fun cmd => .command (.ubxSave cmd)
  | some .ubxConfigDefault => publishEmpty .ubxConfigDefault
  | some .rateScan => publish startBurstSampling fun cmd => .command (.startBurst cmd)
  | some .mqttInhibit => publish mqttInhibitCmd fun cmd => .command (.mqttInhibit cmd)
  | some .gpioInhibit => publish gpioInhibitEvent .gpioInhibit
  | some .gpioRateReset => publishEmpty .gpioRateReset
  | some .i2cStatsRequest => publishEmpty .i2cStatsRequest
  | some .i2cScanBus => publishEmpty .i2cScanBus
  | some .calibRequest => publishEmpty .calibRequest
  | some .calibSave => publishEmpty .calibSave
  | some .preampSwitch => publish preampSwitchCmd fun cmd => .command (.preampSwitch cmd)
  | some .preampSwitchRequest => publishEmpty .preampSwitchRequest
  | some .gainSwitch => publish gainSwitchCmd fun cmd => .command (.gainSwitch cmd)
  | some .gainSwitchRequest => publishEmpty .gainSwitchRequest
  | some .threshold => publish thresholdSettingCmd fun cmd => .command (.thresholdSetting cmd)
  | some .thresholdRequest => publishEmpty .thresholdSettingRequest
  | some .pcaSwitch => publish pcaSwitchCmd fun cmd => .command (.pcaSwitch cmd)
  | some .adcModeRequest => publishEmpty .adcModeRequest
  | some .adcMode => publish adcModeEvent .adcMode
  | some .polaritySwitch => publish polaritySwitchCmd fun cmd => .command (.polaritySwitch cmd)
  | some .polaritySwitchRequest => publishEmpty .polaritySwitchRequest
  | some .biasVoltage => publish biasVoltageCmd fun cmd => .command (.biasVoltage cmd)
  | some .biasVoltageRequest => publishEmpty .biasVoltageRequest
  | some .biasSwitch => publish biasSwitchCmd fun cmd => .command (.biasSwitch cmd)
  | some .biasSwitchRequest => publishEmpty .biasSwitchRequest
  | some .dacRequest => publishEmpty .dacSettingRequest
  | some .dacEepromSet => publishEmpty .dacEepromSet
  | some .adcSampleRequest => publish adcSampleTriggerCmd fun cmd => .command (.adcSampleTrigger cmd)
  | some .temperatureRequest => publishEmpty .temperatureRequest
  | some .histogramClear => publish histogramClearCmd fun cmd => .command (.histogramClear cmd)
  | some .histogramRequest => publishEmpty .histogramRequest
  | some .gpioRateRequest => publish gpioRateRequestCmd fun cmd => .command (.gpioRateRequest cmd)
  | some .positionModel => publish positionModeConfig .positionMode
  | some .eventtriggerRequest => publishEmpty .eventTriggerRequest
  | some .eventtrigger => publish eventTriggerCmd fun cmd => .command (.eventTrigger cmd)
  | _ => []

/-- What the decoder publishes for the packets that a connection has received. -/
def published (lib : Serializer) (c : TcpConnection) : List BusEvent :=
  (deliveries c.calls).flatMap (handle lib)

/-! ## One packet -/

/-- The decoder has a case for the key of the type, and the message holds all of the value. -/
def Command.Carried : Command → Prop
  | .empty .pcaSwitchRequest => False
  | .empty .spiStatsRequest => False
  | .empty .dacSettingRequest => False
  | .ubxRate _ => False
  | .ubxSetAop _ => False
  | .startBurst cmd => cmd.frequencyHz.toNat < 2 ^ 32 ∧ cmd.samples.toNat < 2 ^ 32
  | .preampSwitch cmd => cmd.state = false
  | .histogramClear cmd => 0 ∉ cmd.histogramName
  | _ => True

/-- Where the case for the key of a command decodes with the codec of the command, the
command is published when its codec gives it back. -/
theorem handle_iff_roundTrips {lib : Serializer} {cmd : Command}
    (hcase : ∀ payload, handle lib ⟨cmd.coded.codec.messageKey, payload⟩ =
      publishDecoded lib ⟨cmd.coded.codec.messageKey, payload⟩ cmd.coded.codec
        fun value => .command (cmd.coded.ofValue value)) :
    handle lib (cmd.packet lib) = [.command cmd] ↔
      cmd.coded.codec.RoundTrips lib cmd.coded.value := by
  rw [Command.packet, hcase, publishDecoded, Codec.RoundTrips]
  cases cmd.coded.codec.decode lib (cmd.coded.codec.encode lib cmd.coded.value) with
  | none => simp
  | some value =>
    rw [Option.map_some, Option.toList_some, List.singleton_inj, BusEvent.command.injEq,
      Option.some.injEq]
    constructor
    · intro h
      exact cmd.ofValue_injective (h.trans cmd.ofValue_value.symm)
    · rintro rfl
      exact cmd.ofValue_value

/-- Of a request of converter settings the decoder makes at most a request of thresholds,
whose key it has. -/
theorem handle_dacSettingRequest (lib : Serializer) :
    handle lib (Command.packet lib (.empty .dacSettingRequest)) ≠
      [.command (.empty .dacSettingRequest)] := by
  intro h
  have hcase : handle lib (Command.packet lib (.empty .dacSettingRequest)) =
      publishDecoded lib (Command.packet lib (.empty .dacSettingRequest))
        (emptyCmdCodec .thresholdSettingRequest)
        fun _ => .command (.empty .thresholdSettingRequest) := rfl
  rw [hcase, publishDecoded, Option.toList_eq_singleton_iff] at h
  obtain ⟨_, -, heq⟩ := Option.map_eq_some_iff.mp h
  cases heq

theorem handle_empty (lib : Serializer) (cmd : EmptyCmd) :
    handle lib (Command.packet lib (.empty cmd)) = [.command (.empty cmd)] ↔
      Command.Carried (.empty cmd) := by
  cases cmd with
  | pcaSwitchRequest => exact iff_of_false (List.cons_ne_nil _ _).symm id
  | spiStatsRequest => exact iff_of_false (List.cons_ne_nil _ _).symm id
  | dacSettingRequest => exact iff_of_false (handle_dacSettingRequest lib) id
  | _ =>
    apply (handle_iff_roundTrips fun _ => rfl).trans
    exact iff_of_true ((Codec.roundTrips_iff _).mpr rfl) trivial

/-- **One packet.** The decoder publishes the command that a packet was made of, and nothing
else, exactly when the command is carried. -/
theorem handle_packet (lib : Serializer) (cmd : Command) :
    handle lib (cmd.packet lib) = [.command cmd] ↔ cmd.Carried := by
  cases cmd with
  | empty cmd => exact handle_empty lib cmd
  | ubxRate cmd => exact iff_of_false (List.cons_ne_nil _ _).symm id
  | ubxSetAop cmd => exact iff_of_false (List.cons_ne_nil _ _).symm id
  | startBurst cmd =>
    exact (handle_iff_roundTrips fun _ => rfl).trans startBurstSampling_roundTrips
  | preampSwitch cmd =>
    exact (handle_iff_roundTrips fun _ => rfl).trans preampSwitchCmd_roundTrips
  | histogramClear cmd =>
    exact (handle_iff_roundTrips fun _ => rfl).trans histogramClearCmd_roundTrips
  | ubxGnssConfig cmd =>
    apply (handle_iff_roundTrips fun _ => rfl).trans
    exact iff_of_true (ubxGnssConfigCmd_roundTrips cmd) trivial
  | _ =>
    apply (handle_iff_roundTrips fun _ => rfl).trans
    exact iff_of_true ((Codec.roundTrips_iff _).mpr rfl) trivial

/-! ## The whole way -/

/-- The message of the command, in the words that the library takes for it, is within the
limit of a frame. -/
def Command.Fits (lib : Serializer) (cmd : Command) : Prop :=
  wordSize * cmd.coded.codec.sizeInWords lib cmd.coded.value ≤ kMaxPayloadSize

theorem Command.fits_iff {lib : Serializer} {cmd : Command} :
    cmd.Fits lib ↔ (cmd.packet lib).payload.length ≤ kMaxPayloadSize := by
  rw [Command.Fits, Command.packet, Codec.encode_length]

/-- **Commands in a row.** However their frames are cut, the decoder handles the packet of
each once and in order. -/
theorem published_sent (lib : Serializer) (now : Nat) {cmds : List Command}
    (hfits : ∀ cmd ∈ cmds, cmd.Fits lib) {ks : List Chunk}
    (hcut : wire ks = (cmds.map (Command.frame lib)).flatten) :
    published lib (receiveAll (fresh now) ks) =
      cmds.flatMap fun cmd => handle lib (cmd.packet lib) := by
  have hpackets : ∀ p ∈ cmds.map (Command.packet lib), p.payload.length ≤ kMaxPayloadSize := by
    intro p hp
    obtain ⟨cmd, hmem, rfl⟩ := List.mem_map.mp hp
    exact Command.fits_iff.mp (hfits cmd hmem)
  have hframes : frames (cmds.map (Command.packet lib)) = cmds.map (Command.frame lib) := by
    rw [frames, List.map_map]
    rfl
  have hcalls := (tracks_sent now hpackets (by rw [hcut, hframes])).calls_packets rfl
  rw [published, hcalls, deliveries_packets, List.flatMap_map]

/-- A command has arrived when the peer makes of its frame, however it is cut, the packet it
was sent in, and when exactly one event is published, the command with its value. -/
structure Transported (lib : Serializer) (cmd : Command) : Prop where
  received : Delivers (cmd.frame lib) (cmd.packet lib)
  published : ∀ (now : Nat) (ks : List Chunk), wire ks = cmd.frame lib →
    published lib (receiveAll (fresh now) ks) = [.command cmd]

theorem transported_of_fits {lib : Serializer} {cmd : Command} (hfits : cmd.Fits lib)
    (hcarried : cmd.Carried) : Transported lib cmd where
  received := delivers_buildFrame _ (Command.fits_iff.mp hfits)
  published := by
    intro now ks hcut
    have hone : ∀ c ∈ [cmd], c.Fits lib := by simpa using hfits
    rw [published_sent lib now hone (by simpa using hcut), List.flatMap_singleton,
      (handle_packet lib cmd).mpr hcarried]

theorem Transported.fits {lib : Serializer} {cmd : Command} (h : Transported lib cmd) :
    cmd.Fits lib := by
  have hcalls := h.received 0 [⟨0, cmd.frame lib⟩] (by simp [wire])
  apply Command.fits_iff.mpr
  apply delivered_bound
  rw [hcalls]
  exact List.mem_singleton.mpr rfl

theorem Transported.carried {lib : Serializer} {cmd : Command} (h : Transported lib cmd) :
    cmd.Carried := by
  have hpublished := h.published 0 [⟨0, cmd.frame lib⟩] (by simp [wire])
  have hone : ∀ c ∈ [cmd], c.Fits lib := by simpa using h.fits
  rw [published_sent lib 0 hone (by simp [wire]), List.flatMap_singleton] at hpublished
  exact (handle_packet lib cmd).mp hpublished

/-- **Which commands arrive.** For every command that has a codec, whether the GUI sends it
or not: its message is within the limit of a frame, the decoder has a case for its key and
the message holds all of its value. -/
theorem command_transported_iff (lib : Serializer) (cmd : Command) :
    Transported lib cmd ↔ cmd.Fits lib ∧ cmd.Carried := by
  constructor
  · intro h
    exact ⟨h.fits, h.carried⟩
  · rintro ⟨hfits, hcarried⟩
    exact transported_of_fits hfits hcarried

/-- The GUI can switch no preamplifier on, and its request for the input switch is never
published. -/
theorem preampSwitch_on_lost :
    (Command.sentByGui (.preampSwitch ⟨0, true⟩) = true ∧
      ¬∃ lib : Serializer, Transported lib (.preampSwitch ⟨0, true⟩)) ∧
    Command.sentByGui (.empty .pcaSwitchRequest) = true ∧
      ¬∃ lib : Serializer, Transported lib (.empty .pcaSwitchRequest) := by
  constructor
  · constructor
    · rfl
    · rintro ⟨lib, h⟩
      have hstate : true = false := h.carried
      cases hstate
  · constructor
    · rfl
    · rintro ⟨lib, h⟩
      exact h.carried

end MuonDetector.Sources.TcpCommandDecoder
