import MuonDetector.Network.Channel
import MuonDetector.Sources.TcpCommandDecoder

/-!
# What the GUI sends over a connection

The main window sends commands, answers a ping with a pong and sends some values in the
message of an event. The connection carries them over every interleaving of its sends,
writes and reads, and the decoder makes of each what its key says.
-/

namespace MuonDetector.Sources.CommandStream

open MuonDetector.Capnp.CommandCodecs MuonDetector.Capnp.EventCodecs MuonDetector.Capnp.GnssCodecs
open MuonDetector.Library.Messages
open MuonDetector.Network.Channel MuonDetector.Network.Connection
open MuonDetector.Network.Frame MuonDetector.Network.MessageKeys
open MuonDetector.Sources.TcpCommandDecoder
open MuonDetector.Ublox.Events (UbxTimePulseStruct)

/-- What the main window sends. -/
inductive GuiMessage where
  | command (cmd : Command)
  | pong (payload : List UInt8)
  | ubxTp5 (tp5 : UbxTimePulseStruct)
  | positionMode (config : PositionModeConfig)
  | adcMode (event : AdcModeEvent)
  | gpioInhibit (event : GpioInhibitEvent)
  | calibSet (event : CalibEvent)

namespace GuiMessage

/-- The packet that a message is sent in. A pong has the payload of the ping. -/
def packet (lib : Serializer) : GuiMessage → TcpPacket
  | .command cmd => cmd.packet lib
  | .pong payload => ⟨TcpMsgKey.pong.number, payload⟩
  | .ubxTp5 tp5 => ⟨ubxTimePulse.messageKey, ubxTimePulse.encode lib tp5⟩
  | .positionMode config => ⟨positionModeConfig.messageKey, positionModeConfig.encode lib config⟩
  | .adcMode event => ⟨adcModeEvent.messageKey, adcModeEvent.encode lib event⟩
  | .gpioInhibit event => ⟨gpioInhibitEvent.messageKey, gpioInhibitEvent.encode lib event⟩
  | .calibSet event => ⟨calibEvent.messageKey, calibEvent.encode lib event⟩

/-- What becomes of a message on the bus. The decoder has no case for a pong, and none for
the calibration that the GUI sets. -/
def busEvent : GuiMessage → Option BusEvent
  | .command cmd => some (.command cmd)
  | .pong _ => none
  | .ubxTp5 tp5 => some (.ubxTp5 tp5)
  | .positionMode config => some (.positionMode config)
  | .adcMode event => some (.adcMode event)
  | .gpioInhibit event => some (.gpioInhibit event)
  | .calibSet _ => none

/-- The message holds all that its bus event needs. -/
def Carried : GuiMessage → Prop
  | .command cmd => cmd.Carried
  | _ => True

def Fits (lib : Serializer) (message : GuiMessage) : Prop :=
  (message.packet lib).payload.length ≤ kMaxPayloadSize

theorem handle_decoded {lib : Serializer} {T : Type} (codec : CapnpCodec T) (event : T → BusEvent)
    (value : T) (hround : codec.RoundTrips lib value) (key : UInt16) :
    publishDecoded lib ⟨key, codec.encode lib value⟩ codec event = [event value] := by
  rw [publishDecoded, show codec.decode lib (codec.encode lib value) = some value from hround]
  rfl

/-- The decoder makes of a packet what becomes of its message on the bus. -/
theorem handle_packet (lib : Serializer) (message : GuiMessage) (hcarried : message.Carried) :
    handle lib (message.packet lib) = message.busEvent.toList := by
  cases message with
  | command cmd => exact (TcpCommandDecoder.handle_packet lib cmd).mpr hcarried
  | pong payload => rfl
  | ubxTp5 tp5 =>
    exact handle_decoded ubxTimePulse .ubxTp5 tp5 ((Codec.roundTrips_iff _).mpr rfl) _
  | positionMode config =>
    exact handle_decoded positionModeConfig .positionMode config
      (positionModeConfig_roundTrips config) _
  | adcMode event =>
    exact handle_decoded adcModeEvent .adcMode event ((Codec.roundTrips_iff _).mpr rfl) _
  | gpioInhibit event =>
    exact handle_decoded gpioInhibitEvent .gpioInhibit event ((Codec.roundTrips_iff _).mpr rfl) _
  | calibSet event => rfl

end GuiMessage

/-- What the daemon has published of the GUI's messages after the actions `as`. -/
structure Published (lib : Serializer) (messages : List GuiMessage) (as : List Action)
    (ch : Link) : Prop where
  /-- The front of the bus events of the messages, in order. -/
  inOrder : published lib (ch .daemon).connection <+: messages.filterMap GuiMessage.busEvent
  /-- All of them, where nothing has failed and the transport has come to an end. -/
  complete : (∀ a ∈ as, ¬ IsFault a) → Fits .daemon as →
    ∀ bs ch', (∀ a ∈ bs, IsTransport a) → run ch bs = some ch' → Quiescent ch' →
      published lib (ch' .daemon).connection = messages.filterMap GuiMessage.busEvent

end MuonDetector.Sources.CommandStream
