import MuonDetector.Gui.Decoder
import MuonDetector.Network.Broadcast

/-!
# What the main windows show of the events of the bus

The sink sends each event it is subscribed to to all clients. Every window receives the
events that were handled while its connection was in the sink, beside the pings, and emits
for each what the event is to make it emit.
-/

namespace MuonDetector.Gui.EventStream

open MuonDetector.Library
open MuonDetector.Capnp.EventCodecs MuonDetector.Gui.Decoder MuonDetector.Library.Messages
open MuonDetector.Network.Broadcast MuonDetector.Network.Frame
open MuonDetector.Network.Channel (Fits Link Side received)
open MuonDetector.Network.Server (ConnectionId msgPing)

variable {w : Window}

/-- What the window of a client shows of the events `evs`. -/
structure Shows (w : Window) (h : Hub) (k : ConnectionId) (remote : Remote) (l : Link)
    (evs : List SinkEvent) : Prop where
  /-- They are the events handled while the client was in the sink. -/
  handled : calledFor k h = evs.map (SinkEvent.packet w)
  /-- The window has emitted the signals of the first of them, in order. -/
  inOrder : Fits .daemon remote.history → ∃ front, front <+: evs ∧
    (events (received l .gui)).mapM (decode w) = some (front.map (SinkEvent.signals w))
  /-- In the end it has emitted those of all. -/
  complete : Settled h k remote l →
    (events (received l .gui)).mapM (decode w) = some (evs.map (SinkEvent.signals w))

end MuonDetector.Gui.EventStream
