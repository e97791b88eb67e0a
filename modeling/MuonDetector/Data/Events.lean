import MuonDetector.Library.Messages

/-!
# Events

The events that more than one part of the daemon looks into. Drivers and the data store publish
them, the codecs send them.
-/

namespace MuonDetector.Data.Events

open MuonDetector.Library.Messages

structure PreampSwitchEvent where
  channel : UInt8 := 0
  state : Bool := false
  deriving DecidableEq, Repr

structure ADS1115Event where
  deviceId : UInt32
  channel : UInt8
  rawValue : UInt16
  voltage : Binary32
  timestamp : UInt64
  convTime : Binary64
  deriving DecidableEq, Repr

end MuonDetector.Data.Events
