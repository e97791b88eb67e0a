import MuonDetector.Library.Machine
import MuonDetector.Library.StreamParser
import MuonDetector.Library.Scanner
import MuonDetector.Library.Reader
import MuonDetector.Library.Bytes
import MuonDetector.Library.Texts
import MuonDetector.Library.Fields
import MuonDetector.Library.Messages
import MuonDetector.Library.Maps
import MuonDetector.Library.SortedMaps
import MuonDetector.Library.Floats
import MuonDetector.Library.Exact
import MuonDetector.Library.Rounding
import MuonDetector.Library.Counter
import MuonDetector.Library.Selection
import MuonDetector.Library.Windows
import MuonDetector.Library.Bisection
import MuonDetector.Library.Timers
import MuonDetector.Library.Attempts
import MuonDetector.Library.Image
import MuonDetector.Library.Paths
import MuonDetector.Network.Frame
import MuonDetector.Network.Framing
import MuonDetector.Network.Connection
import MuonDetector.Network.Delivery
import MuonDetector.Network.Disconnect
import MuonDetector.Network.WriteQueue
import MuonDetector.Network.Server
import MuonDetector.Network.Sessions
import MuonDetector.Network.ConnectionCount
import MuonDetector.Network.MessageKeys
import MuonDetector.Utility.HelperFunctions
import MuonDetector.Utility.PlainChar
import MuonDetector.Ublox.Message
import MuonDetector.Ublox.Parser
import MuonDetector.Ublox.Tracking
import MuonDetector.Ublox.Framing
import MuonDetector.Ublox.Events
import MuonDetector.Ublox.MessageProcessor
import MuonDetector.Ublox.ReadBounds
import MuonDetector.Ublox.ProtVersion
import MuonDetector.Ublox.VersionText
import MuonDetector.Ublox.VersionMessage
import MuonDetector.Ublox.Serial
import MuonDetector.Ublox.ConfigAgreement
import MuonDetector.Ublox.Commands
import MuonDetector.Ublox.Driver
import MuonDetector.Ublox.Handshake
import MuonDetector.Ublox.Retry
import MuonDetector.Ublox.VersionQueue
import MuonDetector.Ublox.SatelliteRates
import MuonDetector.Ublox.TimeMark
import MuonDetector.Ublox.FixedLayout
import MuonDetector.Ublox.Satellites
import MuonDetector.Ublox.BufferTotals
import MuonDetector.Core.ThreadPool
import MuonDetector.Core.EventBus
import MuonDetector.Core.EventOrder
import MuonDetector.Core.EventDelivery
import MuonDetector.Core.DataStore
import MuonDetector.Core.Scheduler
import MuonDetector.Core.SchedulerSafety
import MuonDetector.Capnp.EventCodecs
import MuonDetector.Capnp.GnssCodecs
import MuonDetector.Capnp.CommandCodecs
import MuonDetector.Data.Events
import MuonDetector.Data.Histogram
import MuonDetector.Data.ExactHistogram
import MuonDetector.Data.HistogramRun
import MuonDetector.Data.HistogramBins
import MuonDetector.Data.HistogramMedian
import MuonDetector.Capnp.HistogramCodec
import MuonDetector.Utility.KalmanGnssFilter
import MuonDetector.Utility.GeoPosManager
import MuonDetector.Utility.StaticPosition
import MuonDetector.Core.PositionBindings
import MuonDetector.Core.PositionHistograms
import MuonDetector.Core.PositionConfig
import MuonDetector.Utility.TimeAccuracy
import MuonDetector.Utility.KalmanRun
import MuonDetector.Utility.GeoHash
import MuonDetector.Utility.GpioRateBuffer
import MuonDetector.Utility.EventIntervals
import MuonDetector.Utility.SlidingRate
import MuonDetector.Utility.RateSamples
import MuonDetector.Utility.UbloxRateBuffer
import MuonDetector.Hardware.Dac
import MuonDetector.Hardware.DacVoltage
import MuonDetector.Hardware.Adc
import MuonDetector.Drivers.Dac
import MuonDetector.Drivers.Adc
import MuonDetector.Drivers.AdcTrace
import MuonDetector.Drivers.AdcBurst
import MuonDetector.Sources.TcpCommandDecoder
import MuonDetector.Drivers.RemoteIndex
import MuonDetector.Sinks.Mqtt
import MuonDetector.Sds011.Parser
import MuonDetector.Sds011.Framing
import MuonDetector.Sds011.Commands
import MuonDetector.I2c.Device
import MuonDetector.I2c.BitFields
import MuonDetector.I2c.Eeprom
import MuonDetector.Utility.Calibration
import MuonDetector.Utility.CalibrationRoundTrip
import MuonDetector.Components.Logging
import MuonDetector.Components.LogOnce
import MuonDetector.Components.LogAverage
import MuonDetector.Components.LogOnChange
import MuonDetector.Sinks.WorkingFiles
import MuonDetector.Sinks.Rotation
import MuonDetector.Core.WorkerLoop
import MuonDetector.Core.WorkerProgress
import MuonDetector.Library.Regex
import MuonDetector.Credentials.ConfigFile
import MuonDetector.Credentials.OtherLines
import MuonDetector.Gui.ScanForm
import MuonDetector.Gui.ScanRun
import MuonDetector.Library.Conversions
import MuonDetector.App.CommandLine
import MuonDetector.App.ValueRanges
import MuonDetector.Network.Channel
import MuonDetector.Sources.CommandStream
import MuonDetector.Capnp.StatusCodecs
import MuonDetector.Gui.Decoder
import MuonDetector.Network.Broadcast
import MuonDetector.Gui.EventStream
import MuonDetector.Library.Datagrams
import MuonDetector.Network.Discovery
import MuonDetector.Core.Handlers
import MuonDetector.Library.Latest
import MuonDetector.Drivers.Gpio
import MuonDetector.Drivers.SwitchReports
import MuonDetector.Drivers.SwitchCoherence
import MuonDetector.Library.Decimals
import MuonDetector.Library.Journal
import MuonDetector.Sinks.DataLines
import MuonDetector.Sinks.Recording
import MuonDetector.Core.StoredEvents
import MuonDetector.Core.Joining
