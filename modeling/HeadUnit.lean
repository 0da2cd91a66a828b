import HeadUnit.Std.Machine
import HeadUnit.Std.Memory
import HeadUnit.Mcu.Link
import HeadUnit.Mcu.Framer
import HeadUnit.Mcu.Grammar
import HeadUnit.Mcu.Acceptance
import HeadUnit.Mcu.Sender
import HeadUnit.Mcu.Delivery
import HeadUnit.Mcu.Resync
import HeadUnit.Gps.Reader
import HeadUnit.Gps.Effects
import HeadUnit.Std.Lines
import HeadUnit.Gps.Framing
import HeadUnit.Gps.Satellites
import HeadUnit.Gps.FixDelivery
import HeadUnit.Gps.Session
import HeadUnit.Gps.Fields
import HeadUnit.Gps.Timestamp
import HeadUnit.Std.Chunks
import HeadUnit.Gps.SatelliteGroups
import HeadUnit.Mcu.Corruption
import HeadUnit.Mcu.Script
import HeadUnit.Mcu.ScriptBounds
import HeadUnit.Gps.Locality
import HeadUnit.Gps.Separation
import HeadUnit.Pool.ThreadPool
import HeadUnit.Pool.Steps
import HeadUnit.Pool.History
import HeadUnit.Pool.Wakeups
import HeadUnit.Sensors.Poll
import HeadUnit.Sensors.Enable
import HeadUnit.Sensors.EventRing
import HeadUnit.Sensors.MagEvents
import HeadUnit.Sensors.Answering
import HeadUnit.Sensors.MagReports
import HeadUnit.Athr.Driver
import HeadUnit.Athr.Steps
import HeadUnit.Athr.Starts
import HeadUnit.Gps.Splitting
import HeadUnit.Gps.Dates
import HeadUnit.Gps.FixSentences
import HeadUnit.Gps.Coordinates
import HeadUnit.Gps.SatelliteAssembly
import HeadUnit.Gps.UsedInFix
import HeadUnit.Mcu.ScriptFrames
import HeadUnit.Gps.Numbers
import HeadUnit.Sensors.Activation
import HeadUnit.Std.Drain
import HeadUnit.DrainLoops
import HeadUnit.Framebuffer.DrawRect
import HeadUnit.Blkid.Cache
import HeadUnit.Framebuffer.Rectangles
import HeadUnit.Blkid.Coherence
import HeadUnit.Blkid.Probe
import HeadUnit.Blkid.Verdicts
import HeadUnit.Mtp.Convert
import HeadUnit.Mtp.Rules
import HeadUnit.Mtp.Table
import HeadUnit.Mtp.Marked
import HeadUnit.SocketServer.ClientTable
import HeadUnit.Dd.Buffers
import HeadUnit.Std.Outcome
import HeadUnit.Std.Records
import HeadUnit.Dd.Output
import HeadUnit.Dd.Blocking
import HeadUnit.Dd.Copies
import HeadUnit.Dd.RoundTrips
import HeadUnit.Sensors.Channels
import HeadUnit.Sensors.LightSensor
import HeadUnit.Sensors.PollContext
import HeadUnit.Sensors.PollDelivery
import HeadUnit.Athr.FixSentences
import HeadUnit.Athr.Device
