import GridRobot.Wire.Bytes
import GridRobot.Cadence.Basic
import GridRobot.Json.Message
import GridRobot.Queue
import GridRobot.Publisher
import GridRobot.Link.Loopback
import GridRobot.Link.Line
import GridRobot.Link.Scripted
import GridRobot.Loop.Solo
import GridRobot.Session.Basic
import GridRobot.Proofs.Wire.Splitting
import GridRobot.Proofs.Wire.Order
import GridRobot.Proofs.Station.Outbound
import GridRobot.Proofs.Station.Inbound
import GridRobot.Proofs.Station.Schedule
import GridRobot.Proofs.Station.Overlap
import GridRobot.Proofs.Station.FarEnd
import GridRobot.Proofs.Station.Conversation
import GridRobot.Proofs.Line.Transport
import GridRobot.Proofs.Publisher.Delivery
import GridRobot.Proofs.Publisher.Counting
import GridRobot.Proofs.Loop.Stopping
import GridRobot.Proofs.Loopback.Channels
import GridRobot.Proofs.Lane.Paced
import GridRobot.Proofs.Loop.Solo
import GridRobot.Proofs.Loop.Timetable
import GridRobot.Proofs.Loop.OnTime
import GridRobot.Proofs.Session.Relay
import GridRobot.Proofs.Session.Run
import GridRobot.Proofs.Lane.WindUp
import GridRobot.Proofs.Session.Shutdown
import GridRobot.Proofs.Text.Lossy
import GridRobot.Proofs.Wire.Bytes
import GridRobot.Proofs.Station.Accounts
import GridRobot.Proofs.Lane.Clock
import GridRobot.Proofs.Lane.Service
import GridRobot.Proofs.Lane.Spacing
import GridRobot.Proofs.Lane.Departures
import GridRobot.Proofs.Session.Clock
import GridRobot.Proofs.Session.Cadence
import GridRobot.Proofs.Lane.Still
import GridRobot.Proofs.Session.Separate
import GridRobot.Proofs.Line.Breaks
import GridRobot.Proofs.Line.Sending
import GridRobot.Proofs.Robot.Fate
import GridRobot.Proofs.Robot.Conduct
import GridRobot.Proofs.Json.Reading
import GridRobot.Proofs.Json.Text
import GridRobot.Proofs.Json.Number
import GridRobot.Proofs.Json.Value
import GridRobot.Proofs.Json.Decoder
import GridRobot.Proofs.Json.Forms
import GridRobot.Proofs.Json.Skipping
import GridRobot.Proofs.Json.Trees
import GridRobot.Proofs.Json.Members
import GridRobot.Proofs.Json.Tagged
import GridRobot.Proofs.Json.Arrangement
import GridRobot.Proofs.Json.Bounds
import GridRobot.Proofs.Wire.Cursor
import GridRobot.Proofs.Grid.Walks
import GridRobot.Proofs.Wire.Payloads
