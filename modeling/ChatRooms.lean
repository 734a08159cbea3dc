import ChatRooms.Accounts.Basic
import ChatRooms.Accounts.Operation
import ChatRooms.Accounts.Password
import ChatRooms.Accounts.User
import ChatRooms.Decimal.Integer
import ChatRooms.Decimal.Shortest
import ChatRooms.Digest.Blowfish
import ChatRooms.Digest.Pi
import ChatRooms.Digest.Sha1
import ChatRooms.Error
import ChatRooms.Http.App
import ChatRooms.Http.Bodies
import ChatRooms.Http.Cors
import ChatRooms.Http.Head
import ChatRooms.Http.JsonBody
import ChatRooms.Http.MediaType
import ChatRooms.Http.Message
import ChatRooms.Http.Route
import ChatRooms.Http.Target
import ChatRooms.Hub.Basic
import ChatRooms.Hub.Connection
import ChatRooms.Hub.Operation
import ChatRooms.Hub.Router
import ChatRooms.Json.Fault
import ChatRooms.Json.Number
import ChatRooms.Json.Record
import ChatRooms.Json.RowWriter
import ChatRooms.Json.Skip
import ChatRooms.Json.Space
import ChatRooms.Json.StringToken
import ChatRooms.Json.Tree
import ChatRooms.Json.Writer
import ChatRooms.Lifecycle
import ChatRooms.Rooms.Book
import ChatRooms.Rooms.Operation
import ChatRooms.Rooms.Room
import ChatRooms.Session.Admission
import ChatRooms.Session.Reader
import ChatRooms.Session.Writer
import ChatRooms.Settings
import ChatRooms.Simulation.Delay
import ChatRooms.Simulation.Line
import ChatRooms.Simulation.Step
import ChatRooms.Simulation.World
import ChatRooms.Socket.Frame
import ChatRooms.Socket.Message
import ChatRooms.Socket.Upgrade
import ChatRooms.Startup
import ChatRooms.Storage.DatabaseUrl
import ChatRooms.Storage.Disk
import ChatRooms.Table
import ChatRooms.Text.Base64
import ChatRooms.Text.Blank
import ChatRooms.Text.Hex
import ChatRooms.Text.Percent
import ChatRooms.Text.Quoted
import ChatRooms.Text.Unprintable
import ChatRooms.Text.Utf8
import ChatRooms.Time.Date
import ChatRooms.Time.Instant
import ChatRooms.Time.Reader
import ChatRooms.Time.Writer
import ChatRooms.Uuid
import ChatRooms.Wire.Bearer
import ChatRooms.Wire.CloseCode
import ChatRooms.Wire.ConnectParams
import ChatRooms.Wire.Frame
import ChatRooms.Proofs.Since
import ChatRooms.Proofs.Hub.Effects
import ChatRooms.Proofs.Lifecycle
import ChatRooms.Proofs.Hub.Broadcast
import ChatRooms.Proofs.Hub.Step
import ChatRooms.Proofs.Hub.Membership
import ChatRooms.Proofs.Hub.Queue
import ChatRooms.Proofs.Hub.Stream
import ChatRooms.Proofs.Rooms.Deletion
import ChatRooms.Proofs.Accounts.Logout
import ChatRooms.Proofs.Time.Calendar
import ChatRooms.Proofs.Text.Blank
import ChatRooms.Proofs.Time.RoundTrip
import ChatRooms.Proofs.Accounts.Ledger
import ChatRooms.Proofs.Accounts.History
import ChatRooms.Proofs.Json.Grammar
import ChatRooms.Proofs.Json.Strings
import ChatRooms.Proofs.Json.Numbers
import ChatRooms.Proofs.Json.Skipping
import ChatRooms.Proofs.Json.Kinds
import ChatRooms.Proofs.Json.Records
import ChatRooms.Proofs.Json.Unambiguous
import ChatRooms.Proofs.Json.Writing
import ChatRooms.Proofs.Wire.RoundTrip
import ChatRooms.Proofs.Wire.Inbound
import ChatRooms.Proofs.Hub.Removal
import ChatRooms.Proofs.Session.Course
import ChatRooms.Proofs.Session.Ending
import ChatRooms.Proofs.Hub.Entries
import ChatRooms.Proofs.Hub.Reach
import ChatRooms.Proofs.Hub.Isolation
import ChatRooms.Proofs.Rooms.Register
import ChatRooms.Proofs.Session.Provenance
import ChatRooms.Proofs.Hub.Reachable
import ChatRooms.Proofs.Hub.Fanout
import ChatRooms.Proofs.Hub.Frames
import ChatRooms.Proofs.Hub.Handle
import ChatRooms.Proofs.Session.ReadLoop
import ChatRooms.Proofs.Session.Silence
import ChatRooms.Proofs.Session.WriteLoop
import ChatRooms.Proofs.Accounts.Twins
import ChatRooms.Proofs.Http.Secrecy
import ChatRooms.Proofs.Text.Utf8
import ChatRooms.Proofs.Http.Upgrade
import ChatRooms.Proofs.Http.Eviction
import ChatRooms.Proofs.Accounts.Passwords
import ChatRooms.Proofs.Storage.DatabaseUrl
import ChatRooms.Proofs.Storage.Placement
import ChatRooms.Proofs.Accounts.Failure
import ChatRooms.Proofs.Time.Order
import ChatRooms.Proofs.Rooms.Listing
import ChatRooms.Proofs.Decimal.Integer
import ChatRooms.Proofs.Settings.Environment
import ChatRooms.Proofs.Settings.Safety
