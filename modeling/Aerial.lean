import Aerial.Proofs.Wire.Statuses
import Aerial.Script.Bus
import Aerial.Script.Line
import Aerial.Script.Link
import Aerial.Script.Rotator
import Aerial.Script.Station
import Aerial.Script.Stream
import Aerial.Settings.Basic
import Aerial.Settings.EnvFile
import Aerial.Site
import Aerial.Proofs.Announcements
import Aerial.Proofs.Simulator.Moves
import Aerial.Proofs.Bus.Readers
import Aerial.Proofs.Chain.Basic
import Aerial.Proofs.Chain.Levels
import Aerial.Proofs.Chain.Mirrors
import Aerial.Proofs.Chain.Transparency
import Aerial.Proofs.Station.Registry
import Aerial.Proofs.Station.Streams
import Aerial.Proofs.Station.Deliveries
import Aerial.Proofs.Chain.Trails
import Aerial.Proofs.Chain.Bootstrap
import Aerial.Proofs.Chain.Growth
import Aerial.Proofs.Chain.LastPayload
import Aerial.Proofs.Link.Runs
import Aerial.Proofs.Json.Locality
import Aerial.Proofs.Json.PrefixFree
import Aerial.Proofs.Station.Commands
import Aerial.Proofs.Chain.Commands
import Aerial.Proofs.Framing.Segments
import Aerial.Proofs.Framing.Pieces
import Aerial.Proofs.Framing.Scanner
import Aerial.Proofs.Station.Visits
import Aerial.Proofs.Station.Lines
import Aerial.Proofs.Station.Transports
import Aerial.Proofs.Station.Membership
import Aerial.Proofs.Wire.RoundTrip
import Aerial.Proofs.Wire.Renderings
import Aerial.Proofs.Chain.Inert
import Aerial.Proofs.Simulator.Limits
import Aerial.Proofs.Simulator.Stops
import Aerial.Proofs.Simulator.Slewing
import Aerial.Proofs.Bus.Ledgers
import Aerial.Proofs.Wire.Messages
import Aerial.Proofs.Simulator.Independence
import Aerial.Proofs.Simulator.Requests
import Aerial.Proofs.PushLines
import Aerial.Proofs.Schedule
import Aerial.Proofs.Settings.Reloading
import Aerial.Proofs.Settings.Locality
