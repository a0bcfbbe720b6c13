import NameDirectory.Text.Split
import NameDirectory.Text.Numeral
import NameDirectory.Text.Quoted
import NameDirectory.Text.Utf8
import NameDirectory.Name
import NameDirectory.Object
import NameDirectory.Entry
import NameDirectory.Keyed
import NameDirectory.Request
import NameDirectory.Tree
import NameDirectory.Wire.Decoder
import NameDirectory.Wire.Encoder
import NameDirectory.Wire.Value
import NameDirectory.Fault
import NameDirectory.Rehearsal.Files
import NameDirectory.Destination
import NameDirectory.Credentials
import NameDirectory.Packet
import NameDirectory.Frame
import NameDirectory.Greeting
import NameDirectory.Exchange
import NameDirectory.Service
import NameDirectory.InFlight
import NameDirectory.Failover
import NameDirectory.Lease
import NameDirectory.Context
import NameDirectory.Rehearsal.Doubles
import NameDirectory.Workers
import NameDirectory.Configuration
import NameDirectory.Shell
import NameDirectory.Seeding
import NameDirectory.SocketAddress
import NameDirectory.Arguments
import NameDirectory.Connection
import NameDirectory.Listener
import NameDirectory.Proxy
import NameDirectory.Registry
import NameDirectory.Network
import NameDirectory.CommandLine
import NameDirectory.Rehearsal.Scenario
import NameDirectory.Main
import NameDirectory.Proofs.RoundTrip
import NameDirectory.Proofs.Counter
import NameDirectory.Proofs.Limits
import NameDirectory.Proofs.Frames
import NameDirectory.Proofs.Renaming
import NameDirectory.Proofs.Remote
import NameDirectory.Proofs.Atomicity
import NameDirectory.Proofs.Admission
import NameDirectory.Proofs.Mailboxes
import NameDirectory.Proofs.Matching
import NameDirectory.Proofs.Ledger
import NameDirectory.Proofs.Generations
import NameDirectory.Proofs.Tenancy
import NameDirectory.Proofs.Provenance
import NameDirectory.Proofs.Sharing
import NameDirectory.Proofs.Canonical
import NameDirectory.Proofs.Delivery
import NameDirectory.Proofs.Custody
import NameDirectory.Proofs.Asking
import NameDirectory.Proofs.Handles
import NameDirectory.Proofs.Holdings
import NameDirectory.Proofs.Leftovers
import NameDirectory.Proofs.Contention
import NameDirectory.Proofs.Finality
import NameDirectory.Proofs.Shutdown
import NameDirectory.Proofs.Retries
import NameDirectory.Proofs.Hangup
import NameDirectory.Proofs.Lines
import NameDirectory.Proofs.Channels
import NameDirectory.Proofs.Wakeups
import NameDirectory.Proofs.Streams
import NameDirectory.Proofs.Scans
import NameDirectory.Proofs.Paths
import NameDirectory.Proofs.Updates
import NameDirectory.Proofs.Moves
import NameDirectory.Proofs.Links
import NameDirectory.Proofs.Courses
import NameDirectory.Proofs.Numbering
import NameDirectory.Proofs.Density
import NameDirectory.Proofs.Children
import NameDirectory.Proofs.Oversize
import NameDirectory.Proofs.Listings
import NameDirectory.Proofs.Keys
import NameDirectory.Proofs.Endings
import NameDirectory.Proofs.Openings
import NameDirectory.Proofs.NameText
import NameDirectory.Proofs.Seeds
import NameDirectory.Proofs.Retagging
import NameDirectory.Proofs.Replies
import NameDirectory.Proofs.Addresses
import NameDirectory.Proofs.Survivors
import NameDirectory.Proofs.Progress
import NameDirectory.Proofs.Plans
import NameDirectory.Proofs.Budget
