import Rcodex.Foundation.Json
import Rcodex.Foundation.Result
import Rcodex.Foundation.Effect
import Rcodex.Foundation.Machine
import Rcodex.Foundation.Slots
import Rcodex.Foundation.Splitting
import Rcodex.Foundation.Saturating
import Rcodex.Foundation.Table
import Rcodex.Foundation.Grouping
import Rcodex.Foundation.Codec
import Rcodex.Foundation.Base64
import Rcodex.Foundation.CompactJson
import Rcodex.Foundation.PrefixCode
import Rcodex.Foundation.Text
import Rcodex.Foundation.JsonText
import Rcodex.Foundation.Lines
import Rcodex.Foundation.Decode
import Rcodex.Foundation.PrettyJson
import Rcodex.Foundation.Dumps
import Rcodex.Foundation.JsonTree
import Rcodex.Foundation.Percent
import Rcodex.Transport.Envelope
import Rcodex.Transport.Reassembler
import Rcodex.Transport.Representation
import Rcodex.Transport.Integrity
import Rcodex.Transport.Segment
import Rcodex.Transport.Relay
import Rcodex.Transport.Completeness
import Rcodex.Transport.RoundTrip
import Rcodex.Transport.Termination
import Rcodex.Transport.Replay
import Rcodex.Transport.Delivery
import Rcodex.Transport.Pending
import Rcodex.Transport.Reset
import Rcodex.Transport.Wire
import Rcodex.Broker.Protocol
import Rcodex.Broker.Service
import Rcodex.Broker.Hosts
import Rcodex.Broker.Handoff
import Rcodex.Broker.Framing
import Rcodex.Broker.Pairing
import Rcodex.Broker.Pagination
import Rcodex.Auth.Document
import Rcodex.Auth.Merge
import Rcodex.Auth.Refresh
import Rcodex.Update.Release
import Rcodex.Update.Install
import Rcodex.Update.Verified
import Rcodex.Update.Processes
import Rcodex.Update.Throttle
import Rcodex.Update.Order
import Rcodex.Update.Installation
import Rcodex.Update.Atomicity
import Rcodex.Update.Companions
import Rcodex.Update.Search
import Rcodex.Update.Parity
import Rcodex.Update.Manifest
import Rcodex.Update.Schemas
import Rcodex.Update.Sessions
import Rcodex.Update.Evidence
import Rcodex.Update.Proposals
import Rcodex.Identity.Payload
import Rcodex.Identity.Separation
import Rcodex.Identity.Enroll
import Rcodex.Identity.Orphan
import Rcodex.Identity.Unenroll
import Rcodex.Identity.StepUp
import Rcodex.Identity.Callback
import Rcodex.Identity.Waiting
import Rcodex.Identity.ClientPath
import Rcodex.Foundation.Audit
import Rcodex.Foundation.Agree
import Rcodex.Foundation.Guarding
import Rcodex.Foundation.Loops
import Rcodex.Foundation.Writes
import Rcodex.Controller.Acts
import Rcodex.Controller.Api
import Rcodex.Controller.Policy
import Rcodex.Controller.Session
import Rcodex.Controller.Connect
import Rcodex.Controller.Signing
import Rcodex.Controller.Hosts
import Rcodex.Controller.Commands
import Rcodex.Controller.Enrollment
import Rcodex.Controller.Broker
import Rcodex.Controller.Bridge
import Rcodex.Controller.Traffic
import Rcodex.Controller.Reading
import Rcodex.Controller.StateFile
