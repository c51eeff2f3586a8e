import Gearman.Admin.Verify.Commands
import Gearman.Admin.Verify.Conversations
import Gearman.Admin.Verify.Listing
import Gearman.Protocol.Verify.Stream
import Gearman.Protocol.Verify.Usize
import Gearman.Client.Verify.AtMostOnce
import Gearman.Client.Verify.Waiting
import Gearman.Client.Verify.Reconnect
import Gearman.Worker.Verify.Handlers
import Gearman.Worker.Verify.Recovery
import Gearman.Worker.Verify.Termination
import Gearman.Worker.Verify.Conformance
import Gearman.Client.Verify.Connect
import Gearman.Client.Verify.Coalesced
import Gearman.Client.Verify.Dropped
import Gearman.Client.Verify.Inserted
import Gearman.Client.Verify.Invisible
import Gearman.Client.Verify.ServerList
import Gearman.Client.Verify.Refused
import Gearman.Client.Verify.RoundRobin
import Gearman.Client.Verify.Slots
import Gearman.Client.Verify.Streams
import Gearman.Worker.Verify.SetUp
import Gearman.Worker.Verify.Shutdown
import Gearman.Worker.Verify.Unregister
import Gearman.Worker.Verify.Answered
import Gearman.Worker.Verify.Assignments
import Gearman.Worker.Verify.Reporters
import Gearman.Verify.Address
import Gearman.Verify.ApiFields
import Gearman.Verify.EndToEnd
import Gearman.Verify.Wire
