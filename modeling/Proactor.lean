import Proactor.Activity
import Proactor.Attempt
import Proactor.Buffer
import Proactor.Buffer.Cursor
import Proactor.Channel
import Proactor.Channel.Closing
import Proactor.Channel.Dispatch
import Proactor.Channel.Flush
import Proactor.Channel.Submission
import Proactor.Config
import Proactor.Duration
import Proactor.Echo
import Proactor.Echo.Service
import Proactor.Endpoint
import Proactor.Endpoint.Address
import Proactor.Endpoint.Text
import Proactor.Engine
import Proactor.Engine.Run
import Proactor.Environment
import Proactor.Errno
import Proactor.Host
import Proactor.Kernel
import Proactor.Kernel.Record
import Proactor.Kernel.Wire
import Proactor.Lane
import Proactor.Log
import Proactor.Main
import Proactor.Operation
import Proactor.Pool
import Proactor.Pool.Setup
import Proactor.Program
import Proactor.Proofs.Acceptance
import Proactor.Proofs.Accounts
import Proactor.Proofs.Address
import Proactor.Proofs.Answers
import Proactor.Proofs.Attempt
import Proactor.Proofs.Carriers
import Proactor.Proofs.ClosePolicy
import Proactor.Proofs.Control
import Proactor.Proofs.Cursor
import Proactor.Proofs.Cursor.Addition
import Proactor.Proofs.Datagrams
import Proactor.Proofs.Draining
import Proactor.Proofs.Echo.Bytes
import Proactor.Proofs.Echo.Echoing
import Proactor.Proofs.Echo.Interleaving
import Proactor.Proofs.Echo.Steps
import Proactor.Proofs.Edges
import Proactor.Proofs.Engine.Holdings
import Proactor.Proofs.Engine.Startup
import Proactor.Proofs.Engine.Waiting
import Proactor.Proofs.Fates
import Proactor.Proofs.Footprint
import Proactor.Proofs.Glances
import Proactor.Proofs.InputEnd
import Proactor.Proofs.Interest
import Proactor.Proofs.Interleaving
import Proactor.Proofs.LeftBehind
import Proactor.Proofs.Lengths
import Proactor.Proofs.Lines
import Proactor.Proofs.Locks
import Proactor.Proofs.Order
import Proactor.Proofs.PendingError
import Proactor.Proofs.Pool.Interleaving
import Proactor.Proofs.Pool.Jobs
import Proactor.Proofs.Pool.Lanes
import Proactor.Proofs.Pool.Steps
import Proactor.Proofs.Queue
import Proactor.Proofs.Queue.Custody
import Proactor.Proofs.Reactor.Batches
import Proactor.Proofs.Reactor.Interleaving
import Proactor.Proofs.Reactor.Reuse
import Proactor.Proofs.Reactor.Table
import Proactor.Proofs.Receiving
import Proactor.Proofs.Registration
import Proactor.Proofs.Release
import Proactor.Proofs.Retries
import Proactor.Proofs.Room
import Proactor.Proofs.Sending
import Proactor.Proofs.Settings
import Proactor.Proofs.Standing
import Proactor.Proofs.Statuses
import Proactor.Proofs.Steps
import Proactor.Proofs.Steps.Closing
import Proactor.Proofs.Steps.Dispatch
import Proactor.Proofs.Steps.Submission
import Proactor.Proofs.Stream
import Proactor.Proofs.Sweeps
import Proactor.Proofs.Tenure
import Proactor.Proofs.Transcripts
import Proactor.Proofs.Turns
import Proactor.Proofs.Verdict
import Proactor.Proofs.Whole
import Proactor.Proofs.Wire
import Proactor.Queue
import Proactor.Reactor
import Proactor.Reactor.Loop
import Proactor.Reactor.Registration
import Proactor.Reactor.Setup
import Proactor.Readiness
import Proactor.SetupFailure
import Proactor.Socket
import Proactor.Socket.Release
import Proactor.Status
import Proactor.Sum
import Proactor.Text.Blank
import Proactor.Text.Hexadecimal
import Proactor.Text.Hidden
import Proactor.Text.Number
import Proactor.Text.Quoted
import Proactor.Thread
