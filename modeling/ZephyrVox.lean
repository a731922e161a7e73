import ZephyrVox.Lib.Transition
import ZephyrVox.Lib.Broadcast
import ZephyrVox.Lib.Gate
import ZephyrVox.Lib.Keyed
import ZephyrVox.Lib.Counters
import ZephyrVox.Lib.Numeral
import ZephyrVox.Lib.Bytes
import ZephyrVox.Lib.Utf8
import ZephyrVox.Lib.FixedWidth
import ZephyrVox.Lib.Der
import ZephyrVox.Lib.HeaderFields
import ZephyrVox.Lib.History
import ZephyrVox.Lib.FormUrlencoded
import ZephyrVox.Lib.Progress
import ZephyrVox.Types.Ids
import ZephyrVox.Types.State
import ZephyrVox.Types.Parse
import ZephyrVox.Wire.Ip
import ZephyrVox.Wire.IpText
import ZephyrVox.Wire.ServerCard
import ZephyrVox.Wire.Host
import ZephyrVox.Wire.CardUrl
import ZephyrVox.Wire.HexText
import ZephyrVox.Http.Credentials
import ZephyrVox.Http.Request
import ZephyrVox.Http.Response
import ZephyrVox.Http.Refresh
import ZephyrVox.Http.Client
import ZephyrVox.Http.Singleflight
import ZephyrVox.Http.Rotation
import ZephyrVox.Http.Logout
import ZephyrVox.Http.Agreement
import ZephyrVox.Http.Expiry
import ZephyrVox.Http.Progress
import ZephyrVox.Http.Retry
import ZephyrVox.Http.TlsPin
import ZephyrVox.Http.Multipart
import ZephyrVox.Realtime.Projection
import ZephyrVox.Realtime.StateStore
import ZephyrVox.Realtime.Application
import ZephyrVox.Realtime.Tables
import ZephyrVox.Realtime.Sync
import ZephyrVox.Realtime.Handoff
import ZephyrVox.Realtime.Socket
import ZephyrVox.Realtime.EventReceiver
import ZephyrVox.Realtime.LiveBarrier
import ZephyrVox.Realtime.Resync
import ZephyrVox.Realtime.Boundary
import ZephyrVox.Realtime.Engine
import ZephyrVox.Realtime.Backoff
import ZephyrVox.Realtime.Retries
import ZephyrVox.Realtime.Commands
import ZephyrVox.Realtime.Correlation
import ZephyrVox.Realtime.LiveCommands
import ZephyrVox.Realtime.EndOfStream
import ZephyrVox.Realtime.Tls
import ZephyrVox.Voice.Config
import ZephyrVox.Voice.Codec
import ZephyrVox.Voice.Packet
import ZephyrVox.Voice.Worker
import ZephyrVox.Voice.Admission
import ZephyrVox.Voice.Replay
import ZephyrVox.Voice.Inbound
import ZephyrVox.Voice.Outbound
import ZephyrVox.Voice.Lifecycle
import ZephyrVox.Voice.KeyLifetime
import ZephyrVox.Sdk.Authority
import ZephyrVox.Sdk.Client
import ZephyrVox.Sdk.Branches
import ZephyrVox.Sdk.Moves
import ZephyrVox.Sdk.Tasks
import ZephyrVox.Sdk.Sessions
import ZephyrVox.Sdk.Slots
import ZephyrVox.Sdk.Nonces
import ZephyrVox.Sdk.Watch
import ZephyrVox.Sdk.StopEvents
import ZephyrVox.Sdk.Rejoin
import ZephyrVox.Sdk.Withdrawal
import ZephyrVox.Sdk.Confidential
import ZephyrVox.Sdk.Negotiation
import ZephyrVox.Sdk.Leaving
import ZephyrVox.Sdk.LeaveOnce
import ZephyrVox.Sdk.FailedJoins
import ZephyrVox.Sdk.Superseded
import ZephyrVox.Sdk.Shutdown
import ZephyrVox.Sdk.Locks
import ZephyrVox.Sdk.Progress
import ZephyrVox.Sdk.GeneratedIds
import ZephyrVox.Lib.Supply
import ZephyrVox.Realtime.Replica
import ZephyrVox.Lib.Window
import ZephyrVox.Voice.Delivery
import ZephyrVox.Voice.Sends
import ZephyrVox.Voice.Uplink
import ZephyrVox.Realtime.Returns
