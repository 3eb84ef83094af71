import LatticeShield.Lib.Bytes
import LatticeShield.Lib.Buffer
import LatticeShield.Lib.Lists
import LatticeShield.Lib.Reader
import LatticeShield.Lib.Wire
import LatticeShield.Lib.Runs
import LatticeShield.Lib.Handlers
import LatticeShield.Lib.Table
import LatticeShield.Lib.Text
import LatticeShield.Lib.Fallible
import LatticeShield.Lib.Aead
import LatticeShield.Crypto.Channel
import LatticeShield.Crypto.Signing
import LatticeShield.Crypto.Handshake
import LatticeShield.Crypto.Sample
import LatticeShield.Crypto.SampleHandshake
import LatticeShield.Relay.Bridge
import LatticeShield.Relay.Client
import LatticeShield.Relay.Session
import LatticeShield.Js.Framing
import LatticeShield.Js.Worker
import LatticeShield.Wasm.Handshake
import LatticeShield.Bridge.Ws
import LatticeShield.Bridge.VkShare
import LatticeShield.Bridge.Admin
import LatticeShield.Bridge.Config
import LatticeShield.Bridge.Identity
import LatticeShield.Bridge.Server
import LatticeShield.Bridge.ControlPlane
import LatticeShield.Proof.Frames
import LatticeShield.Proof.Network
import LatticeShield.Proof.Authenticity
import LatticeShield.Proof.Replay
import LatticeShield.Proof.Nonces
import LatticeShield.Proof.Delivery
import LatticeShield.Proof.SessionSteps
import LatticeShield.Proof.Rotation
import LatticeShield.Proof.Cancellation
import LatticeShield.Proof.JsFrames
import LatticeShield.Proof.Agreement
import LatticeShield.Proof.WorkerLoop
import LatticeShield.Proof.Handshake
import LatticeShield.Proof.WasmHandshake
import LatticeShield.Proof.VkShare
import LatticeShield.Proof.Admin
import LatticeShield.Proof.Stream
import LatticeShield.Proof.ClientAuth
import LatticeShield.Proof.ControlPlane
import LatticeShield.Proof.Serial
import LatticeShield.Proof.Validate
import LatticeShield.Proof.Ports
import LatticeShield.Bridge.Admission
import LatticeShield.Proof.Admission
import LatticeShield.Client.Config
import LatticeShield.Client.Pool
import LatticeShield.Proof.Pool
import LatticeShield.Client.Reconnect
import LatticeShield.Proof.Reconnect
import LatticeShield.Proof.UserStream
import LatticeShield.Js.Session
import LatticeShield.Proof.JsSession
import LatticeShield.Proof.KeyUsage
import LatticeShield.Proof.FrameLimits
import LatticeShield.Relay.Tunnel
import LatticeShield.Proof.HalfClose
import LatticeShield.Proof.Grammar
import LatticeShield.Proof.FailedWrites
import LatticeShield.Proof.KeyFiles
import LatticeShield.Bridge.Metrics
import LatticeShield.Proof.Metrics
import LatticeShield.Proof.JsSessionSteps
import LatticeShield.Js.Traffic
import LatticeShield.Proof.Traffic
import LatticeShield.Proof.CleanSession
import LatticeShield.Js.Inbox
import LatticeShield.Proof.Inbox
import LatticeShield.Js.Hook
import LatticeShield.Proof.HookSteps
import LatticeShield.Proof.Hook
import LatticeShield.Proof.HookRetries
import LatticeShield.Proof.HookStatus
import LatticeShield.Proof.Heartbeat
import LatticeShield.Bridge.WsStream
import LatticeShield.Proof.WsReads
import LatticeShield.Relay.WsSession
import LatticeShield.Proof.WsMessages
import LatticeShield.Bridge.TlsListener
import LatticeShield.Proof.HttpHead
import LatticeShield.Lib.Utf8
import LatticeShield.Proof.VkRouting
import LatticeShield.Lib.Copy
import LatticeShield.Relay.Duplex
import LatticeShield.Proof.Duplex
import LatticeShield.Proof.VkTokens
import LatticeShield.Lib.Json
import LatticeShield.Js.Vk
import LatticeShield.Lib.Http
import LatticeShield.Proof.VkDownload
import LatticeShield.Lib.Machine
import LatticeShield.Client.Backoff
import LatticeShield.Proof.Backoff
import LatticeShield.Proof.AdminRate
import LatticeShield.Proof.Origins
import LatticeShield.Proof.PoolUse
import LatticeShield.Proof.KeyGeneration
import LatticeShield.Lib.Family
import LatticeShield.Client.Handshake
import LatticeShield.System.KeyExchange
import LatticeShield.Proof.KeyExchange
import LatticeShield.Cli.VkShare
import LatticeShield.System.VkDistribution
import LatticeShield.Proof.CliCall
import LatticeShield.Proof.VkLifetime
import LatticeShield.Proof.VkWires
import LatticeShield.Proof.VkDistribution
import LatticeShield.Proof.RotateOrders
import LatticeShield.Lib.Drain
import LatticeShield.Bridge.Shutdown
import LatticeShield.Proof.Shutdown
import LatticeShield.Relay.QuicConnection
import LatticeShield.Proof.QuicStreams
import LatticeShield.System.BrowserSession
import LatticeShield.Proof.BrowserSession
import LatticeShield.Relay.HttpsConnection
import LatticeShield.Proof.VkText
import LatticeShield.Proof.ConnectionKey
import LatticeShield.Proof.HttpsConnections
