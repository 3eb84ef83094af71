import LatticeShield.Bridge.VkShare
import LatticeShield.Bridge.Ws
import LatticeShield.Relay.Bridge

/-!
# Configuration (`latticeshield-bridge/src/config.rs`)

The TOML file as it is parsed, section by section with the defaults of the source, and
`Config::validate`, which turns it into what `server::run` receives. The checks stand in the order
of the source, since the first one that fails is the one reported.

`toml` and `url` are outside the repository; what they make of a text, and the process's
environment variables, are the `Host`. Log lines are left out.
-/

set_option autoImplicit false

namespace LatticeShield.Bridge

open Lib

/-! ## Sections -/

structure ServerConfig where
  listenAddr : String := "0.0.0.0:8443"
  backendAddr : String := "127.0.0.1:8080"
  maxFrameSize : Nat := 64 * 1024
  handshakeTimeoutSecs : UInt64 := 10
  maxConnectionsPerIp : UInt32 := 50
deriving DecidableEq, Repr

structure CryptoConfig where
  signingKeyPath : String := "./keys/server.sk"
deriving DecidableEq, Repr

structure MetricsConfig where
  listenAddr : String := "0.0.0.0:8444"
deriving DecidableEq, Repr

structure LoggingConfig where
  level : String := "info"
deriving DecidableEq, Repr

structure AdminConfig where
  enabled : Bool := false
  listenAddr : String := "127.0.0.1:8445"
  controlPlaneVkPath : Option String := none
  rateLimitPerSecond : UInt32 := 5
  handshakeTimeoutSecs : UInt64 := 10
deriving DecidableEq, Repr

structure AuthConfig where
  clientVkPath : Option String := none
  requireClientAuth : Bool := true
deriving DecidableEq, Repr

structure ControlPlaneConfig where
  enabled : Bool := false
  endpoint : String := ""
  agentName : String := ""
  heartbeatIntervalSecs : UInt64 := 30
  installToken : Option String := none
  cloudVkPath : Option String := none
deriving DecidableEq, Repr

structure KeyRotationConfig where
  enabled : Bool := false
  maxBytesPerKey : UInt64 := 10737418240
  maxSecondsPerKey : UInt64 := 86400
deriving DecidableEq, Repr

structure TlsConfig where
  enabled : Bool := false
  listenAddr : String := "0.0.0.0:8440"
  certPath : String := "./keys/tls.crt"
  keyPath : String := "./keys/tls.key"
deriving DecidableEq, Repr

structure QuicConfig where
  enabled : Bool := false
  listenAddr : String := "0.0.0.0:8441"
  certPath : Option String := none
  keyPath : Option String := none
deriving DecidableEq, Repr

structure WsConfig where
  enabled : Bool := false
  listenAddr : String := "0.0.0.0:8446"
  certPath : Option String := none
  keyPath : Option String := none
  allowedOrigins : List String := []
  handshakeTimeoutSecs : UInt64 := 10
  maxConnectionsPerIp : UInt32 := 100
deriving DecidableEq, Repr

structure Config where
  server : ServerConfig := {}
  crypto : CryptoConfig := {}
  metrics : MetricsConfig := {}
  logging : LoggingConfig := {}
  controlPlane : ControlPlaneConfig := {}
  keyRotation : KeyRotationConfig := {}
  tls : TlsConfig := {}
  quic : QuicConfig := {}
  auth : AuthConfig := {}
  admin : AdminConfig := {}
  websocket : WsConfig := {}
deriving DecidableEq, Repr

/-- What `server::run` receives; `ValidConfig` is the part of it the relay loop reads. Durations
are seconds. -/
structure RunConfig extends ValidConfig where
  listenAddr : SocketAddr
  backendAddr : SocketAddr
  metricsAddr : SocketAddr
  handshakeTimeoutSecs : UInt64
  maxConnectionsPerIp : UInt32
  signingKeyPath : String
  logLevel : String
  controlPlaneEnabled : Bool
  controlPlaneEndpoint : String
  controlPlaneAgentName : String
  heartbeatInterval : UInt64
  keyRotationInterval : UInt64
  tlsEnabled : Bool
  tlsListenAddr : SocketAddr
  tlsCertPath : String
  tlsKeyPath : String
  quicEnabled : Bool
  quicListenAddr : SocketAddr
  quicCertPath : String
  quicKeyPath : String
  clientAuthEnabled : Bool
  clientVkPath : Option String
  adminEnabled : Bool
  adminListenAddr : SocketAddr
  adminControlPlaneVkPath : Option String
  adminRateLimitPerSecond : UInt32
  adminHandshakeTimeoutSecs : UInt64
  controlPlaneInstallToken : Option String
  cloudVkPath : Option String
  shutdownTimeout : UInt64
  wsEnabled : Bool
  wsListenAddr : SocketAddr
  wsCertPath : String
  wsKeyPath : String
  wsAllowedOrigins : List NormalizedOrigin
  wsHandshakeTimeoutSecs : UInt64
  wsMaxConnectionsPerIp : UInt32
  vkShareMaxTokens : Nat

/-- What configuration depends on besides the file. -/
structure Host where
  parseToml : String → Option Config
  parseUrl : String → Option Url
  /-- `std::env::var(..).ok()`. -/
  env : String → Option String

inductive ConfigError where
  /-- A `.context(..)` on what could not be parsed. -/
  | invalid (context : String)
  /-- A check with nothing but a message. -/
  | refused (message : String)
  /-- A number out of its range, with the number. -/
  | outOfRange (message : String) (got : Nat)
  /-- `"{field} ({addr}) conflicts with {other} — {reason}"`. -/
  | conflicts (field : String) (addr : SocketAddr) (other reason : String)
  | invalidOrigin (entry : String) (e : OriginError)
deriving DecidableEq

/-! ## Checks -/

namespace Config

def parseAddr (context addr : String) : Except ConfigError SocketAddr :=
  okOr (SocketAddr.parse addr) (.invalid context)

def differentPorts : String := "they must be different ports"

/-- `if addr == other { bail! }`, where the other listener is up. -/
def refuseConflict (field : String) (addr : SocketAddr) (up : Bool) (other : String)
    (otherAddr : SocketAddr) (reason : String := differentPorts) : Except ConfigError Unit :=
  refuseIf (up && decide (addr = otherAddr)) (.conflicts field addr other reason)

def vkShareMaxTokens (host : Host) : Nat :=
  match host.env "LATTICE_VK_TOKEN_MAX" with
  | none => VkShare.defaultTokenMax
  | some val =>
    if val = "" then VkShare.defaultTokenMax
    else match parseUnsigned 64 val with
      | some n => if 0 < n then n else VkShare.defaultTokenMax
      | none => VkShare.defaultTokenMax

def parseOrigins (host : Host) : List String → Except ConfigError (List NormalizedOrigin)
  | [] => .ok []
  | s :: rest =>
    match NormalizedOrigin.parse host.parseUrl s with
    | .error e => .error (.invalidOrigin s e)
    | .ok origin => do
      let origins ← parseOrigins host rest
      return origin :: origins

def checkFrameSize (n : Nat) : Except ConfigError (PLift (ValidFrameSize n)) :=
  if h : ValidFrameSize n then .ok ⟨h⟩
  else .error (.outOfRange
    "server.max_frame_size must be between 1024 and 16777216 (16 MiB), got " n)

def checkServer (server : ServerConfig) : Except ConfigError Unit := do
  refuseIf (server.handshakeTimeoutSecs < 1)
    (.outOfRange "server.handshake_timeout_secs must be at least 1, got "
      server.handshakeTimeoutSecs.toNat)
  refuseIf (server.maxConnectionsPerIp = 0)
    (.refused "server.max_connections_per_ip must be at least 1")

def checkControlPlane (host : Host) (cp : ControlPlaneConfig) : Except ConfigError Unit := do
  refuseIf (cp.enabled && decide (cp.endpoint = ""))
    (.refused "control_plane.endpoint must be set when control_plane.enabled = true")
  refuseIf (cp.enabled && decide (cp.endpoint ≠ "") && (host.parseUrl cp.endpoint).isNone)
    (.invalid "control_plane.endpoint is not a valid URL")

def checkBytesPerKey (n : UInt64) : Except ConfigError (PLift (1048576 ≤ n)) :=
  if h : 1048576 ≤ n then .ok ⟨h⟩
  else .error (.outOfRange
    "key_rotation.max_bytes_per_key must be at least 1048576 (1 MiB), got " n.toNat)

def checkTls (tls : TlsConfig) (listenAddr metricsAddr tlsListenAddr : SocketAddr) :
    Except ConfigError Unit :=
  if tls.enabled then do
    refuseIf (tls.certPath = "") (.refused "tls.cert_path must be set when tls.enabled = true")
    refuseIf (tls.keyPath = "") (.refused "tls.key_path must be set when tls.enabled = true")
    refuseConflict "tls.listen_addr" tlsListenAddr true "server.listen_addr" listenAddr
    refuseConflict "tls.listen_addr" tlsListenAddr true "metrics.listen_addr" metricsAddr
  else .ok ()

def checkQuic (quic : QuicConfig) (tlsEnabled : Bool)
    (listenAddr metricsAddr tlsListenAddr quicListenAddr : SocketAddr) : Except ConfigError Unit :=
  if quic.enabled then do
    refuseIf quic.certPath.isNone
      (.refused "quic.cert_path must be set when quic.enabled = true")
    refuseIf quic.keyPath.isNone
      (.refused "quic.key_path must be set when quic.enabled = true")
    refuseConflict "quic.listen_addr" quicListenAddr true "server.listen_addr" listenAddr
    refuseConflict "quic.listen_addr" quicListenAddr tlsEnabled "tls.listen_addr" tlsListenAddr
      "same addr/port on UDP vs TCP is confusing, use different ports"
    refuseConflict "quic.listen_addr" quicListenAddr true "metrics.listen_addr" metricsAddr
  else .ok ()

def checkAuth (auth : AuthConfig) : Except ConfigError Unit :=
  refuseIf (auth.requireClientAuth && auth.clientVkPath.isNone)
    (.refused ("[auth] require_client_auth = true but client_vk_path is not set. " ++
      "Configure [auth].client_vk_path or set require_client_auth = false to opt out."))

def checkAdmin (admin : AdminConfig) (tlsEnabled quicEnabled : Bool)
    (listenAddr metricsAddr tlsListenAddr quicListenAddr adminListenAddr : SocketAddr) :
    Except ConfigError Unit :=
  if admin.enabled then do
    refuseIf admin.controlPlaneVkPath.isNone
      (.refused ("admin.control_plane_vk_path must be set when admin.enabled = true\n" ++
        "Hint: ejecuta `latticeshield-bridge admin-keygen ./keys` para generar las claves."))
    refuseIf (admin.rateLimitPerSecond < 1)
      (.outOfRange "admin.rate_limit_per_second must be at least 1, got "
        admin.rateLimitPerSecond.toNat)
    refuseIf (admin.handshakeTimeoutSecs < 1)
      (.outOfRange "admin.handshake_timeout_secs must be at least 1, got "
        admin.handshakeTimeoutSecs.toNat)
    refuseConflict "admin.listen_addr" adminListenAddr true "server.listen_addr" listenAddr
    refuseConflict "admin.listen_addr" adminListenAddr true "metrics.listen_addr" metricsAddr
    refuseConflict "admin.listen_addr" adminListenAddr tlsEnabled "tls.listen_addr" tlsListenAddr
    refuseConflict "admin.listen_addr" adminListenAddr quicEnabled "quic.listen_addr"
      quicListenAddr
  else .ok ()

def checkWebsocket (ws : WsConfig) (tlsEnabled quicEnabled adminEnabled : Bool)
    (listenAddr metricsAddr tlsListenAddr quicListenAddr adminListenAddr wsListenAddr :
      SocketAddr) : Except ConfigError Unit :=
  if ws.enabled then do
    refuseIf ws.certPath.isNone
      (.refused "websocket.cert_path must be set when websocket.enabled = true")
    refuseIf ws.keyPath.isNone
      (.refused "websocket.key_path must be set when websocket.enabled = true")
    refuseConflict "websocket.listen_addr" wsListenAddr true "server.listen_addr" listenAddr
    refuseConflict "websocket.listen_addr" wsListenAddr true "metrics.listen_addr" metricsAddr
    refuseConflict "websocket.listen_addr" wsListenAddr tlsEnabled "tls.listen_addr" tlsListenAddr
    refuseConflict "websocket.listen_addr" wsListenAddr quicEnabled "quic.listen_addr"
      quicListenAddr
    refuseConflict "websocket.listen_addr" wsListenAddr adminEnabled "admin.listen_addr"
      adminListenAddr
  else .ok ()

/-! ## Validation -/

def validate (host : Host) (self : Config) : Except ConfigError RunConfig := do
  let listenAddr ← parseAddr "invalid server.listen_addr" self.server.listenAddr
  let backendAddr ← parseAddr "invalid server.backend_addr" self.server.backendAddr
  let metricsAddr ← parseAddr "invalid metrics.listen_addr" self.metrics.listenAddr
  let ⟨validFrameSize⟩ ← checkFrameSize self.server.maxFrameSize
  checkServer self.server
  refuseIf (self.crypto.signingKeyPath = "")
    (.refused "crypto.signing_key_path must not be empty")
  checkControlPlane host self.controlPlane
  let ⟨validBytesPerKey⟩ ← checkBytesPerKey self.keyRotation.maxBytesPerKey
  refuseIf (self.keyRotation.maxSecondsPerKey < 60)
    (.outOfRange "key_rotation.max_seconds_per_key must be at least 60, got "
      self.keyRotation.maxSecondsPerKey.toNat)
  let tlsListenAddr ← parseAddr "invalid tls.listen_addr" self.tls.listenAddr
  checkTls self.tls listenAddr metricsAddr tlsListenAddr
  let quicListenAddr ← parseAddr "invalid quic.listen_addr" self.quic.listenAddr
  checkQuic self.quic self.tls.enabled listenAddr metricsAddr tlsListenAddr quicListenAddr
  checkAuth self.auth
  let adminListenAddr ← parseAddr "invalid admin.listen_addr" self.admin.listenAddr
  checkAdmin self.admin self.tls.enabled self.quic.enabled listenAddr metricsAddr tlsListenAddr
    quicListenAddr adminListenAddr
  let wsListenAddr ← parseAddr "invalid websocket.listen_addr" self.websocket.listenAddr
  checkWebsocket self.websocket self.tls.enabled self.quic.enabled self.admin.enabled listenAddr
    metricsAddr tlsListenAddr quicListenAddr adminListenAddr wsListenAddr
  let wsAllowedOrigins ← parseOrigins host self.websocket.allowedOrigins
  return {
    maxFrameSize := self.server.maxFrameSize
    keyRotationEnabled := self.keyRotation.enabled
    maxBytesPerKey := self.keyRotation.maxBytesPerKey
    validFrameSize, validBytesPerKey
    listenAddr, backendAddr, metricsAddr
    handshakeTimeoutSecs := self.server.handshakeTimeoutSecs
    maxConnectionsPerIp := self.server.maxConnectionsPerIp
    signingKeyPath := self.crypto.signingKeyPath
    logLevel := self.logging.level
    controlPlaneEnabled := self.controlPlane.enabled
    controlPlaneEndpoint := self.controlPlane.endpoint
    controlPlaneAgentName :=
      if self.controlPlane.agentName = "" then (host.env "HOSTNAME").getD "unknown"
      else self.controlPlane.agentName
    heartbeatInterval := max self.controlPlane.heartbeatIntervalSecs 5
    keyRotationInterval := self.keyRotation.maxSecondsPerKey
    tlsEnabled := self.tls.enabled
    tlsListenAddr
    tlsCertPath := self.tls.certPath
    tlsKeyPath := self.tls.keyPath
    quicEnabled := self.quic.enabled
    quicListenAddr
    quicCertPath := self.quic.certPath.getD ""
    quicKeyPath := self.quic.keyPath.getD ""
    clientAuthEnabled := self.auth.requireClientAuth && self.auth.clientVkPath.isSome
    clientVkPath := self.auth.clientVkPath
    adminEnabled := self.admin.enabled
    adminListenAddr
    adminControlPlaneVkPath := self.admin.controlPlaneVkPath
    adminRateLimitPerSecond := self.admin.rateLimitPerSecond
    adminHandshakeTimeoutSecs := self.admin.handshakeTimeoutSecs
    controlPlaneInstallToken :=
      ((host.env "INSTALL_TOKEN").filter (· ≠ "")).or self.controlPlane.installToken
    cloudVkPath := self.controlPlane.cloudVkPath
    shutdownTimeout := UInt64.ofNat
      (((host.env "SHUTDOWN_TIMEOUT_SECS").bind (parseUnsigned 64)).getD 30)
    wsEnabled := self.websocket.enabled
    wsListenAddr
    wsCertPath := self.websocket.certPath.getD ""
    wsKeyPath := self.websocket.keyPath.getD ""
    wsAllowedOrigins
    wsHandshakeTimeoutSecs := self.websocket.handshakeTimeoutSecs
    wsMaxConnectionsPerIp := self.websocket.maxConnectionsPerIp
    vkShareMaxTokens := vkShareMaxTokens host }

/-- `Config::load`, with the file's contents if it could be read as text. -/
def load (host : Host) (path : String) (contents : Option String) :
    Except ConfigError RunConfig := do
  let contents ← okOr contents (.invalid s!"cannot read config file: {path}")
  let config ← okOr (host.parseToml contents) (.invalid s!"invalid TOML in {path}")
  config.validate host

end Config

end LatticeShield.Bridge
