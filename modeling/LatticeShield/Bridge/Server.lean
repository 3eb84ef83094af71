import LatticeShield.Bridge.Config
import LatticeShield.Bridge.Identity
import LatticeShield.Crypto.Handshake

/-!
# The bridge's listeners and sessions (`latticeshield-bridge/src/server.rs`, `session.rs`)

`server::run` up to its listeners, and then what a connection goes through on either of the two
listeners that end in `handle_with_handshake_timeout`: the PQC one on plain TCP, and the WebSocket
one behind TLS and an upgrade. Each listener builds the context of its sessions itself.

A connection is a task, so the system is one phase for every connection and any of them may move
next. What the peer sends is put in its `inbox` as it arrives, in any pieces; `read_exact` takes
the response out of it once enough is there, and the relay loop its frames a byte at a time. A
timeout, a failed read or write and a peer that hangs up are events that may come whenever the code
awaits.

The per-IP limits only decide which connections are handed to a session and are not here. The
history fields say what was done to the backend; `TcpStream::connect` and `write_all` count whether
or not they succeed.
-/

set_option autoImplicit false

namespace LatticeShield.Bridge

open Lib

/-! ## Start -/

structure Server where
  config : RunConfig
  identity : ServerIdentity
  clientVk : Option VerifyingKey

/-- What `run` finds when it starts. -/
structure Startup where
  fs : FileSystem
  /-- `metrics::init`, with the error's text. -/
  metricsInit : Except String Unit
  /-- `tls::build_acceptor` on the TLS listener's files. -/
  tlsAcceptor : Except String Unit

/-- The key client authentication is checked against, if it is switched on. `validate` has made
sure of the path, so the `expect` cannot fail on a validated configuration. -/
def loadClientVk (fs : FileSystem) (config : RunConfig) : Except String (Option VerifyingKey) :=
  if config.clientAuthEnabled then do
    let path ← okOr config.clientVkPath "client_auth_enabled => client_vk_path is Some"
    let vk ← (ClientVerifyingIdentity.load fs path).mapError fun e =>
      s!"no se pudo cargar la VK del cliente desde {path}: {e.display}\n" ++
        "Hint: distribuye la VK del cliente en la ruta configurada en [auth].client_vk_path."
    return some vk
  else .ok none

def loadAdminVk (fs : FileSystem) (config : RunConfig) : Except String (Option VerifyingKey) :=
  if config.adminEnabled then do
    let path ← okOr config.adminControlPlaneVkPath
      ("admin_enabled => admin_control_plane_vk_path is Some — " ++
        "validado en Config::validate()")
    let vk ← (ControlPlaneVerifyingIdentity.load fs path).mapError fun e =>
      s!"no se pudo cargar la VK del control plane desde {path}: {e.display}\n" ++
        "Hint: ejecuta `latticeshield-bridge admin-keygen ./keys` para generar las claves."
    return some vk
  else .ok none

def checkTlsAcceptor (env : Startup) (config : RunConfig) : Except String Unit :=
  if config.tlsEnabled then
    env.tlsAcceptor.mapError fun e => s!"TLS setup failed: {e}\n" ++
      "Hint: use `latticeshield-bridge tls-keygen ./keys` to generate a self-signed cert."
  else .ok ()

/-- `run` until its listeners are up. A failed `expect` is a panic, and ends it too; the first
failure in the order of the code is the one that is reported. -/
def Server.start (env : Startup) (config : RunConfig) : Except String Server := do
  env.metricsInit.mapError fun e => s!"error inicializando Prometheus recorder: {e}"
  let identity ← (ServerIdentity.load env.fs config.signingKeyPath).mapError fun e =>
    s!"no se pudo cargar el keypair del servidor: {e}\n" ++
      "Hint: ejecuta `latticeshield-bridge --keygen ./keys` para generar las claves."
  let clientVk ← loadClientVk env.fs config
  checkTlsAcceptor env config
  let _adminVk ← loadAdminVk env.fs config
  return { config, identity, clientVk }

/-- The addresses `run` binds its listeners to: the proxy's and the metrics server's always, the
others where they are enabled. -/
def RunConfig.listenAddrs (config : RunConfig) : List SocketAddr :=
  [config.listenAddr, config.metricsAddr] ++
    (if config.tlsEnabled then [config.tlsListenAddr] else []) ++
    (if config.quicEnabled then [config.quicListenAddr] else []) ++
    (if config.adminEnabled then [config.adminListenAddr] else []) ++
    (if config.wsEnabled then [config.wsListenAddr] else [])

/-! ## Sessions -/

inductive Listener where
  | pqc
  | ws
deriving DecidableEq, Repr

structure SessionContext where
  identity : ServerIdentity
  clientAuth : Option VerifyingKey

/-- The context each listener builds for its sessions. The two are written out separately in the
source, and both carry the client's key. -/
def Server.context (server : Server) : Listener → SessionContext
  | .pqc => { identity := server.identity, clientAuth := server.clientVk }
  | .ws => { identity := server.identity, clientAuth := server.clientVk }

variable (H : HandshakeSuite)

inductive Phase where
  | absent
  /-- Accepted on the WebSocket listener: the TLS handshake and the upgrade. -/
  | upgrading
  /-- `handle_with_handshake_timeout` has been called. -/
  | entered (listener : Listener)
  /-- The hello is out and `read_exact` waits for the response. -/
  | handshake (listener : Listener) (server : ServerHandshake H)
  /-- `TcpStream::connect` has been called. -/
  | connecting (sessionKey : Key)
  | relaying (relay : Relay)
  | closed

structure Connection where
  phase : Phase H
  /-- What has arrived from the peer and was not read. -/
  inbox : Bytes
  /-- The hello this connection was sent. -/
  hello : Option (ByteArr serverHelloLen)
  /-- The response the peer presented. -/
  response : Bytes

variable {H}

def Connection.new : Connection H := ⟨.absent, [], none, []⟩

def Connection.goto (c : Connection H) (phase : Phase H) : Connection H := { c with phase }

inductive BackendCall where
  | connect
  | writeAll (data : Bytes)
deriving DecidableEq, Repr

inductive Event where
  /-- The connection is accepted and within its limit. -/
  | accept (listener : Listener)
  /-- The TLS handshake and the upgrade have ended; `ok` is whether both succeeded. -/
  | upgraded (ok : Bool)
  /-- The handshake draws its random bytes; `sent` is whether the hello could be written. -/
  | hello (rng : Rng) (sent : Bool)
  | arrive (bytes : Bytes)
  /-- The pending `read_exact` finds its bytes. -/
  | readResponse
  /-- `handshake_timeout` has passed. -/
  | timeout
  /-- The pending read fails, or finds the end of the stream. -/
  | readFailed
  | connected (ok : Bool)
  /-- The pending `read_frame` takes a byte; `takes` is whether a write to the backend succeeds. -/
  | frameByte (takes : Bool)
  /-- Another arm of the relay loop completes. -/
  | arm (arm : Arm) (env : Env)

/-- The response a session waits for, and the key it makes of it. With a client key configured the
response is the longer, signed one; `none` is a response that has not arrived yet. -/
def respond (auth : Option VerifyingKey) (server : ServerHandshake H) (inbox : Bytes) :
    Option (Bytes × Except HandshakeError Key) :=
  match auth with
  | some vk =>
    (ByteArr.tryInto clientResponseSignedLen (inbox.take clientResponseSignedLen)).map fun buf =>
      (buf.toList, server.completeFromWireSigned buf vk)
  | none =>
    (ByteArr.tryInto clientResponseLen (inbox.take clientResponseLen)).map fun buf =>
      (buf.toList, server.completeFromWire buf)

/-- What the relay loop's move leaves: the session ends with its loop, in whatever way the loop
has ended. -/
def afterRelay (relay : Relay) : Phase H :=
  if relay.finished.isSome then .closed else .relaying relay

/-- The backend write a completed `read_frame` leads to. An empty DATA frame closes the session
without a write, and a rotation or an error writes nothing either. -/
def backendWrite : Option (Except FrameError FrameResult) → List BackendCall
  | some (.ok (.data data)) => if data = [] then [] else [.writeAll data]
  | _ => []

variable (C : CipherSuite) (server : Server)

/-- One connection's move, with its calls to the backend. An event that does not fit the phase
does nothing; the events carry what comes from outside, the bytes, the random numbers and the
outcomes of the writes. -/
def Connection.step (c : Connection H) (event : Event) : Connection H × List BackendCall :=
  match event, c.phase with
  | .accept .pqc, .absent => (c.goto (.entered .pqc), [])
  | .accept .ws, .absent =>
    if server.config.wsEnabled then (c.goto .upgrading, []) else (c, [])
  | .upgraded ok, .upgrading => (c.goto (if ok then .entered .ws else .closed), [])
  | .hello rng sent, .entered listener =>
    let (handshake, rng) := ServerHandshake.new (H := H) rng
    match handshake.serverHelloSignedBytes (server.context listener).identity.signingKey rng with
    | (.error _, _) => (c.goto .closed, [])
    | (.ok _, _) =>
      if sent then
        ({ c.goto (.handshake listener handshake) with
          hello := some handshake.serverHelloBytes }, [])
      else (c.goto .closed, [])
  | .arrive bytes, _ => ({ c with inbox := c.inbox ++ bytes }, [])
  | .readResponse, .handshake listener handshake =>
    match respond (server.context listener).clientAuth handshake c.inbox with
    | none => (c, [])
    | some (response, result) =>
      let c := { c with inbox := c.inbox.drop response.length, response }
      match result with
      | .error _ => (c.goto .closed, [])
      | .ok sessionKey => (c.goto (.connecting sessionKey), [.connect])
  | .timeout, .entered _ => (c.goto .closed, [])
  | .timeout, .handshake _ _ => (c.goto .closed, [])
  | .readFailed, .handshake _ _ => (c.goto .closed, [])
  | .readFailed, .relaying relay => (c.goto (afterRelay relay.receiveEof.1), [])
  | .connected ok, .connecting sessionKey =>
    (c.goto (if ok then .relaying (.new server.config.toValidConfig sessionKey) else .closed), [])
  | .frameByte takes, .relaying relay =>
    match c.inbox with
    | [] => (c, [])
    | b :: rest =>
      let (relay, result) := relay.receive C b takes
      ({ c.goto (afterRelay relay) with inbox := rest }, backendWrite result)
  | .arm arm env, .relaying relay =>
    (c.goto (afterRelay (relay.iterate C server.config.toValidConfig arm env).1), [])
  | _, _ => (c, [])

/-! ## The system -/

variable (H) in
structure State where
  conns : Nat → Connection H
  /-- Every call to the backend, with the connection it was made for. -/
  calls : List (Nat × BackendCall)

namespace State

def new : State H := ⟨fun _ => .new, []⟩

def step (s : State H) (ie : Nat × Event) : State H :=
  let (c, calls) := (s.conns ie.1).step C server ie.2
  { conns := Function.update s.conns ie.1 c
    calls := s.calls ++ calls.map (ie.1, ·) }

def run (events : List (Nat × Event)) : State H := events.foldl (step C server) new

end State

end LatticeShield.Bridge
