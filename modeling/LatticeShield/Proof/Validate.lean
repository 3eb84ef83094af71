import LatticeShield.Bridge.Config

/-!
# What an accepted configuration has passed

`Config::validate` is one long sequence of `?`s. It is taken apart here, once: an accepted
configuration has passed every check of its sections, and what `server::run` receives are the
parsed addresses and the file's own numbers. The results about single sections start from this
and do not see the sequence.
-/

set_option autoImplicit false

namespace LatticeShield.Bridge

open Lib

namespace Config

/-- The checks `validate` has made, stated of what it returned. They are kept as equations, and
each is opened where it is needed. -/
structure Passed (config : Config) (valid : RunConfig) : Prop where
  server : checkServer config.server = .ok ()
  tls : checkTls config.tls valid.listenAddr valid.metricsAddr valid.tlsListenAddr = .ok ()
  quic : checkQuic config.quic config.tls.enabled valid.listenAddr valid.metricsAddr
    valid.tlsListenAddr valid.quicListenAddr = .ok ()
  auth : checkAuth config.auth = .ok ()
  admin : checkAdmin config.admin config.tls.enabled config.quic.enabled valid.listenAddr
    valid.metricsAddr valid.tlsListenAddr valid.quicListenAddr valid.adminListenAddr = .ok ()
  websocket : checkWebsocket config.websocket config.tls.enabled config.quic.enabled
    config.admin.enabled valid.listenAddr valid.metricsAddr valid.tlsListenAddr
    valid.quicListenAddr valid.adminListenAddr valid.wsListenAddr = .ok ()

/-- The addresses `validate` has read. -/
structure Parsed (config : Config) (valid : RunConfig) : Prop where
  listenAddr : SocketAddr.parse config.server.listenAddr = some valid.listenAddr
  metricsAddr : SocketAddr.parse config.metrics.listenAddr = some valid.metricsAddr
  tlsListenAddr : SocketAddr.parse config.tls.listenAddr = some valid.tlsListenAddr
  quicListenAddr : SocketAddr.parse config.quic.listenAddr = some valid.quicListenAddr
  adminListenAddr : SocketAddr.parse config.admin.listenAddr = some valid.adminListenAddr
  wsListenAddr : SocketAddr.parse config.websocket.listenAddr = some valid.wsListenAddr

/-- What is carried over as it stands in the file, so that its checks are checks on the value
which is used. -/
structure Carried (config : Config) (valid : RunConfig) : Prop where
  maxFrameSize : valid.maxFrameSize = config.server.maxFrameSize
  handshakeTimeoutSecs : valid.handshakeTimeoutSecs = config.server.handshakeTimeoutSecs
  maxConnectionsPerIp : valid.maxConnectionsPerIp = config.server.maxConnectionsPerIp
  wsMaxConnectionsPerIp : valid.wsMaxConnectionsPerIp = config.websocket.maxConnectionsPerIp
  clientAuthEnabled : valid.clientAuthEnabled =
    (config.auth.requireClientAuth && config.auth.clientVkPath.isSome)
  clientVkPath : valid.clientVkPath = config.auth.clientVkPath
  tlsEnabled : valid.tlsEnabled = config.tls.enabled
  quicEnabled : valid.quicEnabled = config.quic.enabled
  adminEnabled : valid.adminEnabled = config.admin.enabled
  wsEnabled : valid.wsEnabled = config.websocket.enabled

/-- The whole sequence, with the allowlist of origins it ends with. It is read once, from the
first check to the last, and what a module needs of a valid configuration it takes from these
parts. -/
theorem validate_parts {host : Host} {config : Config} {valid : RunConfig}
    (h : config.validate host = .ok valid) :
    (Passed config valid ∧ Parsed config valid ∧ Carried config valid) ∧
      parseOrigins host config.websocket.allowedOrigins = .ok valid.wsAllowedOrigins := by
  unfold Config.validate at h
  obtain ⟨listenAddr, hlisten, h⟩ := bind_eq_ok.mp h
  obtain ⟨backendAddr, -, h⟩ := bind_eq_ok.mp h
  obtain ⟨metricsAddr, hmetrics, h⟩ := bind_eq_ok.mp h
  obtain ⟨⟨frameSize⟩, -, h⟩ := bind_eq_ok.mp h
  obtain ⟨_, hserver, h⟩ := bind_eq_ok.mp h
  obtain ⟨_, -, h⟩ := bind_eq_ok.mp h
  obtain ⟨_, -, h⟩ := bind_eq_ok.mp h
  obtain ⟨⟨bytesPerKey⟩, -, h⟩ := bind_eq_ok.mp h
  obtain ⟨_, -, h⟩ := bind_eq_ok.mp h
  obtain ⟨tlsListenAddr, htlsAddr, h⟩ := bind_eq_ok.mp h
  obtain ⟨_, htls, h⟩ := bind_eq_ok.mp h
  obtain ⟨quicListenAddr, hquicAddr, h⟩ := bind_eq_ok.mp h
  obtain ⟨_, hquic, h⟩ := bind_eq_ok.mp h
  obtain ⟨_, hauth, h⟩ := bind_eq_ok.mp h
  obtain ⟨adminListenAddr, hadminAddr, h⟩ := bind_eq_ok.mp h
  obtain ⟨_, hadmin, h⟩ := bind_eq_ok.mp h
  obtain ⟨wsListenAddr, hwsAddr, h⟩ := bind_eq_ok.mp h
  obtain ⟨_, hws, h⟩ := bind_eq_ok.mp h
  obtain ⟨origins, horigins, h⟩ := bind_eq_ok.mp h
  obtain rfl := Except.ok.inj h
  refine ⟨⟨⟨hserver, htls, hquic, hauth, hadmin, hws⟩, ?_, ?_⟩, horigins⟩
  · exact ⟨okOr_eq_ok.mp hlisten, okOr_eq_ok.mp hmetrics, okOr_eq_ok.mp htlsAddr,
      okOr_eq_ok.mp hquicAddr, okOr_eq_ok.mp hadminAddr, okOr_eq_ok.mp hwsAddr⟩
  · exact ⟨rfl, rfl, rfl, rfl, rfl, rfl, rfl, rfl, rfl, rfl⟩

theorem validate_eq_ok {host : Host} {config : Config} {valid : RunConfig}
    (h : config.validate host = .ok valid) :
    Passed config valid ∧ Parsed config valid ∧ Carried config valid :=
  (validate_parts h).1

theorem validate_origins {host : Host} {config : Config} {valid : RunConfig}
    (h : config.validate host = .ok valid) :
    parseOrigins host config.websocket.allowedOrigins = .ok valid.wsAllowedOrigins :=
  (validate_parts h).2

/-- The bridge starts with what its file says, once that has passed the checks, and with nothing
else: what is shown of a validated configuration is shown of every one that is loaded. -/
theorem load_eq_ok {host : Host} {path : String} {contents : Option String} {valid : RunConfig} :
    load host path contents = .ok valid ↔ ∃ text config, contents = some text ∧
      host.parseToml text = some config ∧ config.validate host = .ok valid := by
  constructor
  · intro h
    obtain ⟨text, htext, h⟩ := bind_eq_ok.mp h
    obtain ⟨config, hconfig, hvalid⟩ := bind_eq_ok.mp h
    exact ⟨text, config, okOr_eq_ok.mp htext, okOr_eq_ok.mp hconfig, hvalid⟩
  · rintro ⟨text, config, rfl, hconfig, hvalid⟩
    exact bind_eq_ok.mpr ⟨text, rfl, bind_eq_ok.mpr ⟨config, okOr_eq_ok.mpr hconfig, hvalid⟩⟩

theorem refuseConflict_eq_ok {field other reason : String} {addr otherAddr : SocketAddr}
    {up : Bool} : refuseConflict field addr up other otherAddr reason = .ok () ↔
      (up = true → addr ≠ otherAddr) := by
  rw [refuseConflict, refuseIf_eq_ok]
  cases up <;> simp

end Config

/-- A host that knows no URL and has no variable set. -/
def sampleHost : Host := ⟨fun _ => none, fun _ => none, fun _ => none⟩

end LatticeShield.Bridge
