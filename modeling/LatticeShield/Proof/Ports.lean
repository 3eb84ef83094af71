import LatticeShield.Lib.Lists
import LatticeShield.Proof.Validate
import LatticeShield.Bridge.Server

/-!
# Which listeners may share a port

`Config::validate` compares the addresses of the listeners, pair by pair. Fourteen of the fifteen
pairs are compared, `server` with `metrics` is not, and what is compared is the whole socket
address. So an accepted configuration has distinct ports exactly when these two do not matter:
the proxy and the metrics server have different addresses, and no two listeners differ in the
address alone.
-/

set_option autoImplicit false

namespace LatticeShield.Bridge

open Lib

/-! ## What was compared -/

section Checks

variable {tlsEnabled quicEnabled adminEnabled : Bool}
  {listenAddr metricsAddr tlsListenAddr quicListenAddr adminListenAddr wsListenAddr : SocketAddr}

theorem Config.checkTls_eq_ok {tls : TlsConfig}
    (h : Config.checkTls tls listenAddr metricsAddr tlsListenAddr = .ok ())
    (hon : tls.enabled = true) : tlsListenAddr ≠ listenAddr ∧ tlsListenAddr ≠ metricsAddr := by
  rw [Config.checkTls, if_pos hon] at h
  obtain ⟨_, -, h⟩ := bind_eq_ok.mp h
  obtain ⟨_, -, h⟩ := bind_eq_ok.mp h
  obtain ⟨_, hserver, hmetrics⟩ := bind_eq_ok.mp h
  exact ⟨Config.refuseConflict_eq_ok.mp hserver rfl, Config.refuseConflict_eq_ok.mp hmetrics rfl⟩

theorem Config.checkQuic_eq_ok {quic : QuicConfig}
    (h : Config.checkQuic quic tlsEnabled listenAddr metricsAddr tlsListenAddr quicListenAddr =
      .ok ()) (hon : quic.enabled = true) :
    quicListenAddr ≠ listenAddr ∧ (tlsEnabled = true → quicListenAddr ≠ tlsListenAddr) ∧
      quicListenAddr ≠ metricsAddr := by
  rw [Config.checkQuic, if_pos hon] at h
  obtain ⟨_, -, h⟩ := bind_eq_ok.mp h
  obtain ⟨_, -, h⟩ := bind_eq_ok.mp h
  obtain ⟨_, hserver, h⟩ := bind_eq_ok.mp h
  obtain ⟨_, htls, hmetrics⟩ := bind_eq_ok.mp h
  exact ⟨Config.refuseConflict_eq_ok.mp hserver rfl, Config.refuseConflict_eq_ok.mp htls,
    Config.refuseConflict_eq_ok.mp hmetrics rfl⟩

theorem Config.checkAdmin_eq_ok {admin : AdminConfig}
    (h : Config.checkAdmin admin tlsEnabled quicEnabled listenAddr metricsAddr tlsListenAddr
      quicListenAddr adminListenAddr = .ok ()) (hon : admin.enabled = true) :
    adminListenAddr ≠ listenAddr ∧ adminListenAddr ≠ metricsAddr ∧
      (tlsEnabled = true → adminListenAddr ≠ tlsListenAddr) ∧
      (quicEnabled = true → adminListenAddr ≠ quicListenAddr) := by
  rw [Config.checkAdmin, if_pos hon] at h
  obtain ⟨_, -, h⟩ := bind_eq_ok.mp h
  obtain ⟨_, -, h⟩ := bind_eq_ok.mp h
  obtain ⟨_, -, h⟩ := bind_eq_ok.mp h
  obtain ⟨_, hserver, h⟩ := bind_eq_ok.mp h
  obtain ⟨_, hmetrics, h⟩ := bind_eq_ok.mp h
  obtain ⟨_, htls, hquic⟩ := bind_eq_ok.mp h
  exact ⟨Config.refuseConflict_eq_ok.mp hserver rfl, Config.refuseConflict_eq_ok.mp hmetrics rfl,
    Config.refuseConflict_eq_ok.mp htls, Config.refuseConflict_eq_ok.mp hquic⟩

theorem Config.checkWebsocket_eq_ok {ws : WsConfig}
    (h : Config.checkWebsocket ws tlsEnabled quicEnabled adminEnabled listenAddr metricsAddr
      tlsListenAddr quicListenAddr adminListenAddr wsListenAddr = .ok ())
    (hon : ws.enabled = true) :
    wsListenAddr ≠ listenAddr ∧ wsListenAddr ≠ metricsAddr ∧
      (tlsEnabled = true → wsListenAddr ≠ tlsListenAddr) ∧
      (quicEnabled = true → wsListenAddr ≠ quicListenAddr) ∧
      (adminEnabled = true → wsListenAddr ≠ adminListenAddr) := by
  rw [Config.checkWebsocket, if_pos hon] at h
  obtain ⟨_, -, h⟩ := bind_eq_ok.mp h
  obtain ⟨_, -, h⟩ := bind_eq_ok.mp h
  obtain ⟨_, hserver, h⟩ := bind_eq_ok.mp h
  obtain ⟨_, hmetrics, h⟩ := bind_eq_ok.mp h
  obtain ⟨_, htls, h⟩ := bind_eq_ok.mp h
  obtain ⟨_, hquic, hadmin⟩ := bind_eq_ok.mp h
  exact ⟨Config.refuseConflict_eq_ok.mp hserver rfl, Config.refuseConflict_eq_ok.mp hmetrics rfl,
    Config.refuseConflict_eq_ok.mp htls, Config.refuseConflict_eq_ok.mp hquic,
    Config.refuseConflict_eq_ok.mp hadmin⟩

end Checks

/-! ## The listeners of a configuration -/

/-- The addresses in the file of the listeners that will be started. -/
def Config.listenAddrs (config : Config) : List SocketAddr :=
  ([config.server.listenAddr, config.metrics.listenAddr] ++
    (if config.tls.enabled then [config.tls.listenAddr] else []) ++
    (if config.quic.enabled then [config.quic.listenAddr] else []) ++
    (if config.admin.enabled then [config.admin.listenAddr] else []) ++
    (if config.websocket.enabled then [config.websocket.listenAddr] else [])).filterMap
      SocketAddr.parse

theorem listenAddrs_of_validate {host : Host} {config : Config} {valid : RunConfig}
    (h : config.validate host = .ok valid) : valid.listenAddrs = config.listenAddrs := by
  obtain ⟨-, parsed, carried⟩ := Config.validate_eq_ok h
  have hone : ∀ (on : Bool) (text : String) (addr : SocketAddr),
      SocketAddr.parse text = some addr →
      (if on then [text] else []).filterMap SocketAddr.parse = if on then [addr] else [] := by
    intro on text addr haddr
    cases on <;> simp [haddr]
  rw [RunConfig.listenAddrs, Config.listenAddrs, List.filterMap_append, List.filterMap_append,
    List.filterMap_append, List.filterMap_append, hone _ _ _ parsed.tlsListenAddr,
    hone _ _ _ parsed.quicListenAddr, hone _ _ _ parsed.adminListenAddr,
    hone _ _ _ parsed.wsListenAddr, carried.tlsEnabled, carried.quicEnabled, carried.adminEnabled,
    carried.wsEnabled]
  simp only [List.filterMap_cons, List.filterMap_nil, parsed.listenAddr, parsed.metricsAddr]

/-- Every pair of listeners has different addresses, but for the first two: `validate` compares
each of the later ones with all before it, and never the proxy with the metrics server. -/
theorem listenAddrs_nodup_iff {host : Host} {config : Config} {valid : RunConfig}
    (h : config.validate host = .ok valid) :
    valid.listenAddrs.Nodup ↔ valid.listenAddr ≠ valid.metricsAddr := by
  obtain ⟨passed, -, carried⟩ := Config.validate_eq_ok h
  have htls := Config.checkTls_eq_ok passed.tls
  have hquic := Config.checkQuic_eq_ok passed.quic
  have hadmin := Config.checkAdmin_eq_ok passed.admin
  have hws := Config.checkWebsocket_eq_ok passed.websocket
  rw [← carried.tlsEnabled] at htls hquic hadmin hws
  rw [← carried.quicEnabled] at hquic hadmin hws
  rw [← carried.adminEnabled] at hadmin hws
  rw [← carried.wsEnabled] at hws
  -- from the last one on: each listener is compared with every one before it
  unfold RunConfig.listenAddrs
  rw [nodup_append_ite, nodup_append_ite, nodup_append_ite, nodup_append_ite]
  · simp
  · intro hon
    obtain ⟨hserver, hmetrics⟩ := htls hon
    simp [hserver, hmetrics]
  · intro hon
    obtain ⟨hserver, htls, hmetrics⟩ := hquic hon
    rw [forall_mem_append_ite]
    exact ⟨by simp [hserver, hmetrics], htls⟩
  · intro hon
    obtain ⟨hserver, hmetrics, htls, hquic⟩ := hadmin hon
    rw [forall_mem_append_ite, forall_mem_append_ite]
    exact ⟨⟨by simp [hserver, hmetrics], htls⟩, hquic⟩
  · intro hon
    obtain ⟨hserver, hmetrics, htls, hquic, hadmin⟩ := hws hon
    rw [forall_mem_append_ite, forall_mem_append_ite, forall_mem_append_ite]
    exact ⟨⟨⟨by simp [hserver, hmetrics], htls⟩, hquic⟩, hadmin⟩

/-! ## Distinct ports -/

def RunConfig.DistinctPorts (config : RunConfig) : Prop :=
  config.listenAddrs.Pairwise (fun a b => a.port ≠ b.port)

instance (config : RunConfig) : Decidable config.DistinctPorts :=
  inferInstanceAs (Decidable (config.listenAddrs.Pairwise _))

/-- Where the addresses differ, the ports do exactly when none differ in the address alone. The
check of the code is the first half. -/
theorem ports_pairwise_iff {addrs : List SocketAddr} :
    addrs.Pairwise (fun a b => a.port ≠ b.port) ↔
      addrs.Nodup ∧ addrs.Pairwise (fun a b => a.port = b.port → a = b) := by
  rw [List.Nodup, ← List.pairwise_and_iff]
  apply List.Pairwise.iff
  intro a b
  constructor
  · intro hports
    exact ⟨fun hab => hports (congrArg SocketAddr.port hab), fun hport => absurd hport hports⟩
  · rintro ⟨hne, hsame⟩ hport
    exact hne (hsame hport)

/-- **What the collision check gives.** In an accepted configuration the listeners have pairwise
distinct ports exactly when the proxy and the metrics server have different addresses and no two
listeners have one port at different addresses. Neither is checked: whole socket addresses are
compared, and one pair of them is left out. -/
theorem validate_distinct_ports_iff {host : Host} {config : Config} {valid : RunConfig}
    (h : config.validate host = .ok valid) :
    valid.DistinctPorts ↔
      SocketAddr.parse config.server.listenAddr ≠ SocketAddr.parse config.metrics.listenAddr ∧
      config.listenAddrs.Pairwise (fun a b => a.port = b.port → a = b) := by
  obtain ⟨-, parsed, -⟩ := Config.validate_eq_ok h
  rw [RunConfig.DistinctPorts, ports_pairwise_iff, listenAddrs_nodup_iff h,
    listenAddrs_of_validate h, parsed.listenAddr, parsed.metricsAddr, ne_eq, ne_eq,
    Option.some.injEq]

/-- Clients are not authenticated, so no key is needed. -/
def openConfig (serverAddr metricsAddr : String) (tls : TlsConfig) : Config where
  server := { listenAddr := serverAddr }
  metrics := { listenAddr := metricsAddr }
  tls := tls
  auth := { requireClientAuth := false }

theorem distinct_ports_of_defaults : ∃ valid,
    (openConfig "0.0.0.0:8443" "0.0.0.0:8444" {}).validate sampleHost = .ok valid ∧
    valid.DistinctPorts := by
  have h : ((openConfig "0.0.0.0:8443" "0.0.0.0:8444" {}).validate sampleHost).toOption.map
      (fun _ => ()) = some () := by decide +kernel
  obtain ⟨valid, hvalid, -⟩ := exists_ok_of_map h
  exact ⟨valid, hvalid, (validate_distinct_ports_iff hvalid).mpr (by decide +kernel)⟩

/-- The proxy and the metrics server at one address, and the proxy and the TLS listener on one
port of two addresses, are accepted. -/
theorem validate_accepts_shared_ports :
    (∃ valid, (openConfig "0.0.0.0:8443" "0.0.0.0:8443" {}).validate sampleHost = .ok valid ∧
      ¬ valid.DistinctPorts) ∧
    (∃ valid, (openConfig "0.0.0.0:8443" "0.0.0.0:8444"
        { enabled := true, listenAddr := "127.0.0.1:8443" }).validate sampleHost = .ok valid ∧
      ¬ valid.DistinctPorts) := by
  have hmetrics : ((openConfig "0.0.0.0:8443" "0.0.0.0:8443" {}).validate
      sampleHost).toOption.map (fun valid => decide valid.DistinctPorts) = some false := by
    decide +kernel
  have htls : ((openConfig "0.0.0.0:8443" "0.0.0.0:8444"
      { enabled := true, listenAddr := "127.0.0.1:8443" }).validate sampleHost).toOption.map
        (fun valid => decide valid.DistinctPorts) = some false := by
    decide +kernel
  constructor
  · obtain ⟨valid, hvalid, hports⟩ := exists_ok_of_map hmetrics
    exact ⟨valid, hvalid, of_decide_eq_false hports⟩
  · obtain ⟨valid, hvalid, hports⟩ := exists_ok_of_map htls
    exact ⟨valid, hvalid, of_decide_eq_false hports⟩

end LatticeShield.Bridge
