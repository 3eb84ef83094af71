import LatticeShield.Lib.Fallible
import LatticeShield.Lib.Text
import LatticeShield.Relay.Client

/-!
# The client's configuration (`latticeshield-client/src/config.rs`)

The TOML file's sections with their defaults and `ClientConfig::validate`, which turns them into
what the proxy runs with. `ValidClientConfig` is the part of that the relay loop reads. The checks
stand in the order of the source.
-/

set_option autoImplicit false

namespace LatticeShield.Client

open Lib

/-! ## Sections -/

structure ReconnectConfig where
  maxRetries : UInt32 := 0
  baseDelayMs : UInt64 := 100
  maxDelayMs : UInt64 := 30000
deriving DecidableEq, Repr

structure ClientSection where
  listenAddr : String := "127.0.0.1:9090"
  bridgeAddr : String := "127.0.0.1:8443"
  serverVkPath : String := "./keys/server.vk"
  maxFrameSize : Nat := 65536
  clientSkPath : Option String := none
deriving DecidableEq, Repr

structure PoolConfig where
  maxSize : Nat := 4
  idleTimeoutSecs : UInt64 := 30
  warmSize : Nat := 2
  warmIntervalSecs : UInt64 := 5
deriving DecidableEq, Repr

structure LoggingSection where
  level : String := "info"
deriving DecidableEq, Repr

structure ClientConfig where
  client : ClientSection := {}
  logging : LoggingSection := {}
  pool : PoolConfig := {}
  reconnect : ReconnectConfig := {}
deriving DecidableEq, Repr

/-- What the proxy runs with. -/
structure RunConfig extends ValidClientConfig where
  listenAddr : SocketAddr
  bridgeAddr : SocketAddr
  serverVkPath : String
  clientSkPath : Option String
  logLevel : String
  pool : PoolConfig
  reconnect : ReconnectConfig

inductive ConfigError where
  /-- A `.context(..)` on what could not be parsed. -/
  | invalid (context : String)
  /-- A check with nothing but a message. -/
  | refused (message : String)
  /-- A number out of its range, with the number. -/
  | outOfRange (message : String) (got : Nat)
  /-- `"reconnect.base_delay_ms ({base}) must be <= reconnect.max_delay_ms ({max})"`. -/
  | delays (base max : UInt64)
deriving DecidableEq, Repr

/-! ## Validation -/

namespace ClientConfig

def parseAddr (context addr : String) : Except ConfigError SocketAddr :=
  okOr (SocketAddr.parse addr) (.invalid context)

def checkFrameSize (n : Nat) : Except ConfigError (PLift (ValidFrameSize n)) :=
  if h : ValidFrameSize n then .ok ⟨h⟩
  else .error (.outOfRange "max_frame_size must be between 1024 and 16777216, got " n)

def checkPool (pool : PoolConfig) : Except ConfigError Unit := do
  refuseIf (pool.maxSize < 1) (.refused "pool.max_size must be >= 1")
  refuseIf (pool.maxSize < pool.warmSize) (.refused "pool.warm_size must be <= pool.max_size")
  refuseIf (pool.idleTimeoutSecs < 1) (.refused "pool.idle_timeout_secs must be >= 1")
  refuseIf (pool.warmIntervalSecs < 1) (.refused "pool.warm_interval_secs must be >= 1")

def validate (self : ClientConfig) : Except ConfigError RunConfig := do
  let listenAddr ← parseAddr "invalid client.listen_addr" self.client.listenAddr
  let bridgeAddr ← parseAddr "invalid client.bridge_addr" self.client.bridgeAddr
  let ⟨validFrameSize⟩ ← checkFrameSize self.client.maxFrameSize
  refuseIf (self.client.serverVkPath = "") (.refused "crypto.server_vk_path must not be empty")
  checkPool self.pool
  refuseIf (self.reconnect.maxDelayMs < self.reconnect.baseDelayMs)
    (.delays self.reconnect.baseDelayMs self.reconnect.maxDelayMs)
  return {
    maxFrameSize := self.client.maxFrameSize
    validFrameSize, listenAddr, bridgeAddr
    serverVkPath := self.client.serverVkPath
    clientSkPath := self.client.clientSkPath
    logLevel := self.logging.level
    pool := self.pool
    reconnect := self.reconnect }

/-- `ClientConfig::load`, with the file's contents if it could be read as text. -/
def load (parseToml : String → Option ClientConfig) (path : String) (contents : Option String) :
    Except ConfigError RunConfig := do
  let contents ← okOr contents (.invalid s!"cannot read config file: {path}")
  let config ← okOr (parseToml contents) (.invalid s!"invalid TOML in {path}")
  config.validate

end ClientConfig

/-! ## What an accepted configuration has passed -/

/-- The checks of the pool's section. -/
structure PoolConfig.Valid (pool : PoolConfig) : Prop where
  maxSize : 1 ≤ pool.maxSize
  warmSize : pool.warmSize ≤ pool.maxSize
  idleTimeout : 1 ≤ pool.idleTimeoutSecs.toNat
  warmInterval : 1 ≤ pool.warmIntervalSecs.toNat

theorem checkPool_eq_ok {pool : PoolConfig} (h : ClientConfig.checkPool pool = .ok ()) :
    pool.Valid := by
  obtain ⟨_, hmax, h⟩ := bind_eq_ok.mp h
  obtain ⟨_, hwarm, h⟩ := bind_eq_ok.mp h
  obtain ⟨_, hidle, hinterval⟩ := bind_eq_ok.mp h
  have hmax := of_decide_eq_false (refuseIf_eq_ok.mp hmax)
  have hwarm := of_decide_eq_false (refuseIf_eq_ok.mp hwarm)
  have hidle := of_decide_eq_false (refuseIf_eq_ok.mp hidle)
  have hinterval := of_decide_eq_false (refuseIf_eq_ok.mp hinterval)
  rw [UInt64.lt_iff_toNat_lt] at hidle hinterval
  exact ⟨Nat.not_lt.mp hmax, Nat.not_lt.mp hwarm, Nat.not_lt.mp hidle, Nat.not_lt.mp hinterval⟩

theorem ClientConfig.validate_eq_ok {config : ClientConfig} {valid : RunConfig}
    (h : config.validate = .ok valid) :
    valid.pool = config.pool ∧ valid.pool.Valid ∧ valid.reconnect = config.reconnect ∧
      valid.maxFrameSize = config.client.maxFrameSize := by
  obtain ⟨_, -, h⟩ := bind_eq_ok.mp h
  obtain ⟨_, -, h⟩ := bind_eq_ok.mp h
  obtain ⟨⟨_⟩, -, h⟩ := bind_eq_ok.mp h
  obtain ⟨_, -, h⟩ := bind_eq_ok.mp h
  obtain ⟨_, hpool, h⟩ := bind_eq_ok.mp h
  obtain ⟨_, -, h⟩ := bind_eq_ok.mp h
  obtain rfl := Except.ok.inj h
  exact ⟨rfl, checkPool_eq_ok hpool, rfl, rfl⟩

/-- The client starts with what its file says, once that has passed the checks, and with nothing
else. -/
theorem ClientConfig.load_eq_ok {parseToml : String → Option ClientConfig} {path : String}
    {contents : Option String} {valid : RunConfig} :
    ClientConfig.load parseToml path contents = .ok valid ↔ ∃ text config,
      contents = some text ∧ parseToml text = some config ∧ config.validate = .ok valid := by
  constructor
  · intro h
    obtain ⟨text, htext, h⟩ := bind_eq_ok.mp h
    obtain ⟨config, hconfig, hvalid⟩ := bind_eq_ok.mp h
    exact ⟨text, config, okOr_eq_ok.mp htext, okOr_eq_ok.mp hconfig, hvalid⟩
  · rintro ⟨text, config, rfl, hconfig, hvalid⟩
    exact bind_eq_ok.mpr ⟨text, rfl, bind_eq_ok.mpr ⟨config, okOr_eq_ok.mpr hconfig, hvalid⟩⟩

end LatticeShield.Client
