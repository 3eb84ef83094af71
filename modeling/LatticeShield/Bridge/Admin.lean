import LatticeShield.Crypto.Handshake
import LatticeShield.Bridge.VkShare

/-!
# The admin channel (`latticeshield-bridge/src/admin.rs`)

One TCP connection is one mutually authenticated handshake, one command, one response. Connections
run concurrently, each as its own task, over shared services; `cmd_seq` is the atomic counter that
is to keep a command from being played twice.

A connection's body is cut where another task can run in between: at its I/O, and between the
atomic operations on `cmd_seq`. The load, the comparison of what was loaded, the `fetch_max` and
the dispatch are four steps, in this order, and nothing makes them one. The system is a phase for
every connection and the shared services; a run is any sequence of steps of any connections.

`serde_json` is outside the repository: `parseCommand` is what it makes of a frame's bytes. Rate
limiting is the accept loop's and decides only which connections there are; it stands at the end,
as `Listener`. Nothing after the dispatch touches shared state, so writing the response is no step
of the system; `respond` is what is written, and `cliRead` what the command line has of it.
-/

set_option autoImplicit false

namespace LatticeShield.Admin

open Lib

/-- The commands `dispatch` matches on, without a wildcard in the source either. `GetVkToken` is
the only one that changes a store that other connections read. -/
inductive AdminCommand where
  | getMetrics
  | rotate
  | getVkToken
deriving DecidableEq, Repr

structure CommandFrame where
  seq : UInt64
  cmd : AdminCommand
deriving DecidableEq, Repr

/-- What is serialised as the one response of a connection. The texts of `error` are those of the
handlers; the parser of the command line tells the four apart by their tag. -/
inductive AdminResponse where
  | metrics (data : String)
  | rotated (count : UInt64)
  | vkToken (token url : String)
  | error (message : String)
deriving DecidableEq, Repr

/-- What the connections share and do not change: the primitives, the keys of both ends and the
settings of the store. `parseCommand` stands for `serde_json::from_slice`, which is not part of
the repository. -/
structure Services where
  H : HandshakeSuite
  C : CipherSuite
  parseCommand : Bytes → Option CommandFrame
  signingKey : SigningKey
  verifyingKey : VerifyingKey
  cpVk : VerifyingKey
  tlsBaseUrl : String
  vkEnv : VkShare.Env

/-- What they share and change. In the source these are an `AtomicU64`, the sender of a `watch`
channel and a store behind a mutex; each of them is touched in one statement at a time. -/
structure Shared where
  cmdSeq : UInt64
  /-- The value of the `watch` channel behind `rotate_tx`. -/
  rotations : UInt64
  vkStore : VkShare.VkShareStore

/-- What a step finds outside: the clock, a fresh UUID, the rendered metrics, and the gauge. A
step uses the parts its statement reads and ignores the rest. -/
structure Env where
  now : Nat
  uuid : String
  rendered : String
  connectionsActive : UInt64

/-- The comparison of a frame's seq with the value that was loaded before. It is strict, so the
first command of a process needs a seq above 0. -/
def isSeqValid (seq lastSeen : UInt64) : Bool := decide (seq > lastSeen)

/-! ## Command handlers -/

def handleGetMetrics (env : Env) : AdminResponse := .metrics env.rendered

/-- `send_modify` on the `watch` channel always succeeds, with or without a session that listens.
The number in the response is the gauge of open sessions at that time, not the number of those
that will rotate. -/
def handleRotate (s : Shared) (env : Env) : AdminResponse × Shared :=
  (.rotated env.connectionsActive, { s with rotations := s.rotations + 1 })

/-- The time to live is the default of `vk_share.rs`, in ticks of a nanosecond; the store decides
whether there is room. `none` is a panic inside `create_token`, which ends the connection without
a response. -/
def handleGetVkToken (services : Services) (s : Shared) (env : Env) :
    Option AdminResponse × Shared :=
  let ttl := VkShare.defaultTokenTtlSecs * 10 ^ 9
  let (created, store) := VkShare.createToken services.vkEnv s.vkStore env.uuid env.now
    services.verifyingKey.toList ttl
  let response := match created with
    | .ok token _ => some (.vkToken token s!"{services.tlsBaseUrl}/vk/{token}")
    | .tooManyTokens => some (.error "vk share token store full")
    | .panicked => none
  (response, { s with vkStore := store })

def dispatch (services : Services) (s : Shared) (env : Env) :
    AdminCommand → Option AdminResponse × Shared
  | .getMetrics => (some (handleGetMetrics env), s)
  | .rotate =>
    let (response, s) := handleRotate s env
    (some response, s)
  | .getVkToken => handleGetVkToken services s env

/-! ## One connection -/

inductive Phase (services : Services) where
  | absent
  /-- `do_handshake`: the hello is out. -/
  | handshake (server : ServerHandshake services.H)
  | reading (channel : EncryptedChannel)
  /-- The command is parsed and `cmd_seq` is about to be loaded. -/
  | loading (frame : CommandFrame)
  | checking (frame : CommandFrame) (lastSeenSeq : UInt64)
  /-- The check has passed and `fetch_max` comes next. -/
  | updating (frame : CommandFrame)
  | dispatching (frame : CommandFrame)
  | responding (response : AdminResponse)
  | closed

/-- What a connection does next. The bytes and the outcomes of writes are in the event, so that a
list of actions says everything about a run that the code does not decide. -/
inductive Action where
  /-- The connection is accepted, with the random bytes its handshake draws; `sent` is whether the
      hello could be written. -/
  | accept (rng : Rng) (sent : Bool)
  /-- The 4429 bytes of the response have arrived. -/
  | response (bytes : ByteArr clientResponseSignedLen)
  /-- The peer has sent these bytes and stopped. -/
  | frame (bytes : Bytes)
  /-- A timeout or an I/O error. -/
  | giveUp
  /-- The next statement of the body. -/
  | advance (env : Env)

variable (services : Services)

def onAccept (rng : Rng) (sent : Bool) : Phase services :=
  let (server, rng) := ServerHandshake.new (H := services.H) rng
  match server.serverHelloSignedBytes services.signingKey rng with
  | (.error _, _) => .closed
  | (.ok _, _) => if sent then .handshake server else .closed

def onResponse (server : ServerHandshake services.H) (bytes : ByteArr clientResponseSignedLen) :
    Phase services :=
  match server.completeFromWireSigned bytes services.cpVk with
  | .error _ => .closed
  | .ok sessionKey => .reading (.new sessionKey (64 * 1024))

/-- One `read_frame` and the parse of its payload. A KEY_ROTATE is no command and closes the
connection, as an error of the channel and a payload that does not parse do. -/
def onFrame (channel : EncryptedChannel) (bytes : Bytes) : Phase services :=
  match (channel.readFrame services.C.aead.decrypt).run bytes with
  | some ((.ok (.data frameBytes), _), _) =>
    match services.parseCommand frameBytes with
    | some cmdFrame => .loading cmdFrame
    | none => .closed
  | some ((.ok (.keyRotate _), _), _) => .closed
  | some ((.error _, _), _) => .closed
  | none => .closed

/-! ## The system -/

structure State where
  shared : Shared
  phase : Nat → Phase services
  /-- Which connection has done its `fetch_max`, with which seq, in order. -/
  fetched : List (Nat × UInt64)
  /-- Which connection has dispatched its command, with which seq, in order. -/
  dispatched : List (Nat × UInt64)

variable {services}

namespace State

def new (vkStore : VkShare.VkShareStore) : State services where
  shared := { cmdSeq := 0, rotations := 0, vkStore }
  phase _ := .absent
  fetched := []
  dispatched := []

def goto (s : State services) (i : Nat) (p : Phase services) : State services :=
  { s with phase := Function.update s.phase i p }

/-- The statements from the load of `cmd_seq` to the dispatch, one at a time: a statement of
another connection may come between any two of them, for no lock is held over them. -/
def advance (s : State services) (i : Nat) (env : Env) : State services :=
  match s.phase i with
  | .loading frame => s.goto i (.checking frame s.shared.cmdSeq)
  | .checking frame lastSeenSeq =>
    if isSeqValid frame.seq lastSeenSeq then s.goto i (.updating frame) else s.goto i .closed
  | .updating frame =>
    -- `fetch_max`
    let cmdSeq := if s.shared.cmdSeq < frame.seq then frame.seq else s.shared.cmdSeq
    { s.goto i (.dispatching frame) with
      shared := { s.shared with cmdSeq }
      fetched := s.fetched ++ [(i, frame.seq)] }
  | .dispatching frame =>
    let (response, shared) := dispatch services s.shared env frame.cmd
    { s.goto i (response.elim .closed .responding) with
      shared
      dispatched := s.dispatched ++ [(i, frame.seq)] }
  | .responding _ => s.goto i .closed
  | _ => s

/-- An action that does not fit the connection's phase does nothing. So every list of actions is a
run, in which the connections are interleaved as the list says. -/
def step (s : State services) : Nat × Action → State services
  | (i, .accept rng sent) =>
    match s.phase i with
    | .absent => s.goto i (onAccept services rng sent)
    | _ => s
  | (i, .response bytes) =>
    match s.phase i with
    | .handshake server => s.goto i (onResponse services server bytes)
    | _ => s
  | (i, .frame bytes) =>
    match s.phase i with
    | .reading channel => s.goto i (onFrame services channel bytes)
    | _ => s
  | (i, .giveUp) =>
    match s.phase i with
    | .handshake _ => s.goto i .closed
    | .reading _ => s.goto i .closed
    | .responding _ => s.goto i .closed
    | _ => s
  | (i, .advance env) => s.advance i env

def run (vkStore : VkShare.VkShareStore) (steps : List (Nat × Action)) : State services :=
  steps.foldl step (new vkStore)

end State

/-! ## The response -/

/-- The handler's last lines, with a stream that takes what is written; `serialize` is
`serde_json::to_vec`. -/
def respond (C : CipherSuite) (serialize : AdminResponse → Bytes) (channel : EncryptedChannel)
    (response : AdminResponse) : EncryptedChannel.Written FrameError :=
  channel.writeFrame C .accepts (serialize response)

/-- The limit of the channel `run_admin_command` makes (`latticeshield-cli/src/main.rs`). It is
the number the handler uses on its side, written out a second time. -/
def cliMaxFrameSize : Nat := 64 * 1024

/-- `run_admin_command` reads the response, or fails. Anything but a DATA frame is a failure, a
KEY_ROTATE that opens included. -/
def cliRead (C : CipherSuite) (channel : EncryptedChannel) (bytes : Bytes) : Option Bytes :=
  match (channel.readFrame C.aead.decrypt).run bytes with
  | some ((.ok (.data b), _), _) => some b
  | _ => none

/-! ## The accept loop -/

/-- `Duration::from_secs(1)`, in nanoseconds. -/
def second : Nat := 1000000000

/-- A connection is accepted. The clock is read once to compare with the window's start, and a
second time where a new window begins, so the two readings may differ. -/
structure Arrival where
  comparedAt : Nat
  restartedAt : Nat
deriving DecidableEq, Repr

/-- What became of an arrival. A refused one is dropped by the loop without a byte; the log keeps
it to count what a window has seen. -/
structure Admission where
  time : Nat
  /-- How many windows were begun before its own. -/
  window : Nat
  /-- `handle_admin_connection` was spawned on it. -/
  handed : Bool
deriving DecidableEq, Repr

/-- The variables of `spawn_admin_listener`'s loop, with the windows counted and the arrivals
recorded. -/
structure Listener where
  rateWindowStart : Nat
  rateCount : UInt32
  window : Nat
  log : List Admission
deriving DecidableEq, Repr

namespace Listener

def start (now : Nat) : Listener where
  rateWindowStart := now
  rateCount := 0
  window := 0
  log := []

/-- `if rate_window_start.elapsed() >= Duration::from_secs(1)`: a window is begun by the first
arrival behind its predecessor's end, and not by the clock. -/
def restart (l : Listener) (a : Arrival) : Listener :=
  if second ≤ a.comparedAt - l.rateWindowStart then
    { l with rateWindowStart := a.restartedAt, rateCount := 0, window := l.window + 1 }
  else l

/-- The arrival is counted before it is compared, so one that is refused counts too. The count
wraps around, as it does in a release build. -/
def count (rateLimitPerSecond : UInt32) (l : Listener) (a : Arrival) : Listener :=
  let rateCount := l.rateCount + 1
  let handed := !decide (rateCount > rateLimitPerSecond)
  { l with rateCount, log := l.log ++ [⟨a.comparedAt, l.window, handed⟩] }

def step (rateLimitPerSecond : UInt32) (l : Listener) (a : Arrival) : Listener :=
  (l.restart a).count rateLimitPerSecond a

def run (rateLimitPerSecond : UInt32) (now : Nat) (arrivals : List Arrival) : Listener :=
  arrivals.foldl (step rateLimitPerSecond) (start now)

end Listener

end LatticeShield.Admin
