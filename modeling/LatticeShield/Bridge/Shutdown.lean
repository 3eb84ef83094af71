import LatticeShield.Bridge.Admission
import LatticeShield.Bridge.Metrics
import LatticeShield.Lib.Drain

/-!
# The accept loop and the drain phase (`latticeshield-bridge/src/server.rs`)

`server::run` from where its listeners are up to its return. The main task accepts connections of
the PQC listener until the shutdown signal; each that is let in is a task with a handle, and no
handle is ever taken out of the vector. Behind the loop it waits for the handles one after the
other, for each with `tokio::time::timeout`, and then for those of the tasks it has started itself,
in the order of the code. A handle whose wait has timed out is dropped, which leaves its task
running; what is still running when `run` returns goes with the runtime.

Neither a session nor what the other listeners have spawned looks at the signal, and the main task
has no handle for the latter. A task of the bridge's own may end whenever it wants: after the
signal, or before it where it could not bind its address.

The clock ticks in milliseconds, the resolution of the runtime's timers, and the main task runs as
soon as it can.
-/

set_option autoImplicit false

namespace LatticeShield.Bridge

open Lib

/-- The tasks `run` keeps a handle of: `tls_handle`, `quic_handle`, `admin_handle`, `ws_handle`,
`cp_handle` and `metrics_handle_task`. -/
inductive Service where
  | tls
  | quic
  | admin
  | ws
  | controlPlane
  | metrics
deriving DecidableEq, Repr

/-- Those that are started, in the order they are waited for. The metrics server is always among
them, and last; the control plane needs an endpoint besides its switch. -/
def RunConfig.services (config : RunConfig) : List Service :=
  (if config.tlsEnabled then [.tls] else []) ++
    (if config.quicEnabled then [.quic] else []) ++
    (if config.adminEnabled then [.admin] else []) ++
    (if config.wsEnabled then [.ws] else []) ++
    (if config.controlPlaneEnabled && decide (config.controlPlaneEndpoint ≠ "") then
      [.controlPlane] else []) ++
    [.metrics]

inductive Handle where
  /-- By the number of the connection among those that were let in. -/
  | session (task : Nat)
  | service (service : Service)
deriving DecidableEq, Repr

/-- `shutdown_timeout`, in milliseconds. It is the timeout of each wait, so the drain phase as a
whole may take a multiple of it. -/
def RunConfig.drainTimeout (config : RunConfig) : Nat := config.shutdownTimeout.toNat * 1000

inductive MainPhase where
  | accepting
  | draining (drain : Drain Handle)
  /-- `run` has returned. -/
  | complete

structure Main where
  now : Nat
  gate : Gate
  sessionHandles : List Handle
  returned : Service → Bool
  phase : MainPhase

/-- What happens in the other tasks, and to the clock. The main task wakes on each of them while
it drains, and `tick` is the only one that takes time. -/
inductive TaskEvent where
  | poll (task : Nat)
  | finish (task : Nat) (how : Ending)
  | returned (service : Service)
  | tick
deriving DecidableEq, Repr

inductive MainEvent where
  /-- `listener.accept()` has a connection, or an error. -/
  | accept (peer : Option IpAddr)
  | task (event : TaskEvent)
  /-- The accept loop sees the shutdown signal. -/
  | shutdown
deriving DecidableEq, Repr

namespace Main

def new : Main := ⟨0, {}, [], fun _ => false, .accepting⟩

/-- The task of the handle has come to its end, a panic included. `timeout` around a `JoinHandle`
returns for either, and the result is not looked at. -/
def finished (m : Main) : Handle → Bool
  | .session i => decide (m.gate.tasks[i]? = some .ended)
  | .service s => m.returned s

/-- What the main task waits for behind its loop: first the sessions, in the order they were let
in, and then the services. -/
def handles (config : RunConfig) (m : Main) : List Handle :=
  m.sessionHandles ++ config.services.map .service

def drainPhase (drain : Drain Handle) : MainPhase :=
  match drain.queue with
  | [] => .complete
  | _ :: _ => .draining drain

variable (config : RunConfig)

/-- A connection from `ip`, within the limit or not. Only one that is let in has a task, and the
vector of handles grows with it. -/
def accept (m : Main) (ip : IpAddr) : Main :=
  let handle := Handle.session m.gate.tasks.length
  let admitted := (checkLimit (config.maxPerIp .pqc) ip m.gate.map).1
  { m with
    gate := m.gate.step .pqc (config.maxPerIp .pqc) (.attempt ip)
    sessionHandles := if admitted then m.sessionHandles ++ [handle] else m.sessionHandles }

def move (m : Main) : TaskEvent → Main
  | .poll i => { m with gate := m.gate.step .pqc (config.maxPerIp .pqc) (.poll i) }
  | .finish i how => { m with gate := m.gate.step .pqc (config.maxPerIp .pqc) (.finish i how) }
  | .returned s => { m with returned := Function.update m.returned s true }
  | .tick => { m with now := m.now + 1 }

/-- One event, in the phase the main task is in. Before the signal it accepts; behind it, it waits
for the queue's first handle and looks at nothing else. -/
def step (m : Main) (event : MainEvent) : Main :=
  match m.phase, event with
  | .accepting, .accept none => m
  | .accepting, .accept (some ip) => m.accept config ip
  | .accepting, .task event => m.move config event
  | .accepting, .shutdown =>
    { m with phase := drainPhase (.start config.drainTimeout m.finished m.now (m.handles config)) }
  | .draining drain, .task event =>
    let m := m.move config event
    { m with phase := drainPhase (drain.wake config.drainTimeout m.finished m.now) }
  -- the main task does not accept any more, and the signal has been seen
  | .draining _, _ => m
  | .complete, _ => m

def run (events : List MainEvent) : Main := events.foldl (step config) new

end Main

end LatticeShield.Bridge
