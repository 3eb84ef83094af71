import LatticeShield.Bridge.ControlPlane
import LatticeShield.Bridge.Server

/-!
# Counters (`latticeshield-bridge/src/metrics.rs`)

Everything is counted twice: by the `metrics` facade, which Prometheus reads and the program cannot,
and by `MetricsState`, which the heartbeat and the admin commands read. Each site of the program
that counts updates both by hand; there are six of them in `session.rs`, and a seventh, the handler
of the control plane's commands in `server.rs`. A site has no `await` in it and is part of one step.

The two guards are made when the handshake is done and live on the session's stack. So they are
dropped whenever the session ends after that: when it returns, by a `?` or a `break`, and when its
task panics or is dropped with the runtime.

Atomics and the facade's counters are 64 bits wide and wrap. The gauge is a float; it is a number
here.
-/

set_option autoImplicit false

namespace LatticeShield.Bridge

open Lib

/-- The atomics that heartbeats and admin commands read. The gauge is one of them and is counted
down without a check, so it would wrap below 0. -/
structure MetricsState where
  connectionsTotal : UInt64
  connectionsActive : UInt64
  bytesTransmittedTotal : UInt64
  channelErrorsTotal : UInt64
  keyRotationsTotal : UInt64
deriving DecidableEq

/-- The counters of the facade, by the names they are registered under. The gauge is the one that
also goes down, and may do so below 0. -/
structure Prometheus where
  connectionsTotal : UInt64
  /-- `CONNECTIONS_TOTAL` with the label `status = success`. -/
  connectionsSuccess : UInt64
  connectionsActive : Int
  bytesTransmitted : UInt64
  channelErrors : UInt64
  keyRotationsTotal : UInt64
deriving DecidableEq

structure Metrics where
  state : MetricsState
  prometheus : Prometheus
deriving DecidableEq

namespace Metrics

def new : Metrics := ⟨⟨0, 0, 0, 0, 0⟩, ⟨0, 0, 0, 0, 0, 0⟩⟩

/-! ## The sites -/

/-- A session starts: counted at the top of `handle`, before the handshake, so a connection that
fails it is in the total and not in the gauge. -/
def connection (m : Metrics) : Metrics where
  state := { m.state with connectionsTotal := m.state.connectionsTotal + 1 }
  prometheus := { m.prometheus with connectionsTotal := m.prometheus.connectionsTotal + 1 }

/-- `ActiveGuard::new` and `MetricsActiveGuard::new`, one after the other and without an `await`
in between. -/
def guardsNew (m : Metrics) : Metrics where
  state := { m.state with connectionsActive := m.state.connectionsActive + 1 }
  prometheus := { m.prometheus with connectionsActive := m.prometheus.connectionsActive + 1 }

def guardsDropped (m : Metrics) : Metrics where
  state := { m.state with connectionsActive := m.state.connectionsActive - 1 }
  prometheus := { m.prometheus with
    connectionsActive := m.prometheus.connectionsActive - 1
    connectionsSuccess := m.prometheus.connectionsSuccess + 1 }

/-- `read_frame` has failed, in whatever way. The end of the stream is a failure to read, too. -/
def channelError (m : Metrics) : Metrics where
  state := { m.state with channelErrorsTotal := m.state.channelErrorsTotal + 1 }
  prometheus := { m.prometheus with channelErrors := m.prometheus.channelErrors + 1 }

/-- `n` bytes of the backend have been written to the client. -/
def bytesTransmitted (m : Metrics) (n : Nat) : Metrics where
  state := { m.state with
    bytesTransmittedTotal := m.state.bytesTransmittedTotal + UInt64.ofNat n }
  prometheus := { m.prometheus with
    bytesTransmitted := m.prometheus.bytesTransmitted + UInt64.ofNat n }

/-- `do_rotate` is done. -/
def keyRotated (m : Metrics) : Metrics where
  state := { m.state with keyRotationsTotal := m.state.keyRotationsTotal + 1 }
  prometheus := { m.prometheus with keyRotationsTotal := m.prometheus.keyRotationsTotal + 1 }

/-- `BridgeCommand::Rotate` has been passed on to the sessions. It is counted in `MetricsState`
and not in the facade, and each session that rotates because of it counts again. -/
def rotateCommand (m : Metrics) : Metrics :=
  { m with state := { m.state with keyRotationsTotal := m.state.keyRotationsTotal + 1 } }

end Metrics

/-! ## What a session's move counts -/

/-- What the backend's arm counts: the bytes, if the loop goes on behind `write_frame`. A
`write_frame` that fails leaves the loop by its `?`, in front of the counters. -/
def Selected.metrics (cfg : ValidConfig) (sel : Relay.Selected) (arm : Arm) (m : Metrics) : Metrics :=
  match arm, sel.relay.finished with
  | .backend read, none => m.bytesTransmitted ((read.chunk cfg.maxFrameSize).elim 0 List.length)
  | _, _ => m

/-- What an arm of the relay loop besides `read_frame` counts, and whether a `do_rotate` of it
completed. -/
def Relay.armMetrics (C : CipherSuite) (cfg : ValidConfig) (r : Relay) (arm : Arm) (env : Env)
    (m : Metrics) : Metrics × Bool :=
  if arm.enabled cfg then
    let sel := r.select C cfg env.dataWriter arm
    let m := Selected.metrics cfg sel arm m
    if sel.shouldRotate then
      match (doRotate C sel.relay.channel env).result with
      | .ok () => (m.keyRotated, true)
      | .error _ => (m, false)
    else (m, false)
  else (m, false)

/-- What a completed `read_frame` counts. -/
def Relay.frameMetrics (r : Relay) (m : Metrics) : Metrics :=
  match r.finished with
  | some (.frameError _) => m.channelError
  | _ => m

variable {H : HandshakeSuite}

namespace Phase

def entered? : Phase H → Bool
  | .entered _ => true
  | _ => false

/-- The handshake is done and the session has not ended. -/
def active : Phase H → Bool
  | .connecting _ => true
  | .relaying _ => true
  | _ => false

end Phase

/-- What is counted when a connection comes to its session. -/
def Connection.startMetrics (c c' : Connection H) (m : Metrics) : Metrics :=
  if c'.phase.entered? ∧ ¬ c.phase.entered? then m.connection else m

/-- What the relay loop counts in a move of its connection. -/
def Connection.relayMetrics (C : CipherSuite) (server : Server) (c : Connection H) (event : Event)
    (m : Metrics) : Metrics × Bool :=
  match event, c.phase, c.inbox with
  | .readFailed, .relaying relay, _ => (relay.receiveEof.1.frameMetrics m, false)
  | .frameByte takes, .relaying relay, b :: _ => ((relay.receive C b takes).1.frameMetrics m, false)
  | .arm arm env, .relaying relay, _ => relay.armMetrics C server.config.toValidConfig arm env m
  | _, _, _ => (m, false)

/-! ## The system -/

variable (H) in
structure Metered where
  sessions : State H
  metrics : Metrics
  /-- Which sessions have their guards. -/
  guards : Nat → Bool
  /-- How often `rotate_tx` was modified, and what each session has seen of it. -/
  rotateTx : Nat
  seen : Nat → Nat
  /-- How many `do_rotate` executions have completed. -/
  rotated : Nat

inductive MeteredEvent where
  | session (i : Nat) (event : Event)
  /-- The session's task panics or is dropped. -/
  | abort (i : Nat)
  /-- The handler in `server::run` gets a command of the control plane. -/
  | command (cmd : ControlPlane.BridgeCommand)
  /-- `handle_rotate` of the admin listener. -/
  | adminRotate

/-- Whether `server::run` starts `control_plane::start`, the only source of commands. -/
def Server.commanded (server : Server) : Bool :=
  server.config.controlPlaneEnabled && decide (server.config.controlPlaneEndpoint ≠ "")

namespace Metered

def new : Metered H := ⟨.new, .new, fun _ => false, 0, fun _ => 0, 0⟩

/-- `rotate_rx.changed()` waits for a change the session has not seen. -/
def ready (s : Metered H) (i : Nat) : Event → Bool
  | .arm (.manual true) _ => decide (s.seen i ≠ s.rotateTx)
  | _ => true

/-- `subscribe()` behind the connection to the backend, and `changed()`; `phase` is the session's
before the event. -/
def sees (s : Metered H) (i : Nat) (phase : Phase H) (event : Event) : Metered H :=
  match event, phase with
  | .connected true, .connecting _ => { s with seen := Function.update s.seen i s.rotateTx }
  | .arm (.manual true) _, _ => { s with seen := Function.update s.seen i s.rotateTx }
  | _, _ => s

/-- The guards that a session makes, and those that are dropped with it. -/
def guard (s : Metered H) (i : Nat) (phase : Phase H) : Metered H :=
  if phase.active ∧ ¬ s.guards i then
    { s with metrics := s.metrics.guardsNew, guards := Function.update s.guards i true }
  else if ¬ phase.active ∧ s.guards i then
    { s with metrics := s.metrics.guardsDropped, guards := Function.update s.guards i false }
  else s

variable (C : CipherSuite) (server : Server)

/-- What the sites before the guards have counted. -/
def count (s : Metered H) (counted : Metrics × Bool) : Metered H :=
  { s with
    metrics := counted.1
    rotated := if counted.2 then s.rotated + 1 else s.rotated }

/-- One session moves. -/
def move (s : Metered H) (i : Nat) (event : Event) : Metered H :=
  let c := s.sessions.conns i
  let sessions := s.sessions.step C server (i, event)
  let c' := sessions.conns i
  let counted := c.relayMetrics C server event (c.startMetrics c' s.metrics)
  (({ s with sessions }.count counted).sees i c.phase event).guard i c'.phase

def step (s : Metered H) : MeteredEvent → Metered H
  | .session i event => if s.ready i event then s.move C server i event else s
  | .abort i =>
    let c := s.sessions.conns i
    let conns := Function.update s.sessions.conns i (c.goto .closed)
    { s with sessions := { s.sessions with conns } }.guard i .closed
  | .command .rotate =>
    if server.commanded then
      { s with rotateTx := s.rotateTx + 1, metrics := s.metrics.rotateCommand }
    else s
  | .command .unknown => s
  | .adminRotate => { s with rotateTx := s.rotateTx + 1 }

def run (events : List MeteredEvent) : Metered H := events.foldl (step C server) new

end Metered

end LatticeShield.Bridge
