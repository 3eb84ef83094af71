import LatticeShield.Bridge.Config
import LatticeShield.Lib.Table

/-!
# Connections per address (`latticeshield-bridge/src/server.rs`, `ws.rs`)

Three listeners limit the connections of one address: the PQC one, QUIC and WebSocket. Each has a
counter map of its own and runs the same few lines under the map's lock, with a limit from the
configuration; and each hands an `IpCountGuard` to the connection's task, which takes the
connection out of the map again when it is dropped.

The map is touched in different tasks, so a listener is a map and the tasks it has spawned, and any
of them may move next. The PQC and the WebSocket listener count a connection in the accept loop and
its guard is made when the task first runs; on QUIC both happen in the task, behind the QUIC
handshake, so an attempt there is a handshake that has succeeded. A connection is live from where it
is counted to where its guard is dropped, and every way out of a task drops it.
-/

set_option autoImplicit false

namespace LatticeShield.Bridge

open Lib

/-- `HashMap<IpAddr, usize>`, behind its lock. The entry of an address goes with the last of its
connections. -/
abbrev IpCounterMap := Table IpAddr Nat

/-- `map.entry(ip).or_insert(0)`, the test and the increment: whether the connection is let in.
The lock is held for the three of them, so they are one step. A refusal leaves the entry
`or_insert` has made. -/
def checkLimit (maxPerIp : Nat) (ip : IpAddr) (map : IpCounterMap) : Bool × IpCounterMap :=
  let count := (map.lookup ip).getD 0
  if maxPerIp ≤ count then (false, map.insert ip count)
  else (true, map.insert ip (count + 1))

/-- `IpCountGuard::drop`: one connection less, and no entry once none is left. The subtraction
saturates at 0, and an address without an entry is left alone. -/
def IpCountGuard.drop (ip : IpAddr) (map : IpCounterMap) : IpCounterMap :=
  match map.lookup ip with
  | none => map
  | some count =>
    let count := if 0 < count then count - 1 else count
    if count = 0 then map.erase ip else map.insert ip count

/-! ## One listener -/

inductive CappedListener where
  | pqc
  | quic
  | ws
deriving DecidableEq, Repr

/-- `tcp_max_per_ip`, `quic_max_per_ip` and `max_per_ip`. The PQC and the QUIC listener have the
same setting and count apart; the WebSocket listener has a setting of its own. -/
def RunConfig.maxPerIp (config : RunConfig) : CappedListener → Nat
  | .pqc => config.maxConnectionsPerIp.toNat
  | .quic => config.maxConnectionsPerIp.toNat
  | .ws => config.wsMaxConnectionsPerIp.toNat

/-- A connection that was let in. A spawned task is counted and holds no guard yet, so nothing
would take it back if it were dropped there. -/
inductive Task where
  /-- Counted and spawned, and not run yet. -/
  | spawned (ip : IpAddr)
  /-- It holds the guard. -/
  | guarded (ip : IpAddr)
  | ended
deriving DecidableEq, Repr

def Task.ip? : Task → Option IpAddr
  | .spawned ip => some ip
  | .guarded ip => some ip
  | .ended => none

/-- The connections of an address that have not ended. -/
def Task.count (tasks : List Task) (ip : IpAddr) : Nat := tasks.countP (·.ip? = some ip)

/-- How a task comes to its end. The three are told apart because the guard must be dropped on
each; what it does does not depend on which. -/
inductive Ending where
  | normal
  | error
  | panic
deriving DecidableEq, Repr

inductive AdmissionEvent where
  | attempt (ip : IpAddr)
  /-- The task runs for the first time. -/
  | poll (task : Nat)
  | finish (task : Nat) (how : Ending)
deriving DecidableEq, Repr

structure Gate where
  map : IpCounterMap := ∅
  tasks : List Task := []

namespace Gate

/-- The task of a connection that has just been counted. On QUIC the counting is done in the task,
right in front of the guard; on the other two it is the accept loop's. -/
def enter (listener : CappedListener) (ip : IpAddr) : Task :=
  match listener with
  | .pqc => .spawned ip
  | .quic => .guarded ip
  | .ws => .spawned ip

/-- The connections of an address that have been let in and have not ended. -/
def live (gate : Gate) (ip : IpAddr) : Nat := Task.count gate.tasks ip

def step (listener : CappedListener) (maxPerIp : Nat) (gate : Gate) : AdmissionEvent → Gate
  | .attempt ip =>
    match checkLimit maxPerIp ip gate.map with
    | (true, map) => { map, tasks := gate.tasks ++ [enter listener ip] }
    | (false, map) => { gate with map }
  | .poll i =>
    match gate.tasks[i]? with
    | some (.spawned ip) => { gate with tasks := gate.tasks.set i (.guarded ip) }
    | _ => gate
  | .finish i _ =>
    -- the guard is a local of the task: it goes with a return, with `?` and with an unwinding panic
    match gate.tasks[i]? with
    | some (.guarded ip) =>
      { map := IpCountGuard.drop ip gate.map, tasks := gate.tasks.set i .ended }
    | _ => gate

end Gate

/-! ## The bridge's listeners -/

abbrev Gates := CappedListener → Gate

namespace Gates

def step (config : RunConfig) (gates : Gates) (event : CappedListener × AdmissionEvent) : Gates :=
  Function.update gates event.1
    ((gates event.1).step event.1 (config.maxPerIp event.1) event.2)

def run (config : RunConfig) (events : List (CappedListener × AdmissionEvent)) : Gates :=
  events.foldl (step config) fun _ => {}

end Gates

end LatticeShield.Bridge
