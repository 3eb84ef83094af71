import LatticeShield.Client.Config

/-!
# The connection pool (`latticeshield-client/src/pool.rs`)

The idle queue behind its lock, the three functions that touch it, and the world they run in: a
clock, the one `warm_loop` of the pool, any number of `acquire` calls, a `shutdown`, and the bridge
at the other end of every connection. Each step is what happens while the lock is held or between
two awaits, so the steps come in any order that the guards allow. The connects of one round are
concurrent and are joined in any order; `created_at` is the moment a connect is joined, which may
be later than the moment the bridge accepted it.

Of the bridge there is what happens to a connection that does not answer: its session waits for the
response for `handshake_timeout_secs` from the accept on and then closes (`session.rs`). A pooled
connection does not answer. What becomes of a connection once `acquire` has returned it is not here.

Around the world of the queue there is that of its callers (`Pool`): what each `acquire` returned,
the connects of those that found the queue empty, and whether a `shutdown` has returned.

Times are nanoseconds.
-/

set_option autoImplicit false

namespace LatticeShield.Client

open Lib

/-- `Duration::from_secs`, in nanoseconds. A `Duration` has room for every `u64` of seconds, so
nothing saturates. -/
def fromSecs (n : UInt64) : Nat := n.toNat * 1000000000

/-- A pooled connection with the time it was joined at. Its stream is a name here, by which the
bridge's end of it is found. -/
structure IdleConn where
  /-- Which connection `stream` is. -/
  id : Nat
  createdAt : Nat
deriving DecidableEq, Repr

namespace ConnectionPool

/-! ## Under the lock -/

/-- The block of `acquire`: the stale ones at the front are evicted, and the next is taken. What
is stale behind a young one stays, as the queue is in the order of insertion. -/
def acquire (cfg : PoolConfig) (now : Nat) (idle : List IdleConn) :
    Option IdleConn × List IdleConn :=
  match idle.dropWhile fun c => fromSecs cfg.idleTimeoutSecs ≤ now - c.createdAt with
  | [] => (none, [])
  | c :: rest => (some c, rest)

/-- How many connections a round of `warm_loop` opens: up to the warm size, and never beyond the
pool's. Both subtractions saturate. -/
def toAdd (cfg : PoolConfig) (currentCount : Nat) : Nat :=
  min (cfg.warmSize - currentCount) (cfg.maxSize - currentCount)

/-- The last block of a round: the new connections go in until the queue is full. What does not
fit is dropped, and its stream closed with it. -/
def insertAll (cfg : PoolConfig) (idle : List IdleConn) : List IdleConn → List IdleConn
  | [] => idle
  | conn :: rest =>
    if cfg.maxSize ≤ idle.length then idle else insertAll cfg (idle ++ [conn]) rest

end ConnectionPool

/-! ## The world -/

/-- Where `warm_loop` is. It holds the lock only while it counts and while it inserts, so the
queue may change between the two. -/
inductive WarmLoop where
  /-- In the `select!`, with the end of its sleep. -/
  | sleeping (wakeAt : Nat)
  /-- About to lock the queue and count. -/
  | counting
  /-- The connects still to be joined, and those that succeeded. -/
  | connecting (pending : List Nat) (newConns : List IdleConn)
  | exited
deriving DecidableEq, Repr

/-- What the bridge has done with a connection. `acceptedAt` is by the bridge's clock, which is
the same clock here. -/
structure Link where
  acceptedAt : Option Nat := none
  timedOut : Bool := false
deriving DecidableEq, Repr

structure World where
  now : Nat
  idle : List IdleConn
  warm : WarmLoop
  /-- The value of the shutdown channel. -/
  stop : Bool
  nextId : Nat
  links : Nat → Link

inductive PoolEvent where
  | elapse (d : Nat)
  /-- The sleep of `warm_loop` is over. -/
  | wake
  /-- `shutdown_rx.changed()`. -/
  | notice
  | count
  | joined (id : Nat) (ok : Bool)
  | insert
  | acquire
  /-- The two halves of `shutdown`. -/
  | signal
  | drain
  /-- The bridge accepts a connection. -/
  | accept (id : Nat)
  /-- The bridge's handshake timeout of a connection. -/
  | timeout (id : Nat)
deriving DecidableEq, Repr

namespace World

def init (cfg : PoolConfig) : World where
  now := 0
  idle := []
  warm := .sleeping (fromSecs cfg.warmIntervalSecs)
  stop := false
  nextId := 0
  links := fun _ => {}

/-- Back to the top of the loop. The sleep begins anew, so a round that takes long puts off the
next one. -/
def rest (cfg : PoolConfig) (s : World) : World :=
  { s with warm := .sleeping (s.now + fromSecs cfg.warmIntervalSecs) }

/-- One step of the world. `handshakeTimeout` is the bridge's, and bounds from below when its
session of a connection that says nothing is over. -/
def step (cfg : PoolConfig) (handshakeTimeout : Nat) (s : World) : PoolEvent → World
  | .elapse d => { s with now := s.now + d }
  | .wake =>
    match s.warm with
    | .sleeping wakeAt =>
      if wakeAt ≤ s.now then
        if cfg.warmSize = 0 then s.rest cfg else { s with warm := .counting }
      else s
    | _ => s
  | .notice =>
    match s.warm with
    | .sleeping _ => if s.stop then { s with warm := .exited } else s
    | _ => s
  | .count =>
    match s.warm with
    | .counting =>
      let toAdd := ConnectionPool.toAdd cfg s.idle.length
      if toAdd = 0 then s.rest cfg
      else { s with
        warm := .connecting (List.range' s.nextId toAdd) []
        nextId := s.nextId + toAdd }
    | _ => s
  | .joined id ok =>
    match s.warm with
    | .connecting pending newConns =>
      if id ∈ pending then
        let newConns := if ok then newConns ++ [⟨id, s.now⟩] else newConns
        { s with warm := .connecting (pending.erase id) newConns }
      else s
    | _ => s
  | .insert =>
    match s.warm with
    | .connecting [] newConns =>
      { s with idle := ConnectionPool.insertAll cfg s.idle newConns }.rest cfg
    | _ => s
  | .acquire => { s with idle := (ConnectionPool.acquire cfg s.now s.idle).2 }
  | .signal => { s with stop := true }
  | .drain => if s.stop then { s with idle := [] } else s
  | .accept id =>
    match (s.links id).acceptedAt with
    | none =>
      if id < s.nextId then
        { s with links := Function.update s.links id { acceptedAt := some s.now } }
      else s
    | some _ => s
  | .timeout id =>
    match (s.links id).acceptedAt with
    | some a =>
      if a + handshakeTimeout ≤ s.now then
        let link : Link := { acceptedAt := some a, timedOut := true }
        { s with links := Function.update s.links id link }
      else s
    | none => s

def run (cfg : PoolConfig) (handshakeTimeout : Nat) (events : List PoolEvent) : World :=
  events.foldl (step cfg handshakeTimeout) (init cfg)

end World

/-! ## The callers -/

/-- What a call of `acquire` returned. A connection from the queue is told from a new one, because
only the first can have grown old. -/
inductive Returned where
  /-- From the queue, with the time at which it was found young enough. -/
  | pooled (conn : IdleConn) (checkedAt : Nat)
  /-- By the connect at the end. -/
  | fresh (id : Nat)
deriving DecidableEq, Repr

def Returned.id : Returned → Nat
  | .pooled conn _ => conn.id
  | .fresh id => id

structure Pool where
  world : World
  /-- An `acquire` has the lock, and is in its loop. -/
  locked : Bool
  /-- The connects of the calls that found the queue empty. -/
  connects : List Nat
  returned : List Returned
  /-- A call of `shutdown` has returned. -/
  down : Bool

/-- The steps that take the lock. -/
def PoolEvent.locks : PoolEvent → Bool
  | .count | .insert | .acquire | .drain => true
  | _ => false

inductive PoolCall where
  /-- A step of the queue's world; `acquire` only takes the lock here. -/
  | pool (event : PoolEvent)
  /-- The `acquire` that has the lock looks at the front of the queue. -/
  | check
  /-- The connect of a call that found the queue empty has come to its end. -/
  | connected (id : Nat) (ok : Bool)
deriving DecidableEq, Repr

namespace Pool

def init (cfg : PoolConfig) : Pool where
  world := World.init cfg
  locked := false
  connects := []
  returned := []
  down := false

/-- The next iteration of an `acquire` that has the lock. `created_at.elapsed()` reads the clock
for every connection at the front, so time may pass between two of them. -/
def check (cfg : PoolConfig) (s : Pool) : Pool :=
  match s.world.idle with
  | [] => { s with
      world := { s.world with nextId := s.world.nextId + 1 }
      locked := false
      connects := s.connects ++ [s.world.nextId] }
  | conn :: rest =>
    if fromSecs cfg.idleTimeoutSecs ≤ s.world.now - conn.createdAt then
      { s with world := { s.world with idle := rest } }
    else { s with
      world := { s.world with idle := rest }
      locked := false
      returned := s.returned ++ [.pooled conn s.world.now] }

/-- A step of the world or of a caller. While an `acquire` is in its loop, the steps that need the
lock wait: they do nothing here and may be tried again. -/
def step (cfg : PoolConfig) (handshakeTimeout : Nat) (s : Pool) : PoolCall → Pool
  | .pool event =>
    if s.locked && event.locks then s
    else if event = .acquire then { s with locked := true }
    else { s with
      world := s.world.step cfg handshakeTimeout event
      down := s.down || (event == .drain && s.world.stop) }
  | .check => if s.locked then s.check cfg else s
  | .connected id ok =>
    if id ∈ s.connects then { s with
      connects := s.connects.erase id
      returned := if ok then s.returned ++ [.fresh id] else s.returned }
    else s

def run (cfg : PoolConfig) (handshakeTimeout : Nat) (calls : List PoolCall) : Pool :=
  calls.foldl (step cfg handshakeTimeout) (init cfg)

end Pool

end LatticeShield.Client
