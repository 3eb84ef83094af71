import LatticeShield.Lib.Family
import LatticeShield.Relay.Duplex

/-!
# The streams of a QUIC connection (`latticeshield-bridge/src/quic.rs`)

`QuicRelay::relay_connection` accepts the bidirectional streams of a connection and spawns a task
for each, which connects to the backend and copies in both directions. Streams are numbered in the
order in which they are accepted. What the client sends on one may come before it is accepted, and
waits in the stream.

How many streams a client may have open at once is for `quinn` to enforce. A task is not stopped
when its connection ends; its copies fail then, like all reads and writes of the connection.
-/

set_option autoImplicit false

namespace LatticeShield.Bridge

open Lib

/-! ## One stream -/

inductive StreamPhase where
  /-- Not accepted. -/
  | waiting
  /-- `relay_stream` has called `TcpStream::connect`. -/
  | connecting
  /-- In its `try_join!`. -/
  | relaying
  /-- `send.finish()` has been called and `relay_stream` has returned. -/
  | finished
  /-- The backend could not be connected to. -/
  | refused
deriving DecidableEq, Repr

/-- A stream of a connection. The duplex begins before the stream is accepted, since the client
may send before that. -/
structure QuicStream where
  phase : StreamPhase
  duplex : Duplex
deriving DecidableEq

inductive StreamEvent where
  | accepted
  /-- The backend is connected and will send `response`, or could not be. -/
  | connected (response : Option Bytes)
  | moves (s : DuplexStep)
deriving DecidableEq

namespace QuicStream

def new : QuicStream := ⟨.waiting, .start []⟩

def step (s : QuicStream) : StreamEvent → QuicStream
  | .accepted => if s.phase = .waiting then { s with phase := .connecting } else s
  | .connected response =>
    if s.phase = .connecting then
      match response with
      | some response => ⟨.relaying, { s.duplex with response }⟩
      | none => { s with phase := .refused }
    else s
  | .moves m =>
    match s.phase with
    | .waiting => { s with duplex := s.duplex.clientMoves m }
    | .connecting => { s with duplex := s.duplex.clientMoves m }
    | .relaying =>
      let duplex := QuicRelay.step s.duplex m
      ⟨if duplex.returned then .finished else .relaying, duplex⟩
    | .finished => s
    | .refused => s

end QuicStream

/-! ## The connection -/

/-- `quinn::ConnectionError`, by what the code tells apart: a close by either side is no failure,
and `other` has the text of one. -/
inductive ConnectionError where
  | applicationClosed
  | locallyClosed
  | other (display : String)
deriving DecidableEq, Repr

/-- What `relay_connection` returns on it: a connection that either side has closed in order is no
error. -/
def ConnectionError.result : ConnectionError → Except String Unit
  | .applicationClosed => .ok ()
  | .locallyClosed => .ok ()
  | .other e => .error s!"QUIC connection error: {e}"

structure QuicConnection where
  accepted : Nat
  /-- What `relay_connection` has returned. -/
  result : Option (Except String Unit)
  streams : Nat → QuicStream

inductive QuicEvent where
  /-- `accept_bi` has a stream, or an error. -/
  | acceptBi (stream : Except ConnectionError Unit)
  | connected (stream : Nat) (response : Option Bytes)
  | moves (stream : Nat) (s : DuplexStep)

namespace QuicConnection

def new : QuicConnection := ⟨0, none, fun _ => .new⟩

def streamStep (c : QuicConnection) (k : Nat) (e : StreamEvent) : Nat → QuicStream :=
  Function.update c.streams k ((c.streams k).step e)

def step (c : QuicConnection) : QuicEvent → QuicConnection
  | .acceptBi stream =>
    match c.result, stream with
    | none, .ok () =>
      { c with accepted := c.accepted + 1, streams := c.streamStep c.accepted .accepted }
    | none, .error e => { c with result := some e.result }
    | some _, _ => c
  | .connected k response => { c with streams := c.streamStep k (.connected response) }
  | .moves k s => { c with streams := c.streamStep k (.moves s) }

def run (events : List QuicEvent) : QuicConnection := events.foldl step new

/-- What an event is to the streams. The `n`-th `accept_bi` that succeeds is the `n`-th stream's. -/
def select (c : QuicConnection) : QuicEvent → Option (Nat × StreamEvent)
  | .acceptBi stream =>
    match c.result, stream with
    | none, .ok () => some (c.accepted, .accepted)
    | _, _ => none
  | .connected k response => some (k, .connected response)
  | .moves k s => some (k, .moves s)

end QuicConnection

end LatticeShield.Bridge
