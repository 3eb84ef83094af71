import LatticeShield.Lib.Bytes
import LatticeShield.Lib.Copy

/-!
# The HTTPS and the QUIC relay (`latticeshield-bridge/src/http_relay.rs`, `quic.rs`)

Both copy a client's stream to a backend and the backend's to the client, with two
`tokio::io::copy` futures on one task, and they differ in how they wait for them.
`HttpRelay::handle_with_preread` has a `select!`: the first copy that ends, ends the relay, and the
other is dropped. `QuicRelay::relay_stream` has a `try_join!`: it ends when both are done, or when
one fails. Either relay returns by dropping its sockets; neither shuts down the backend's write
half before.

A run is a list of steps in any order: either copy moves, or one of the two peers does. A relay
that has returned moves no more.
-/

set_option autoImplicit false

namespace LatticeShield.Bridge

open Lib

/-- What moves: one of the two copies, by a poll, or one of the two peers. The order of a list of
these is the order of the run. -/
inductive DuplexStep where
  /-- The client-to-backend copy. -/
  | up (s : CopyStep)
  /-- The backend-to-client copy. -/
  | down (s : CopyStep)
  | clientSends (bs : Bytes)
  /-- The client ends its stream; it still reads. -/
  | clientCloses
  /-- The backend sends the next `n` bytes of its response. -/
  | backendSends (n : Nat)
  /-- The backend closes, once it has sent its response. -/
  | backendCloses
deriving DecidableEq

/-- The two copies with the sockets at their ends. What the backend will send is fixed from the
start, and its parts arrive when the run says. -/
structure Duplex where
  up : Copy UInt8 := {}
  down : Copy UInt8 := {}
  /-- What the backend has not sent of its response. -/
  response : Bytes
  returned : Bool := false
deriving DecidableEq

namespace Duplex

/-- The relay at the start of its copies; the head has been written to the backend. -/
def start (response : Bytes) : Duplex := { response }

/-- The peers move on their own: they send, and they close their halves. Neither is asked to do so
by the relay. -/
def peer (r : Duplex) : DuplexStep → Duplex
  | .clientSends bs => { r with up := r.up.arrive bs }
  | .clientCloses => { r with up := r.up.close }
  | .backendSends n =>
    { r with down := r.down.arrive (r.response.take n), response := r.response.drop n }
  | .backendCloses => if r.response = [] then { r with down := r.down.close } else r
  | .up _ => r
  | .down _ => r

/-- What the client does before there is anyone to copy for it. It fills the stream; the backend's
steps do nothing yet. -/
def clientMoves (r : Duplex) : DuplexStep → Duplex
  | .clientSends bs => r.peer (.clientSends bs)
  | .clientCloses => r.peer .clientCloses
  | _ => r

/-- One poll of the copies, with what `returns` makes of them. The other future is polled in the
same turn, which is a step of its own here. -/
def poll (returns : CopyStatus → CopyStatus → Bool) (r : Duplex) : DuplexStep → Duplex
  | .up s =>
    let up := r.up.step s
    { r with up, returned := returns up.status r.down.status }
  | .down s =>
    let down := r.down.step s
    { r with down, returned := returns r.up.status down.status }
  | step => r.peer step

def step (returns : CopyStatus → CopyStatus → Bool) (r : Duplex) (step : DuplexStep) : Duplex :=
  if r.returned then r.peer step else r.poll returns step

end Duplex

/-- `select!`: the relay returns with the first of its copies, whether that has come to its end or
failed. -/
def selectReturns (up down : CopyStatus) : Bool := up ≠ .running || down ≠ .running

/-- `try_join!`: the relay returns when both copies have come to their ends, or at once when one
of them fails. -/
def tryJoinReturns (up down : CopyStatus) : Bool :=
  up = .failed || down = .failed || (up = .done && down = .done)

/-- The copies of `HttpRelay::handle_with_preread`: the relay is over with the first of the two,
and the other is dropped as it stands. -/
def HttpRelay.step : Duplex → DuplexStep → Duplex := Duplex.step selectReturns

def HttpRelay.after (response : Bytes) (steps : List DuplexStep) : Duplex :=
  steps.foldl HttpRelay.step (.start response)

/-- The copies of `QuicRelay::relay_stream`: a copy that has come to its end waits for the other. -/
def QuicRelay.step : Duplex → DuplexStep → Duplex := Duplex.step tryJoinReturns

def QuicRelay.after (response : Bytes) (steps : List DuplexStep) : Duplex :=
  steps.foldl QuicRelay.step (.start response)

end LatticeShield.Bridge
