import LatticeShield.Js.Worker
import LatticeShield.Relay.WsSession
import LatticeShield.Wasm.Handshake

/-!
# A browser, its WebSocket and its session at the bridge

The two ends that speak over a WebSocket, in one state: the crypto worker and the main thread in
front of it (`latticeshield-js/src/session.ts`), the bridge's `WsStream` (`ws.rs`) and the relay
loop behind it (`session.rs`). They start where `connect` leaves them, with the key that each has
made of the handshake: the worker through the WebAssembly crate, the bridge itself.

A run is a list of events in any order. The main thread calls `send`, or a message arrives there;
a handler of the worker goes on behind its `await`, and what it posts is passed on at once; the
bridge's pending `read_frame` gets a byte out of the `WsStream`; another arm of the `select!`
completes. The `select!` polls `read_frame` until the stream has nothing more to give, and only
then waits: so no other arm completes while there are bytes for a frame that it has begun.

The socket is reliable: a message that was sent arrives, once and in order, and only a browser
that is gone ends the stream. The bridge's sink may keep a flush waiting.
-/

set_option autoImplicit false

namespace LatticeShield.Browser

open Lib Bridge

/-- What the bridge's socket says besides the browser's messages. The first has a read wait and
the next three are passed over by it; the last two end the stream. -/
inductive SocketEvent where
  | pending
  | ping
  | pong
  | frame
  | close
  | none
deriving DecidableEq, Repr

def SocketEvent.toWsEvent : SocketEvent → WsEvent
  | pending => .pending
  | ping => .message .ping
  | pong => .message .pong
  | frame => .message .frame
  | close => .message .close
  | none => .none

inductive Event where
  /-- `encryptAndSend`; `id` is its `nextOpId()`. -/
  | send (id : String) (data : Bytes)
  /-- The next message of the bridge reaches `onFrameMessage`. -/
  | deliver (id : String)
  /-- The `i`-th suspended handler of the worker resumes. -/
  | resume (i : Nat)
  | socket (event : SocketEvent)
  /-- `read_frame` is polled; `takes` is whether the backend takes a plaintext it completes. -/
  | read (takes : Bool)
  /-- `sinks` is what the sink answers while the arm awaits its writes. -/
  | arm (arm : Arm) (draw : Draw) (sinks : List WsStream.SinkAnswers)
deriving DecidableEq

structure State where
  worker : Js.Worker
  /-- The worker's handlers at their `await`. -/
  pending : List Js.Pending
  /-- The bridge's end of the WebSocket. -/
  stream : WsStream
  /-- How many messages of the bridge have reached the browser. -/
  arrived : Nat
  relay : Relay
  /-- The arguments of `send`. -/
  browserSent : List Bytes
  /-- What each `backend_r.read` that the relay has finished with put into its buffer. -/
  backendRead : List Bytes
  /-- What `emit('message', ..)` was called with. -/
  emitted : List Bytes
  /-- What `emit('error', ..)` was called with. -/
  errors : List Js.JsError

namespace State

/-- Behind the handshake, which has sent one message. That one has reached the browser, so
`arrived` begins at 1. -/
def start (cfg : ValidConfig) (hello : Bytes) (key : Js.SessionKey) (sessionKey : Key) : State where
  worker := .initialised key
  pending := []
  stream := { events := [], sent := [hello] }
  arrived := 1
  relay := .new cfg sessionKey
  browserSent := []
  backendRead := []
  emitted := []
  errors := []

/-- The handshake without client authentication: `INIT` with the hello that has arrived, and the
response read by the bridge. It is a function of the random bytes of the two sides, and `none` if
any of its parts fails. -/
def connect (H : HandshakeSuite) (cfg : ValidConfig) (signingKey : SigningKey) (serverVk : Bytes)
    (rng browserRng : Rng) : Option State := do
  let (server, rng) := ServerHandshake.new (H := H) rng
  let hello ← (server.serverHelloSignedBytes signingKey rng).1.toOption
  let (response, keyBytes) ←
    (Wasm.generateClientResponse H hello.toList serverVk browserRng).toOption
  let key ← (Js.importSessionKey keyBytes).toOption
  let buf ← ByteArr.tryInto clientResponseLen response
  let sessionKey ← (server.completeFromWire buf).toOption
  return start cfg hello.toList key sessionKey

variable (C : CipherSuite) (cfg : ValidConfig)

/-! ## The browser -/

/-- `onWorkerMessage`, and `ws.send` behind the `await` of an `ENCRYPTED`. The bridge's stream is
where a frame goes: the socket keeps the order. -/
def post (s : State) : Js.OutMessage → State
  | .encrypted _ frame =>
    { s with stream.events := s.stream.events ++ [.message (.binary frame)] }
  | .decrypted _ plaintext => { s with emitted := s.emitted ++ [plaintext] }
  | .cryptoErr _ error => { s with errors := s.errors ++ [error] }
  | .keyRotated => s
  | .keyRotateErr error => { s with errors := s.errors ++ [error] }

/-- A message reaches its handler in the worker, which answers at once or suspends behind those
that are suspended already. -/
def message (s : State) (msg : Js.InMessage) : State :=
  match s.worker.start msg with
  | .inl out => s.post out
  | .inr p => { s with pending := s.pending ++ [p] }

def resume (s : State) (i : Nat) : State :=
  match s.pending[i]? with
  | none => s
  | some p =>
    let (worker, out) := s.worker.resume C p
    { s with worker := worker, pending := s.pending.eraseIdx i }.post out

/-- `onFrameMessage`: the first byte decides which handler of the worker gets the frame, and an
empty message is dropped. -/
def onFrameMessage (s : State) (id : String) : Bytes → State
  | [] => s
  | tag :: data =>
    if tag = frameKeyRotate then s.message (.keyRotate (tag :: data))
    else s.message (.decrypt id (tag :: data))

/-- The next message of the bridge reaches the browser. The socket delivers them in order, so a
number is enough to say which. -/
def deliver (s : State) (id : String) : State :=
  match s.stream.sent[s.arrived]? with
  | none => s
  | some data => { s with arrived := s.arrived + 1 }.onFrameMessage id data

/-! ## The bridge -/

/-- A poll of `read_frame` takes one byte, finds the end of the stream, or waits. Larger reads are
runs of these: a byte more or less at a time makes no difference to `read_frame`. -/
def read (s : State) (takes : Bool) : State :=
  match s.stream.pollRead 1 with
  | (.ready (b :: _), stream) =>
    { s with stream := stream, relay := (s.relay.receive C b takes).1 }
  | (.ready [], stream) => { s with stream := stream, relay := s.relay.receiveEof.1 }
  | (.pending, stream) => { s with stream := stream }
  -- the socket has no errors
  | (.brokenPipe, stream) => { s with stream := stream }

/-- What an arm has read of the backend; nothing, from a read that found its end or failed. It is
recorded as read whether or not a frame was made of it. -/
def armRead (cfg : ValidConfig) : Arm → List Bytes
  | .backend read => (read.chunk cfg.maxFrameSize).toList
  | .timer => []
  | .manual _ => []

/-- `read_frame` has not begun a frame, or it waits for the socket. Another arm completes only
then: a poll of `read_frame` takes all that is there of a frame. -/
def waits (s : State) : Bool :=
  decide (s.relay.taken = []) || decide ((s.stream.pollRead 1).1 = .pending)

/-- An arm is done when the sink has let it make all its calls. -/
def arm (s : State) (arm : Arm) (draw : Draw) (sinks : List WsStream.SinkAnswers) : State :=
  let env := Session.reliable draw
  let task := sinks.foldl WriterTask.poll ⟨s.stream, s.relay.calls C cfg arm env⟩
  if s.waits ∧ task.todo = [] then
    { s with
      relay := (s.relay.iterate C cfg arm env).1
      stream := task.stream
      backendRead := s.backendRead ++ armRead cfg arm }
  else s

/-- A relay that has finished takes no step. The browser goes on: it may send, and what was on its
way still arrives. -/
def step (s : State) : Event → State
  | .send id data => { s with browserSent := s.browserSent ++ [data] }.message (.encrypt id data)
  | .deliver id => s.deliver id
  | .resume i => s.resume C i
  | .socket event => { s with stream.events := s.stream.events ++ [event.toWsEvent] }
  | .read takes => if s.relay.finished = none then s.read C takes else s
  | .arm arm draw sinks => if s.relay.finished = none then s.arm C cfg arm draw sinks else s

end State

end LatticeShield.Browser
