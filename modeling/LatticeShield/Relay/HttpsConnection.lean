import LatticeShield.Bridge.TlsListener
import LatticeShield.Relay.QuicConnection

/-!
# The connections of the HTTPS listener (`latticeshield-bridge/src/server.rs`, `http_relay.rs`)

The task that `spawn_tls_listener` spawns for a connection, from the end of its TLS handshake to
its own end, one await at a time. `Bridge.TlsListener` has what it decides once the whole head is
there, and `Relay.Duplex` the copying; here the head is read out of the same stream that is copied
afterwards, the backend is connected to in between, and what `write_all` is given leaves in pieces.

All connections share the store of the download tokens, which the admin channel adds to.
-/

set_option autoImplicit false

namespace LatticeShield.Bridge

open Lib

/-- What a client is written whose head is too large. The connection is closed behind it. -/
def badRequest : Bytes :=
  "HTTP/1.1 400 Bad Request\r\nContent-Length: 0\r\nConnection: close\r\n\r\n".toUTF8.toList

/-- What a client is written when the backend refuses the connection. The head it has sent is
dropped. -/
def badGateway : Bytes :=
  "HTTP/1.1 502 Bad Gateway\r\nContent-Length: 0\r\nConnection: close\r\n\r\n".toUTF8.toList

/-! ## After a read -/

/-- What the task does with what it has of the head. Every read is followed by one of these three.
-/
inductive HeadStep where
  /-- Reads on. -/
  | more
  /-- Writes a response of its own. -/
  | respond (response : Bytes)
  /-- `relay.handle_with_preread`. -/
  | relay

/-- `HeadResult::Complete`: the store is asked when the head is a VK request, and the time of the
read is the time it is asked at. -/
def routeHead (parse : HttpParser) (store : VkShare.VkShareStore) (now : Nat)
    (headBytes : Bytes) : HeadStep × VkShare.VkShareStore :=
  match extractVkToken parse headBytes with
  | some token =>
    let (response, store) := VkShare.vkResponse store token now
    (.respond response.toBytes, store)
  | none => (.relay, store)

/-- The end of an iteration of `read_http_head_inplace` that has read something, with the check
the next one begins with, and what its caller makes of the result. -/
def headStep (parse : HttpParser) (store : VkShare.VkShareStore) (now : Nat) (buf : Bytes) :
    HeadStep × VkShare.VkShareStore :=
  if maxHeadBytes ≤ buf.length then
    if hasEndOfHead buf then routeHead parse store now buf else (.respond badRequest, store)
  else if hasEndOfHead buf then routeHead parse store now buf
  else (.more, store)

/-! ## One connection -/

/-- Where the task is, by the call it awaits. `forwarding` and `responding` hold what `write_all`
has not written yet, so that a failure may come between two writes. -/
inductive HttpsPhase where
  /-- In its TLS handshake, or behind it. -/
  | waiting
  | reading (buf : Bytes)
  /-- `handle_with_preread` has called `TcpStream::connect`. -/
  | connecting (preread : Bytes)
  /-- `backend_w.write_all(&preread)`, with what is left of it. -/
  | forwarding (rest : Bytes)
  /-- In its `select!`. -/
  | relaying
  /-- `w.write_all(resp)`, with what is left of it. -/
  | responding (rest : Bytes)
  | finished
deriving DecidableEq

/-- One connection: the stream it is read from and the backend's, with what the task itself has
written to either before the copies. -/
structure HttpsConnection where
  phase : HttpsPhase
  duplex : Duplex
  /-- What the backend has been written before the copies. -/
  toBackend : Bytes
  /-- What the client has been written of a response of the task's own. -/
  toClient : Bytes
deriving DecidableEq

inductive HttpsTaskEvent where
  /-- The TLS handshake is done, the backend is connected or refused, or the streams move. -/
  | stream (e : StreamEvent)
  /-- A write of `write_all` that takes at most `n + 1` bytes. -/
  | writes (n : Nat)
  /-- The TLS handshake, a read or a write fails. -/
  | fails
deriving DecidableEq

inductive HttpsEvent where
  /-- A read of at most `n + 1` bytes, and what it is followed by. -/
  | read (n : Nat) (head : Bytes → HeadStep)
  | task (e : HttpsTaskEvent)

namespace HttpsConnection

def new : HttpsConnection := ⟨.waiting, .start [], [], []⟩

/-- The bytes of the next read: at least one if there is one, and no more than the read's buffer
holds. -/
def chunk (c : HttpsConnection) (n : Nat) : Bytes :=
  c.duplex.up.unread.take (min (n + 1) headChunkLen)

/-- What the head is looked for in after a read, if there is one. Only then is the store asked,
and only if the head is complete. -/
def headBuf (c : HttpsConnection) (n : Nat) : Option Bytes :=
  match c.phase with
  | .reading buf => if c.chunk n = [] then none else some (buf ++ c.chunk n)
  | _ => none

def decided (buf : Bytes) : HeadStep → HttpsPhase
  | .more => .reading buf
  | .respond response => .responding response
  | .relay => .connecting buf

/-- A read takes its bytes out of the client's stream; a read of none is the end of it. What is
behind the read stays in the stream, for the copy. -/
def read (c : HttpsConnection) (n : Nat) (head : Bytes → HeadStep) : HttpsConnection :=
  match c.phase with
  | .reading buf =>
    let chunk := c.chunk n
    if chunk = [] then
      if c.duplex.up.ended then { c with phase := .finished } else c
    else
      let up := { c.duplex.up with unread := c.duplex.up.unread.drop chunk.length }
      { c with phase := decided (buf ++ chunk) (head (buf ++ chunk))
               duplex := { c.duplex with up } }
  | _ => c

def stream (c : HttpsConnection) : StreamEvent → HttpsConnection
  | .accepted => if c.phase = .waiting then { c with phase := .reading [] } else c
  | .connected response =>
    match c.phase, response with
    | .connecting preread, some response =>
      { c with phase := .forwarding preread, duplex := { c.duplex with response } }
    | .connecting _, none => { c with phase := .responding badGateway }
    | _, _ => c
  | .moves m =>
    match c.phase with
    | .waiting => { c with duplex := c.duplex.clientMoves m }
    | .reading _ => { c with duplex := c.duplex.clientMoves m }
    | .connecting _ => { c with duplex := c.duplex.clientMoves m }
    | .forwarding _ => { c with duplex := c.duplex.peer m }
    | .relaying =>
      let duplex := HttpRelay.step c.duplex m
      { c with phase := if duplex.returned then .finished else .relaying, duplex }
    | .responding _ => c
    | .finished => c

def task (c : HttpsConnection) : HttpsTaskEvent → HttpsConnection
  | .stream e => c.stream e
  | .writes n =>
    match c.phase with
    | .forwarding rest =>
      let left := rest.drop (n + 1)
      { c with phase := if left = [] then .relaying else .forwarding left
               toBackend := c.toBackend ++ rest.take (n + 1) }
    | .responding rest =>
      let left := rest.drop (n + 1)
      { c with phase := if left = [] then .finished else .responding left
               toClient := c.toClient ++ rest.take (n + 1) }
    | _ => c
  | .fails =>
    match c.phase with
    | .waiting => { c with phase := .finished }
    | .reading _ => { c with phase := .finished }
    | .forwarding _ => { c with phase := .finished }
    | .responding _ => { c with phase := .finished }
    | _ => c

def step (c : HttpsConnection) : HttpsEvent → HttpsConnection
  | .read n head => c.read n head
  | .task e => c.task e

/-- All the backend has been given: the head, byte by byte as it was read, and then what the copy
has written. -/
def received (c : HttpsConnection) : Bytes := c.toBackend ++ c.duplex.up.written

/-- All the client has been given: a response of the task's own, or what the copy has written of
the backend's. -/
def answered (c : HttpsConnection) : Bytes := c.toClient ++ c.duplex.down.written

end HttpsConnection

/-! ## The listener -/

/-- The connections with the one store that they share. Nothing else is shared between them. -/
structure HttpsListener where
  store : VkShare.VkShareStore
  conns : Nat → HttpsConnection

inductive ListenerEvent where
  /-- The admin channel creates a token. -/
  | createToken (uuid : String) (now : Nat) (vkBytes : Bytes) (ttl : Nat)
  | read (conn : Nat) (n : Nat) (now : Nat)
  | task (conn : Nat) (e : HttpsTaskEvent)

namespace HttpsListener

def start : HttpsListener := ⟨VkShare.newStore, fun _ => .new⟩

def connStep (l : HttpsListener) (k : Nat) (e : HttpsEvent) : Nat → HttpsConnection :=
  Function.update l.conns k ((l.conns k).step e)

section

variable (parse : HttpParser) (env : VkShare.Env)

/-- What a read at `now` is followed by. -/
def head (l : HttpsListener) (now : Nat) (buf : Bytes) : HeadStep :=
  (headStep parse l.store now buf).1

def step (l : HttpsListener) : ListenerEvent → HttpsListener
  | .createToken uuid now vkBytes ttl =>
    { l with store := (VkShare.createToken env l.store uuid now vkBytes ttl).2 }
  | .read k n now =>
    { store := ((l.conns k).headBuf n).elim l.store fun buf => (headStep parse l.store now buf).2
      conns := l.connStep k (.read n (l.head parse now)) }
  | .task k e => { l with conns := l.connStep k (.task e) }

def run (events : List ListenerEvent) : HttpsListener := events.foldl (step parse env) start

/-- What an event is to the connections. The decision behind a read is taken in the store as it is
then, and becomes part of the event. -/
def select (l : HttpsListener) : ListenerEvent → Option (Nat × HttpsEvent)
  | .createToken _ _ _ _ => none
  | .read k n now => some (k, .read n (l.head parse now))
  | .task k e => some (k, .task e)

end

end HttpsListener

end LatticeShield.Bridge
