import LatticeShield.Client.Config
import LatticeShield.Relay.Session

/-!
# Sessions that reconnect (`handle` in `latticeshield-client/src/client_session.rs`)

`handle` takes one connection of the user through as many connections to the bridge as it takes:
each round of its loop is a `pool.acquire`, a `do_handshake` and a `run_relay`, and each of the
three may fail and send the loop into its next round or out of it. `Control` is the loop with its
`attempt` counter and the flag `user_eof`, moved by the outcomes of the three calls, whatever these
are; its log has the calls and the events sent on `reconnect_tx` in the order in which they come.

`Handle` is the same loop with the bytes in it: `run_relay` is the relay of `Relay/Client.lean`, on
a new channel for each handshake, over one user stream that is read and written across all of them.

The pause before a retry is left out, and `attempt` is a `Nat`: it is incremented only below
`max_retries`.
-/

set_option autoImplicit false

namespace LatticeShield.Client

open Lib

inductive ReconnectEvent where
  | reconnected (attempt : Nat) (peer : SocketAddr)
  | exhausted (attempts : Nat) (peer : SocketAddr)
deriving DecidableEq, Repr

/-- `HandshakeError` as the loop sees it: one kind ends the session at once and the other is
retried. -/
inductive HandshakeError where
  | auth
  | transport
deriving DecidableEq, Repr

/-- What `handle` is called with, as far as the loop looks at it. Without a subscriber no event is
sent, and nothing else changes. -/
structure Params where
  maxRetries : Nat
  /-- `reconnect_tx.is_some()`. -/
  subscribed : Bool
  peer : SocketAddr
deriving DecidableEq, Repr

/-! ## The loop -/

/-- How one of the three calls ended. With the relay's outcome comes `user_eof`, the flag that the
relay shares with the loop. -/
inductive Outcome where
  | acquire (ok : Bool)
  | handshake (result : Except HandshakeError Key)
  | relay (outcome : RelayOutcome) (userEof : Bool)

inductive Entry where
  | call (outcome : Outcome)
  | sent (event : ReconnectEvent)

/-- The call the loop is waiting for. -/
inductive Phase where
  | acquiring
  | handshaking
  | relaying
  | returned
deriving DecidableEq, Repr

structure Control where
  attempt : Nat
  userEof : Bool
  phase : Phase
  log : List Entry

namespace Control

def init : Control where
  attempt := 0
  userEof := false
  phase := .acquiring
  log := []

/-- `if let Some(tx) = &reconnect_tx { let _ = tx.send(event).await; }` -/
def send (p : Params) (c : Control) (event : ReconnectEvent) : Control :=
  if p.subscribed then { c with log := c.log ++ [.sent event] } else c

/-- What a failed `acquire` and a failed transport lead to: the next round, or the end, with an
event if retries are configured at all. -/
def retry (p : Params) (c : Control) : Control :=
  if c.attempt < p.maxRetries then { c with attempt := c.attempt + 1, phase := .acquiring }
  else
    let c := if 0 < p.maxRetries then c.send p (.exhausted c.attempt p.peer) else c
    { c with phase := .returned }

def onAcquire (p : Params) (c : Control) (ok : Bool) : Control :=
  if ok then { c with phase := .handshaking } else c.retry p

def onHandshake (p : Params) (c : Control) : Except HandshakeError Key → Control
  | .error .auth => { c with phase := .returned }
  | .error .transport => c.retry p
  | .ok _ =>
    let c := if 0 < c.attempt then c.send p (.reconnected c.attempt p.peer) else c
    { c with phase := .relaying }

/-- What the end of a relay leads to. Once the user has sent its end of file, a bridge that goes
away is not replaced. -/
def onRelay (p : Params) (c : Control) : RelayOutcome → Control
  | .userEof => { c with phase := .returned }
  | .userError => { c with phase := .returned }
  | .bridgeError _ =>
    if c.userEof ∨ p.maxRetries ≤ c.attempt then
      let c := if p.maxRetries ≤ c.attempt ∧ 0 < p.maxRetries then
        c.send p (.exhausted c.attempt p.peer) else c
      { c with phase := .returned }
    else { c with attempt := c.attempt + 1, phase := .acquiring }

/-- A call returns and the loop goes on to the next one. What the loop is not waiting for does not
happen. -/
def step (p : Params) (c : Control) (o : Outcome) : Control :=
  let called : Control := { c with log := c.log ++ [.call o] }
  match c.phase, o with
  | .acquiring, .acquire ok => called.onAcquire p ok
  | .handshaking, .handshake result => called.onHandshake p result
  | .relaying, .relay outcome userEof => { called with userEof }.onRelay p outcome
  | _, _ => c

end Control

/-- What the three calls return in each round. -/
structure Outcomes where
  acquire : Nat → Bool
  handshake : Nat → Except HandshakeError Key
  relay : Nat → RelayOutcome × Bool

namespace Control

/-- The loop goes on to the end of the call it is waiting for. -/
def next (p : Params) (outcomes : Outcomes) (c : Control) : Control :=
  match c.phase with
  | .acquiring => c.step p (.acquire (outcomes.acquire c.attempt))
  | .handshaking => c.step p (.handshake (outcomes.handshake c.attempt))
  | .relaying => c.step p (.relay (outcomes.relay c.attempt).1 (outcomes.relay c.attempt).2)
  | .returned => c

def after (p : Params) (outcomes : Outcomes) : Nat → Control
  | 0 => init
  | n + 1 => (after p outcomes n).next p outcomes

end Control

/-! ## The loop with its bytes -/

/-- What went through one connection to the bridge: the calls of `write_frame`, whether or not
they succeeded, and what `read_frame` returned. -/
structure Conn where
  wrote : List FrameResult := []
  reads : List (Except FrameError FrameResult) := []

def Conn.passed (conn : Conn) : List Bytes := Session.plaintexts conn.wrote

def Conn.accepted (conn : Conn) : List Bytes := Session.plaintexts (Session.accepted conn.reads)

/-- What reaches the user of a `user_w.write_all`. A write that fails may have delivered the front
of its bytes. -/
def taken (w : Writer) (data : Bytes) : Bytes :=
  match w with
  | .accepts => data
  | .failsAfter n => data.take n

/-- The bytes of a payload that are written to the user, if it was one. -/
def delivered (w : Writer) : Option (Except FrameError FrameResult) → Bytes
  | some (.ok (.data data)) => taken w data
  | _ => []

structure Handle where
  control : Control
  /-- The `run_relay` that is running. -/
  live : Option (Relay × Conn)
  /-- The connections before it. -/
  past : List Conn
  /-- What the user has sent or will send and `user_r` has not returned yet. -/
  unread : Bytes
  /-- Every byte written to the user. -/
  toUser : Bytes

inductive HandleEvent where
  | acquired (ok : Bool)
  | handshaken (result : Except HandshakeError Key)
  /-- `user_r.read` returns `n` bytes, or as many as there are and fit; `w` is the bridge's
      stream. -/
  | user (n : Nat) (w : Writer)
  | userError
  /-- `read_frame` takes a byte; `w` is the user's stream. -/
  | bridge (b : UInt8) (w : Writer)
  | bridgeEof

namespace Handle

def init (stream : Bytes) : Handle where
  control := .init
  live := none
  past := []
  unread := stream
  toUser := []

/-- All connections, in order. -/
def conns (h : Handle) : List Conn := h.past ++ (h.live.map Prod.snd).toList

/-- `run_relay` goes on, or returns to the loop with its outcome. What the connection has read and
written is then history. -/
def settle (p : Params) (h : Handle) (relay : Relay) (conn : Conn) : Handle :=
  match relay.outcome with
  | none => { h with live := some (relay, conn) }
  | some outcome =>
    { h with
      live := none
      past := h.past ++ [conn]
      control := h.control.step p (.relay outcome relay.userEof) }

def onUser (C : CipherSuite) (cfg : ValidClientConfig) (p : Params) (h : Handle) (relay : Relay)
    (conn : Conn) (n : Nat) (w : Writer) : Handle :=
  if relay.userEof then h
  else
    let buf := (h.unread.take n).take cfg.maxFrameSize
    let (relay, wrote) := relay.iterate C cfg (.ok (h.unread.take n)) w
    { h with unread := h.unread.drop buf.length }.settle p relay
      { conn with wrote := conn.wrote ++ wrote.map Sent.payload }

def onUserError (C : CipherSuite) (cfg : ValidClientConfig) (p : Params) (h : Handle)
    (relay : Relay) (conn : Conn) : Handle :=
  if relay.userEof then h
  else h.settle p (relay.iterate C cfg .err .accepts).1 conn

def onBridge (C : CipherSuite) (p : Params) (h : Handle) (relay : Relay) (conn : Conn) (b : UInt8)
    (w : Writer) : Handle :=
  let (relay, result) := relay.receive C b (decide (w = .accepts))
  { h with toUser := h.toUser ++ delivered w result }.settle p relay
    { conn with reads := conn.reads ++ result.toList }

def onBridgeEof (C : CipherSuite) (p : Params) (h : Handle) (relay : Relay) (conn : Conn) :
    Handle :=
  let (relay, result) := relay.receiveEof C
  h.settle p relay { conn with reads := conn.reads ++ result.toList }

/-- `do_handshake` returns; on success `run_relay` is entered with a new channel, and with the
flag as it is. -/
def onHandshaken (cfg : ValidClientConfig) (p : Params) (h : Handle)
    (result : Except HandshakeError Key) : Handle :=
  let control := h.control.step p (.handshake result)
  match h.control.phase, result with
  | .handshaking, .ok key =>
    { h with control, live := some ({ Relay.new cfg key with userEof := h.control.userEof }, {}) }
  | _, _ => { h with control }

def step (C : CipherSuite) (cfg : ValidClientConfig) (p : Params) (h : Handle) :
    HandleEvent → Handle
  | .acquired ok => { h with control := h.control.step p (.acquire ok) }
  | .handshaken result => h.onHandshaken cfg p result
  | .user n w => h.live.elim h fun (relay, conn) => h.onUser C cfg p relay conn n w
  | .userError => h.live.elim h fun (relay, conn) => h.onUserError C cfg p relay conn
  | .bridge b w => h.live.elim h fun (relay, conn) => h.onBridge C p relay conn b w
  | .bridgeEof => h.live.elim h fun (relay, conn) => h.onBridgeEof C p relay conn

def run (C : CipherSuite) (cfg : ValidClientConfig) (p : Params) (stream : Bytes)
    (events : List HandleEvent) : Handle :=
  events.foldl (step C cfg p) (init stream)

end Handle

end LatticeShield.Client
