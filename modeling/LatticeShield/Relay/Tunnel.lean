import LatticeShield.Relay.Session

/-!
# A session between a user and a backend

`Session` leaves open what the reads of the two plain sockets return. Here these sockets have ends:
a user that sends, half-closes its connection and may stop receiving, and a backend that sends and
closes. The sockets are reliable streams, as the two between the loops are: a read returns the next
bytes that were sent, as many as have arrived and fit, and the end of the file once the sender has
closed and everything has been read. Both ends take what is written to them, the user as long as it
has not closed its receiving side.

A loop sends on what it has read before it reads again, so what has been read of a socket is what
has been sent on, and the next read begins behind it (`userUnread`, `backendUnread`).

The arms that rotate are not steps of a tunnel.
-/

set_option autoImplicit false

namespace LatticeShield

open Lib

/-- A session with what its two ends have done. Nothing is stored of what is still to be read: it
is what was sent and not sent on. -/
structure Tunnel where
  session : Session
  userSent : Bytes
  /-- The user has shut down its sending side. -/
  userHalfClosed : Bool
  /-- The user has closed its receiving side. -/
  userGone : Bool
  backendSent : Bytes
  backendClosed : Bool

inductive TunnelOp where
  | userSends (data : Bytes)
  | userHalfCloses
  | userStopsReceiving
  | backendSends (data : Bytes)
  | backendCloses
  /-- The client's read of its user completes; if there are bytes, with `more + 1` of them or as
      many as there are and fit. -/
  | clientRead (more : Nat)
  | clientByte
  | clientEof
  /-- The bridge's read of its backend, likewise. -/
  | bridgeRead (more : Nat) (draw : Draw)
  | bridgeByte
  | bridgeEof
deriving DecidableEq

namespace Tunnel

def start (S : Setup) : Tunnel where
  session := .start S
  userSent := []
  userHalfClosed := false
  userGone := false
  backendSent := []
  backendClosed := false

def userUnread (t : Tunnel) : Bytes :=
  t.userSent.drop (Session.plaintexts t.session.clientSent).flatten.length

def backendUnread (t : Tunnel) : Bytes :=
  t.backendSent.drop (Session.plaintexts t.session.bridgeSent).flatten.length

/-- What a read of a socket returns, if it is ready. The end of the file comes behind everything
that was sent, once and again. -/
def socketRead (unread : Bytes) (closed : Bool) (more : Nat) : Option SocketRead :=
  if unread = [] then if closed then some (.ok []) else none
  else some (.ok (unread.take (more + 1)))

/-- The step of the session, if it is one and it is ready. The bridge's backend takes everything;
the user does until it stops receiving. -/
def sessionOp (t : Tunnel) : TunnelOp → Option Op
  | .clientRead more => (socketRead t.userUnread t.userHalfClosed more).map .clientArm
  | .bridgeRead more draw =>
    (socketRead t.backendUnread t.backendClosed more).map
      fun read => .bridgeArm (.backend read) draw
  | .clientByte => some (.clientByte (!t.userGone))
  | .bridgeByte => some (.bridgeByte true)
  | .clientEof => some .clientEof
  | .bridgeEof => some .bridgeEof
  | _ => none

/-- What the two ends do by themselves. An end that has closed its sending side sends no more. -/
def environment (t : Tunnel) : TunnelOp → Tunnel
  | .userSends data => if t.userHalfClosed then t else { t with userSent := t.userSent ++ data }
  | .userHalfCloses => { t with userHalfClosed := true }
  | .userStopsReceiving => { t with userGone := true }
  | .backendSends data =>
    if t.backendClosed then t else { t with backendSent := t.backendSent ++ data }
  | .backendCloses => { t with backendClosed := true }
  | _ => t

def step (C : CipherSuite) (S : Setup) (t : Tunnel) (op : TunnelOp) : Tunnel :=
  match t.sessionOp op with
  | some o => { t with session := t.session.step C S o }
  | none => t.environment op

def after (C : CipherSuite) (S : Setup) (ops : List TunnelOp) : Tunnel :=
  ops.foldl (step C S) (start S)

/-- What has reached the user. -/
def delivered (t : Tunnel) : Bytes := t.session.client.toUser.flatten

end Tunnel

end LatticeShield
