import LatticeShield.Lib.Wire
import LatticeShield.Relay.Client

/-!
# A session: both relay loops and the two streams between them

The bridge's and the client's loop, started from one handshake key, over two reliable streams of
bytes. A run is a list of `Op`s in any order: either loop's `read_frame` takes a byte that has been
written, or finds the stream closed; another arm of either loop completes. Every way the streams
can be cut into arrivals, and every order of the arms, is such a list. A reliable stream takes what
is written to it, so every writer here accepts.

An operation of a loop that has ended, or that is not possible, leaves the session as it is.
The four lists at the end of `Session` are its history: what each side wrote, and what each
`read_frame` that completed returned.
-/

set_option autoImplicit false

namespace LatticeShield

open Lib

/-- The two configurations and the key the handshake agreed on. -/
structure Setup where
  bridge : Bridge.ValidConfig
  client : Client.ValidClientConfig
  sessionKey : Key

/-- Both loops, the two streams between them, and the history. The lists only grow; nothing that
happens is decided by them. -/
structure Session where
  bridge : Bridge.Relay
  client : Client.Relay
  /-- From the client to the bridge. -/
  up : Wire
  /-- From the bridge to the client. -/
  down : Wire
  clientSent : List FrameResult
  bridgeSent : List FrameResult
  bridgeReads : List (Except FrameError FrameResult)
  clientReads : List (Except FrameError FrameResult)

/-- The random bytes a `do_rotate` draws: the nonce the new key is derived with, and the nonce
that one is sealed under. -/
structure Draw where
  nonce : RotationNonce
  gcmNonce : Nonce
deriving DecidableEq

inductive Op where
  /-- `takes` is whether the backend takes a plaintext, if this byte completes one. -/
  | bridgeByte (takes : Bool)
  | bridgeEof
  | bridgeArm (arm : Bridge.Arm) (draw : Draw)
  | clientByte (takes : Bool)
  | clientEof
  | clientArm (read : SocketRead)
deriving DecidableEq

/-- Whose loop makes the step. A step of a side whose loop has ended does nothing. -/
def Op.side : Op → Side
  | bridgeByte _ => .bridge
  | bridgeEof => .bridge
  | bridgeArm _ _ => .bridge
  | clientByte _ => .client
  | clientEof => .client
  | clientArm _ => .client

namespace Session

def start (S : Setup) : Session where
  bridge := .new S.bridge S.sessionKey
  client := .new S.client S.sessionKey
  up := .empty
  down := .empty
  clientSent := []
  bridgeSent := []
  bridgeReads := []
  clientReads := []

/-- The environment of an iteration over a reliable stream: every write is taken, so that what is
lost is lost by the loops themselves. -/
def reliable (draw : Draw) : Bridge.Env := ⟨.accepts, .accepts, draw.nonce, draw.gcmNonce⟩

def bridgeByte (C : CipherSuite) (s : Session) (takes : Bool) : Session :=
  match s.up.unread with
  | [] => s
  | b :: _ =>
    let (r, result) := s.bridge.receive C b takes
    { s with
      bridge := r
      up := s.up.advance (decide (s.bridge.taken = []))
      bridgeReads := s.bridgeReads ++ result.toList }

def clientByte (C : CipherSuite) (s : Session) (takes : Bool) : Session :=
  match s.down.unread with
  | [] => s
  | b :: _ =>
    let (r, result) := s.client.receive C b takes
    { s with
      client := r
      down := s.down.advance (decide (s.client.taken = []))
      clientReads := s.clientReads ++ result.toList }

/-- The client has shut down its half of the connection, or is gone. Either way the bridge finds
the end of the stream behind what was sent. -/
def upClosed (s : Session) : Bool := s.client.userEof || s.client.outcome.isSome

def bridgeEof (s : Session) : Session :=
  if s.upClosed ∧ s.up.unread = [] then
    let (r, result) := s.bridge.receiveEof
    { s with bridge := r, bridgeReads := s.bridgeReads ++ result.toList }
  else s

def clientEof (C : CipherSuite) (s : Session) : Session :=
  if s.bridge.finished.isSome ∧ s.down.unread = [] then
    let (r, result) := s.client.receiveEof C
    { s with client := r, clientReads := s.clientReads ++ result.toList }
  else s

def bridgeArm (C : CipherSuite) (S : Setup) (s : Session) (arm : Bridge.Arm) (draw : Draw) :
    Session :=
  let (r, wrote) := s.bridge.iterate C S.bridge arm (reliable draw)
  { s with
    bridge := r
    down := s.down.write (wrote.map Sent.bytes)
    bridgeSent := s.bridgeSent ++ wrote.map Sent.payload }

def clientArm (C : CipherSuite) (S : Setup) (s : Session) (read : SocketRead) : Session :=
  let (r, wrote) := s.client.iterate C S.client read .accepts
  { s with
    client := r
    up := s.up.write (wrote.map Sent.bytes)
    clientSent := s.clientSent ++ wrote.map Sent.payload }

/-- The loop of a side has not ended. -/
def Running (s : Session) : Side → Prop
  | .bridge => s.bridge.finished = none
  | .client => s.client.outcome = none

instance (s : Session) : ∀ side, Decidable (s.Running side)
  | .bridge => inferInstanceAs (Decidable (s.bridge.finished = none))
  | .client => inferInstanceAs (Decidable (s.client.outcome = none))

def act (C : CipherSuite) (S : Setup) (s : Session) : Op → Session
  | .bridgeByte takes => s.bridgeByte C takes
  | .bridgeEof => s.bridgeEof
  | .bridgeArm arm draw => s.bridgeArm C S arm draw
  | .clientByte takes => s.clientByte C takes
  | .clientEof => s.clientEof C
  | .clientArm read => s.clientArm C S read

def step (C : CipherSuite) (S : Setup) (s : Session) (op : Op) : Session :=
  if s.Running op.side then s.act C S op else s

/-- The session after a run. -/
def after (C : CipherSuite) (S : Setup) (ops : List Op) : Session :=
  ops.foldl (step C S) (start S)

/-! ## What the history says -/

/-- The plaintexts among the frames of one direction. -/
def plaintexts (frames : List FrameResult) : List Bytes :=
  frames.filterMap fun
    | .data p => some p
    | .keyRotate _ => none

/-- What a side has read without error. -/
def accepted (reads : List (Except FrameError FrameResult)) : List FrameResult :=
  reads.filterMap Except.toOption

def rotations (frames : List FrameResult) : Nat :=
  frames.countP fun
    | .data _ => false
    | .keyRotate _ => true

@[simp] theorem accepted_append (l l' : List (Except FrameError FrameResult)) :
    accepted (l ++ l') = accepted l ++ accepted l' := List.filterMap_append

@[simp] theorem accepted_ok (i : FrameResult) : accepted [.ok i] = [i] := rfl

@[simp] theorem accepted_error (e : FrameError) : accepted [.error e] = [] := rfl

@[simp] theorem plaintexts_append (l l' : List FrameResult) :
    plaintexts (l ++ l') = plaintexts l ++ plaintexts l' := List.filterMap_append

@[simp] theorem plaintexts_keyRotate (n : RotationNonce) : plaintexts [.keyRotate n] = [] := rfl

@[simp] theorem rotations_append (l l' : List FrameResult) :
    rotations (l ++ l') = rotations l + rotations l' := List.countP_append

@[simp] theorem rotations_data (p : Bytes) : rotations [.data p] = 0 := rfl

theorem plaintexts_isPrefix {l l' : List FrameResult} (h : l <+: l') :
    plaintexts l <+: plaintexts l' := by
  obtain ⟨t, rfl⟩ := h
  exact ⟨plaintexts t, (plaintexts_append l t).symm⟩

/-- How often the bridge has rotated. It counts the KEY_ROTATE frames it wrote; `rotationsApplied`
counts those the client has read. -/
def rotationsMade (s : Session) : Nat := rotations s.bridgeSent

def rotationsApplied (s : Session) : Nat := rotations (accepted s.clientReads)

end Session

end LatticeShield
