import LatticeShield.Crypto.Channel

/-!
# The bridge's relay loop (`latticeshield-bridge/src/session.rs`)

Part 4 of `handle_with_handshake_timeout`: the `loop` around a `tokio::select!` with four arms,
and `do_rotate`. One iteration ends when one arm completes. The `read_frame` of the first arm is
a future made anew in each iteration; the bytes it has taken from `client_r` live in it and
nowhere else, so when another arm completes first it is dropped with them (`taken := []`).

A relay therefore moves in two ways: its pending `read_frame` takes a byte (`receive`), which may
complete the first arm, or another arm completes (`iterate`). What the loop awaits inside an arm
(`write_all`, `write_frame`, `do_rotate`) is part of the iteration: no other arm can complete
before it is done.

Left out are the log lines and the metrics counters; nothing here reads them.
-/

set_option autoImplicit false

namespace LatticeShield

open Lib

/-- What one `read(&mut buf)` of a plain socket returned: `Ok(n)` with the first `n` bytes of the
buffer, or `Err`. `Ok(0)` is `ok []`. -/
inductive SocketRead where
  | ok (buf : Bytes)
  | err
deriving DecidableEq, Repr

/-- A read cannot return more than the buffer holds. What it does not return stays in the socket,
and is the caller's to hand out again. -/
def SocketRead.into (size : Nat) : SocketRead → SocketRead
  | ok buf => ok (buf.take size)
  | err => err

/-- The bytes a loop with a buffer of `size` gets from a read, unless it was `Ok(0)` or `Err`.
What a loop does on those two is said where it reads. -/
def SocketRead.chunk (size : Nat) (read : SocketRead) : Option Bytes :=
  match read.into size with
  | ok [] => none
  | ok buf => some buf
  | err => none

/-- A write to the peer: the call that was made, as the result it has for a reader, and the bytes
the stream took for it. -/
structure Sent where
  payload : FrameResult
  bytes : Bytes
deriving DecidableEq

namespace Bridge

/-- What the loop reads of `ValidConfig`, with the ranges `Config::validate` leaves. A value of
this type cannot be out of range. -/
structure ValidConfig where
  maxFrameSize : Nat
  keyRotationEnabled : Bool
  maxBytesPerKey : UInt64
  validFrameSize : ValidFrameSize maxFrameSize
  validBytesPerKey : 1048576 ≤ maxBytesPerKey

/-- How the loop was left. `failed` is a `?` with its context; after any other the session returns
`Ok(())`. -/
inductive Finish where
  | emptyFrame
  | unexpectedKeyRotate
  | frameError (e : FrameError)
  | backendClosed
  | backendError
  | failed (context : String)
deriving DecidableEq, Repr

structure Relay where
  channel : EncryptedChannel
  /-- What the pending `read_frame` has taken from `client_r`. -/
  taken : Bytes
  bytesThisEpoch : UInt64
  /-- The arguments of every `backend_w.write_all` that succeeded. -/
  toBackend : List Bytes
  finished : Option Finish
deriving DecidableEq

/-- The arms of the `select!` besides `read_frame`. `tokio` picks at random among those that are
ready, so any of them may come next. -/
inductive Arm where
  | backend (read : SocketRead)
  | timer
  /-- `rotate_rx.changed()`; `alive` is `is_ok()`. -/
  | manual (alive : Bool)
deriving DecidableEq, Repr

/-- What an iteration gets from outside besides its arm: how `client_w` takes the two frames that
may be written, and the random bytes of `do_rotate` and `send_key_rotate`. -/
structure Env where
  dataWriter : Writer
  rotateWriter : Writer
  nonce : RotationNonce
  gcmNonce : Nonce
deriving DecidableEq

/-- `do_rotate`: the frame is sent first and the key changes behind it. Where the frame fails the
key stays, and the session ends. -/
def doRotate (C : CipherSuite) (ch : EncryptedChannel) (env : Env) :
    EncryptedChannel.Written String :=
  let out := ch.sendKeyRotate C env.rotateWriter env.gcmNonce env.nonce
  match out.result with
  | .ok () => { out with channel := out.channel.rotateKey C env.nonce }
  | .error _ => { out with result := .error "send KEY_ROTATE frame" }

namespace Relay

def new (cfg : ValidConfig) (sessionKey : Key) : Relay where
  channel := .new sessionKey cfg.maxFrameSize
  taken := []
  bytesThisEpoch := 0
  toBackend := []
  finished := none

def finish (r : Relay) (f : Finish) : Relay := { r with finished := some f }

/-! ## Client to backend -/

/-- The first arm; `takes` is whether `backend_w.write_all` succeeds. An empty frame closes the
session, and so does a KEY_ROTATE. -/
def onFrame (r : Relay) (takes : Bool) : Except FrameError FrameResult → Relay
  | .ok (.data data) =>
    if data = [] then r.finish .emptyFrame
    else if takes then { r with toBackend := r.toBackend ++ [data] }
    else r.finish (.failed "write al backend")
  -- only the bridge rotates
  | .ok (.keyRotate _) => r.finish .unexpectedKeyRotate
  | .error e => r.finish (.frameError e)

/-- The pending `read_frame` takes the byte `b`; with its result, if it completes. The bytes that
it has taken so far are part of the loop's state, since only its future holds them. -/
def receive (C : CipherSuite) (r : Relay) (b : UInt8) (takes : Bool) :
    Relay × Option (Except FrameError FrameResult) :=
  match r.channel.pollFrame C r.taken b with
  | none => ({ r with taken := r.taken ++ [b] }, none)
  | some (result, ch) => ({ r with channel := ch, taken := [] }.onFrame takes result, some result)

/-- The pending `read_frame` finds the end of the stream. Where in a frame it finds it makes no
difference: the error is the same. -/
def receiveEof (r : Relay) : Relay × Option (Except FrameError FrameResult) :=
  ({ r with taken := [] }.onFrame true (.error (.io .unexpectedEof)),
    some (.error (.io .unexpectedEof)))

/-! ## Backend to client, and rotation -/

/-- What the `select!` leaves when its first arm has not completed: the relay, what was written,
and whether the iteration ends with a rotation. -/
structure Selected where
  relay : Relay
  wrote : List Sent
  shouldRotate : Bool

def onBackend (C : CipherSuite) (cfg : ValidConfig) (r : Relay) (w : Writer) :
    SocketRead → Selected
  | .ok [] => ⟨r.finish .backendClosed, [], false⟩
  | .ok buf =>
    let out := r.channel.writeFrame C w buf
    match out.result with
    | .error _ =>
      ⟨{ r with channel := out.channel }.finish (.failed "write frame al cliente"),
        [⟨.data buf, out.bytes⟩], false⟩
    | .ok () =>
      let bytes := r.bytesThisEpoch + UInt64.ofNat buf.length
      ⟨{ r with channel := out.channel, bytesThisEpoch := bytes }, [⟨.data buf, out.bytes⟩],
        cfg.keyRotationEnabled && decide (cfg.maxBytesPerKey ≤ bytes)⟩
  | .err => ⟨r.finish .backendError, [], false⟩

def select (C : CipherSuite) (cfg : ValidConfig) (r : Relay) (w : Writer) : Arm → Selected
  | .backend read => onBackend C cfg { r with taken := [] } w (read.into cfg.maxFrameSize)
  | .timer => ⟨{ r with taken := [] }, [], true⟩
  | .manual alive => ⟨{ r with taken := [] }, [], alive⟩

/-- `if should_rotate { do_rotate(..)?; bytes_this_epoch = 0 }`. The count restarts with the key
it is about. -/
def rotate (C : CipherSuite) (r : Relay) (env : Env) : Relay × List Sent :=
  let out := doRotate C r.channel env
  match out.result with
  | .ok () => ({ r with channel := out.channel, bytesThisEpoch := 0 },
      [⟨.keyRotate env.nonce, out.bytes⟩])
  | .error context => ({ r with channel := out.channel }.finish (.failed context),
      [⟨.keyRotate env.nonce, out.bytes⟩])

end Relay

/-- The timer's arm has a precondition. The notification's has none: a rotation on command is done
whether or not rotation is enabled. -/
def Arm.enabled (cfg : ValidConfig) : Arm → Bool
  | timer => cfg.keyRotationEnabled
  | backend _ => true
  | manual _ => true

/-- An iteration in which an arm other than the first completes, with what it wrote. The pending
`read_frame` is dropped, and the bytes it has taken with it. -/
def Relay.iterate (C : CipherSuite) (cfg : ValidConfig) (r : Relay) (arm : Arm) (env : Env) :
    Relay × List Sent :=
  if arm.enabled cfg then
    let sel := r.select C cfg env.dataWriter arm
    if sel.shouldRotate then
      let (r', wrote) := sel.relay.rotate C env
      (r', sel.wrote ++ wrote)
    else (sel.relay, sel.wrote)
  else (r, [])

end Bridge

end LatticeShield
