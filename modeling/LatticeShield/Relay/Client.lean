import LatticeShield.Relay.Bridge

/-!
# The client's relay loop (`run_relay` in `latticeshield-client/src/client_session.rs`)

The same shape as the bridge's loop, with two arms: `read_frame` on the bridge, and a read of the
user's socket as long as the user has not half-closed it. Here too a `read_frame` that has not
completed is dropped, with the bytes it took, whenever the other arm completes. The client never
starts a rotation; it follows the bridge's.
-/

set_option autoImplicit false

namespace LatticeShield.Client

open Lib

/-- What the loop reads of `ValidClientConfig`. -/
structure ValidClientConfig where
  maxFrameSize : Nat
  validFrameSize : ValidFrameSize maxFrameSize

/-- How the relay was left. `user_eof` ends the session in order; only `bridge_error` may be
followed by another connection. -/
inductive RelayOutcome where
  | userEof
  | userError
  | bridgeError (e : FrameError)
deriving DecidableEq, Repr

structure Relay where
  channel : EncryptedChannel
  /-- What the pending `read_frame` has taken from `bridge_r`. -/
  taken : Bytes
  userEof : Bool
  /-- The arguments of every `user_w.write_all` that succeeded. -/
  toUser : List Bytes
  outcome : Option RelayOutcome
deriving DecidableEq

namespace Relay

def new (cfg : ValidClientConfig) (sessionKey : Key) : Relay where
  channel := .new sessionKey cfg.maxFrameSize
  taken := []
  userEof := false
  toUser := []
  outcome := none

/-! ## Bridge to user -/

/-- The bridge's arm; `takes` is whether `user_w.write_all` succeeds. The client rotates as soon
as it has read the frame that says so. -/
def onFrame (C : CipherSuite) (r : Relay) (takes : Bool) : Except FrameError FrameResult → Relay
  | .ok (.data data) =>
    if takes then { r with toUser := r.toUser ++ [data] }
    else { r with outcome := some .userError }
  | .ok (.keyRotate nonce) => { r with channel := r.channel.rotateKey C nonce }
  | .error e =>
    -- after the user's end of file the bridge is expected to go away
    { r with outcome := some (if r.userEof then .userEof else .bridgeError e) }

/-- The pending `read_frame` takes the byte `b`; with its result, if it completes. As in the
bridge's loop the bytes of a frame live in its future. -/
def receive (C : CipherSuite) (r : Relay) (b : UInt8) (takes : Bool) :
    Relay × Option (Except FrameError FrameResult) :=
  match r.channel.pollFrame C r.taken b with
  | none => ({ r with taken := r.taken ++ [b] }, none)
  | some (result, ch) =>
    ({ r with channel := ch, taken := [] }.onFrame C takes result, some result)

/-- The pending `read_frame` finds the end of the stream. -/
def receiveEof (C : CipherSuite) (r : Relay) : Relay × Option (Except FrameError FrameResult) :=
  ({ r with taken := [] }.onFrame C true (.error (.io .unexpectedEof)),
    some (.error (.io .unexpectedEof)))

/-! ## User to bridge -/

def onUser (C : CipherSuite) (r : Relay) (w : Writer) : SocketRead → Relay × List Sent
  | .ok [] => ({ r with userEof := true }, [])
  | .ok buf =>
    let out := r.channel.writeFrame C w buf
    match out.result with
    | .error e => ({ r with channel := out.channel, outcome := some (.bridgeError e) },
        [⟨.data buf, out.bytes⟩])
    | .ok () => ({ r with channel := out.channel }, [⟨.data buf, out.bytes⟩])
  | .err => ({ r with outcome := some .userError }, [])

/-- An iteration in which the user's arm completes, with what it wrote. As in the bridge's loop
the pending `read_frame` is dropped with its bytes. -/
def iterate (C : CipherSuite) (cfg : ValidClientConfig) (r : Relay) (read : SocketRead)
    (w : Writer) : Relay × List Sent :=
  if r.userEof then (r, [])
  else onUser C { r with taken := [] } w (read.into cfg.maxFrameSize)

end Relay

end LatticeShield.Client
