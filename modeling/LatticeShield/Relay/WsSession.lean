import LatticeShield.Bridge.WsStream
import LatticeShield.Crypto.Handshake
import LatticeShield.Relay.Session

/-!
# A bridge session over WebSocket, call by call

`handle_with_handshake_timeout` is generic in its stream. Over a `WsStream` it matters how a frame
is written: `write_frame` makes six `write_all` calls and a `flush`, `send_key_rotate` four and a
`flush`, the handshake one and a `flush`. This file has those calls, in their order, and the task
that awaits them one after the other: a call that is `Pending` is polled again before anything
else is written.

The loop itself is `Bridge.Relay`; the sink has no errors here, so every writer accepts. What the
browser sends is arbitrary bytes, and it may be gone at any point.
-/

set_option autoImplicit false

namespace LatticeShield

open Lib

namespace Bridge

/-! ## Awaiting the calls -/

inductive WriterCall where
  | writeAll (buf : Bytes)
  | flush
deriving DecidableEq

structure WriterTask where
  stream : WsStream
  todo : List WriterCall
deriving DecidableEq

/-- One poll of the call that is awaited. A `write_all` needs only one: `poll_write` takes the
whole buffer. After an error the task makes no more calls. -/
def WriterTask.poll (t : WriterTask) (sink : WsStream.SinkAnswers) : WriterTask :=
  match t.todo with
  | [] => t
  | .writeAll buf :: rest => ⟨(t.stream.pollWrite buf).2, rest⟩
  | .flush :: rest =>
    match t.stream.pollFlush sink with
    | (.pending, stream) => ⟨stream, .flush :: rest⟩
    | (.ready, stream) => ⟨stream, rest⟩
    | (.brokenPipe, stream) => ⟨stream, []⟩

/-- A fresh stream on which the calls are made, after some polls. -/
def WriterTask.run (calls : List WriterCall) (sinks : List WsStream.SinkAnswers) : WriterTask :=
  sinks.foldl poll ⟨{ events := [] }, calls⟩

end Bridge

/-! ## The calls of a session -/

namespace EncryptedChannel

open Bridge

/-- The calls of `write_frame`: one for each field of the frame, and the flush that ends the
message. A plaintext that is too long makes none. -/
def writeFrameCalls (C : CipherSuite) (ch : EncryptedChannel) (data : Bytes) : List WriterCall :=
  let seqBe := u64ToBe ch.sendSeq
  let nonce := dataNonce ch.sendSeq ch.epoch
  match C.aead.encrypt ch.keyBytes nonce seqBe.toList data with
  | none => []
  | some (buf, tag) =>
    let len := UInt32.ofNat (buf.length + tagLen)
    [.writeAll [frameData], .writeAll (u32ToBe len).toList, .writeAll seqBe.toList,
      .writeAll nonce.toList, .writeAll buf, .writeAll tag.toList, .flush]

/-- The calls of `send_key_rotate`, with its own flush. So a rotation behind a DATA frame is a
message of its own. -/
def sendKeyRotateCalls (C : CipherSuite) (ch : EncryptedChannel) (gcmNonce : Nonce)
    (nonce : RotationNonce) : List WriterCall :=
  let aad := u64ToBe ch.keyRotateSendSeq
  match C.aead.encrypt ch.keyBytes gcmNonce aad.toList nonce.toList with
  | none => []
  | some (rotationNonce, tag) =>
    [.writeAll [frameKeyRotate], .writeAll gcmNonce.toList, .writeAll rotationNonce,
      .writeAll tag.toList, .flush]

end EncryptedChannel

namespace Bridge

/-- The calls inside the `select!`: the frame of a backend read. The other two arms write nothing
before the rotation. -/
def Relay.selectCalls (C : CipherSuite) (cfg : ValidConfig) (r : Relay) : Arm → List WriterCall
  | .backend read =>
    match read.into cfg.maxFrameSize with
    | .ok [] => []
    | .ok buf => r.channel.writeFrameCalls C buf
    | .err => []
  | .timer => []
  | .manual _ => []

/-- The calls of an iteration of the loop, in their order: those of the arm, then those of the
rotation it ends with. -/
def Relay.calls (C : CipherSuite) (cfg : ValidConfig) (r : Relay) (arm : Arm) (env : Env) :
    List WriterCall :=
  if arm.enabled cfg then
    let sel := r.select C cfg env.dataWriter arm
    if sel.shouldRotate then
      r.selectCalls C cfg arm ++ sel.relay.channel.sendKeyRotateCalls C env.gcmNonce env.nonce
    else r.selectCalls C cfg arm
  else []

/-- The relay of a session, the calls it has made on `client_w` since the session began, and the
frames they were made for. -/
structure WsSession where
  relay : Relay
  calls : List WriterCall
  frames : List Sent

inductive WsStep where
  /-- A byte from the browser; `takes` is whether the backend takes a plaintext it completes. -/
  | byte (b : UInt8) (takes : Bool)
  | eof
  | arm (arm : Arm) (draw : Draw)

namespace WsSession

/-- The handshake writes the signed hello and flushes, so the first message of every session is
the hello, whole. -/
def start (cfg : ValidConfig) (hello : ByteArr serverHelloSignedLen) (sessionKey : Key) :
    WsSession where
  relay := .new cfg sessionKey
  calls := [.writeAll hello.toList, .flush]
  frames := []

def act (C : CipherSuite) (cfg : ValidConfig) (s : WsSession) : WsStep → WsSession
  | .byte b takes => { s with relay := (s.relay.receive C b takes).1 }
  | .eof => { s with relay := s.relay.receiveEof.1 }
  | .arm arm draw =>
    let env := Session.reliable draw
    let (r, wrote) := s.relay.iterate C cfg arm env
    { relay := r, calls := s.calls ++ s.relay.calls C cfg arm env, frames := s.frames ++ wrote }

/-- A loop that has ended takes no step. -/
def step (C : CipherSuite) (cfg : ValidConfig) (s : WsSession) (step : WsStep) : WsSession :=
  if s.relay.finished = none then s.act C cfg step else s

def after (C : CipherSuite) (cfg : ValidConfig) (hello : ByteArr serverHelloSignedLen)
    (sessionKey : Key) (steps : List WsStep) : WsSession :=
  steps.foldl (step C cfg) (start cfg hello sessionKey)

end WsSession

end Bridge

end LatticeShield
