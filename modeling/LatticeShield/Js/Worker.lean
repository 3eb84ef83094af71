import LatticeShield.Js.Framing

/-!
# The crypto worker (`latticeshield-js/src/worker/crypto.worker.ts`)

The worker's five variables and its three message handlers. Each handler is `async` with exactly
one `await`, so it runs in two parts: from the message to the `await` (`start`), and from there on
(`resume`). Between the two the event loop may start or resume anything else.

What a suspended handler holds is the call it awaits, *with the arguments it was made with*
(`Pending`): `handleEncrypt` has already read `sessionKey` and `sendSeq` when it suspends, and it
moves `sendSeq` only after it resumes. `handle` is a message handled with nothing in between.

`INIT` is not a message here: a worker starts initialised, with the key `handleInit` imports and
all counters at zero.
-/

set_option autoImplicit false

namespace LatticeShield.Js

open Lib

/-- The five variables of the worker's module. A worker has one session for its life; a new
`connect` makes a new worker. -/
structure Worker where
  sessionKey : Option SessionKey
  sendSeq : Nat
  recvSeq : Nat
  recvInitialized : Bool
  keyRotateRecvSeq : Nat
deriving DecidableEq

/-- `WorkerInMessage` without `INIT`. -/
inductive InMessage where
  | encrypt (id : String) (plaintext : Bytes)
  | decrypt (id : String) (ciphertext : Bytes)
  | keyRotate (frame : Bytes)
deriving DecidableEq

/-- `WorkerOutMessage` without the answers to `INIT`. The id is that of the message it answers; a
rotation has none. -/
inductive OutMessage where
  | encrypted (id : String) (frame : Bytes)
  | decrypted (id : String) (plaintext : Bytes)
  | cryptoErr (id : String) (error : JsError)
  | keyRotated
  | keyRotateErr (error : JsError)
deriving DecidableEq

/-- A handler at its `await`: the call it is waiting for, with the key and the counters that it
has read before. What it writes it writes when it resumes. -/
inductive Pending where
  | encodeFrame (id : String) (key : SessionKey) (seq : Nat) (plaintext : Bytes)
  | decodeFrame (id : String) (key : SessionKey) (buf : Bytes) (recvSeq : Nat)
      (recvInitialized : Bool)
  | processKeyRotate (key : SessionKey) (frame : Bytes) (keyRotateRecvSeq : Nat)
deriving DecidableEq

namespace Worker

/-- The state `handleInit` leaves after importing `key`. -/
def initialised (key : SessionKey) : Worker where
  sessionKey := some key
  sendSeq := 0
  recvSeq := 0
  recvInitialized := false
  keyRotateRecvSeq := 0

/-! ## From the message to the `await` -/

def handleEncrypt (w : Worker) (id : String) (plaintext : Bytes) : OutMessage ⊕ Pending :=
  match w.sessionKey with
  | none => .inl (.cryptoErr id (.error "session not initialized"))
  | some key => .inr (.encodeFrame id key w.sendSeq plaintext)

/-- `handleDecrypt` up to its `await`. A KEY_ROTATE that comes as a `DECRYPT` is refused before
anything is decrypted. -/
def handleDecrypt (w : Worker) (id : String) (ciphertext : Bytes) : OutMessage ⊕ Pending :=
  match w.sessionKey with
  | none => .inl (.cryptoErr id (.error "session not initialized"))
  | some key =>
    if ciphertext.length > 0 ∧ ciphertext.headD 0 = frameKeyRotate then
      .inl (.cryptoErr id
        (.error "KEY_ROTATE frame must be handled via KEY_ROTATE message type"))
    else .inr (.decodeFrame id key ciphertext w.recvSeq w.recvInitialized)

def handleKeyRotate (w : Worker) (frame : Bytes) : OutMessage ⊕ Pending :=
  match w.sessionKey with
  | none => .inl (.keyRotateErr (.error "session not initialized"))
  | some key => .inr (.processKeyRotate key frame w.keyRotateRecvSeq)

/-- A message up to the handler's `await`, or to its answer if there is nothing to wait for.
Nothing is written in this part. -/
def start (w : Worker) : InMessage → OutMessage ⊕ Pending
  | .encrypt id plaintext => w.handleEncrypt id plaintext
  | .decrypt id ciphertext => w.handleDecrypt id ciphertext
  | .keyRotate frame => w.handleKeyRotate frame

/-! ## From the `await` on -/

/-- The part behind the `await`. What is written is computed from the worker as it is now, except
for what was read before. -/
def resume (C : CipherSuite) (w : Worker) : Pending → Worker × OutMessage
  | .encodeFrame id key seq plaintext =>
    match Js.encodeFrame C key seq plaintext with
    | .ok frame => ({ w with sendSeq := w.sendSeq + 1 }, .encrypted id frame)
    | .error e => (w, .cryptoErr id e)
  | .decodeFrame id key buf recvSeq recvInitialized =>
    match Js.decodeFrame C key buf recvSeq recvInitialized with
    | .ok (plaintext, seq) =>
      ({ w with recvSeq := seq, recvInitialized := true }, .decrypted id plaintext)
    | .error e => (w, .cryptoErr id e)
  | .processKeyRotate key frame keyRotateRecvSeq =>
    match Js.processKeyRotate C key frame keyRotateRecvSeq with
    | .ok newKey =>
      ({ w with
          sessionKey := some newKey
          sendSeq := 0
          recvSeq := 0
          recvInitialized := false
          keyRotateRecvSeq := w.keyRotateRecvSeq + 1 }, .keyRotated)
    | .error e => (w, .keyRotateErr e)

/-- One message with nothing in between: the handler starts, suspends and resumes before another
message is taken. -/
def handle (C : CipherSuite) (w : Worker) (msg : InMessage) : Worker × OutMessage :=
  match w.start msg with
  | .inl out => (w, out)
  | .inr p => w.resume C p

end Worker

end LatticeShield.Js
