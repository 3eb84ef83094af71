import LatticeShield.Js.Session
import LatticeShield.Js.Framing

/-!
# The traffic of a browser session (`latticeshield-js/src/session.ts`)

What `Session` leaves out: `send`, the frames that come in, and the answers of the worker. A call of
`send` has two `await`s. The first is there only while a key rotation is in progress, and its
`resolve` waits in `sendQueue`; the second waits for the worker, and its `resolve` and `reject` are
in `pendingEncrypt` under a number of their own. Between an `await` and what follows it anything may
be called, so what follows is an event (`continueSend`), and as in `Session` no task comes before it
once the `await` is over. Where an `await` throws nothing follows in the code, and the promise of
the call is rejected at once.

The state, the sockets and the workers are those of `Session`, and every event that it knows goes
there (`act`). Both functions that set the state to 'closed' drain the pending operations next.

The promises in `pendingDecrypt` are nobody's: `onFrameMessage` drops them. A `KEY_ROTATE_ERR`
resumes the queue after it has emitted its error; a handler of that event cannot tell, because what
is resumed goes on in a microtask, and a `close` in it resumes the same.
-/

set_option autoImplicit false

namespace LatticeShield.Js

open Lib

def SessionState.text : SessionState → String
  | .idle => "idle"
  | .connecting => "connecting"
  | .ready => "ready"
  | .error => "error"
  | .closed => "closed"

/-- `new SessionClosedError()`. -/
def sessionClosedError : String := "PQCSession closed"

/-- `ws.send` on a socket that is still connecting. -/
def invalidStateError : String := "InvalidStateError"

/-- Where a call of `send` stands. -/
inductive SendPhase where
  /-- At the `await` in `send`. -/
  | queued (data : Bytes)
  /-- The same, with its `resolve` called. -/
  | resumed (data : Bytes)
  /-- At the `await` in `encryptAndSend`. -/
  | encrypting (id : Nat)
  /-- The same, with its `resolve` called. -/
  | encrypted (frame : Bytes)
  | resolved
  | rejected (reason : String)
deriving DecidableEq, Repr

namespace SendPhase

/-- The promise of the call is settled. -/
def settled : SendPhase → Bool
  | resolved => true
  | rejected _ => true
  | _ => false

def isResumed : SendPhase → Bool
  | resumed _ => true
  | _ => false

/-- A microtask is queued for it. -/
def runnable : SendPhase → Bool
  | resumed _ => true
  | encrypted _ => true
  | _ => false

end SendPhase

/-- Without `INIT`; the id `op-n` is its number. -/
inductive WorkerInMessage where
  | encrypt (id : Nat) (plaintext : Bytes)
  | decrypt (id : Nat) (ciphertext : Bytes)
  | keyRotate (frame : Bytes)
deriving DecidableEq, Repr

/-- `WorkerOutMessage` with its ids. -/
inductive Answer where
  | initOk (clientResponse : Bytes)
  | initErr (error : String)
  | encrypted (id : Nat) (frame : Bytes)
  | decrypted (id : Nat) (plaintext : Bytes)
  | cryptoErr (id : Nat) (error : String)
  | keyRotated
  | keyRotateErr (error : String)
deriving DecidableEq, Repr

/-- What `Session` sees of it. -/
def Answer.message : Answer → WorkerOutMessage
  | initOk clientResponse => .initOk clientResponse
  | initErr error => .initErr error
  | encrypted _ _ => .encrypted
  | decrypted _ plaintext => .decrypted plaintext
  | cryptoErr _ error => .cryptoErr error
  | keyRotated => .keyRotated
  | keyRotateErr error => .keyRotateErr error

structure Traffic where
  session : PQCSession
  /-- The id of an operation and the call of `send` that waits for it. -/
  pendingEncrypt : List (Nat × Nat)
  pendingDecrypt : List Nat
  /-- The calls of `send` whose `resolve` is in the queue. -/
  sendQueue : List Nat
  rotating : Bool
  opIdCounter : Nat
  sends : Nat → SendPhase
  /-- How often `send` has been called. -/
  sent : Nat
  /-- What has been posted, and to which attempt's worker. -/
  posted : List (Nat × WorkerInMessage)
  /-- The frames handed to an attempt's socket. -/
  written : List (Nat × Bytes)

namespace Traffic

def new : Traffic where
  session := .new
  pendingEncrypt := []
  pendingDecrypt := []
  sendQueue := []
  rotating := false
  opIdCounter := 0
  sends := fun _ => .resolved
  sent := 0
  posted := []
  written := []

def setSend (t : Traffic) (k : Nat) (p : SendPhase) : Traffic :=
  { t with sends := Function.update t.sends k p }

/-! ## Sending -/

/-- `encryptAndSend` up to its `await`; what `postMessage` throws, if it does. The operation is in
the map by then. The state of the session is not looked at. -/
def encryptAndSend (t : Traffic) (k : Nat) (data : Bytes) (throws : Option String) : Traffic :=
  let id := t.opIdCounter
  let t : Traffic :=
    { t with opIdCounter := id + 1, pendingEncrypt := t.pendingEncrypt ++ [(id, k)] }
  match t.session.worker, throws with
  | none, _ => t.setSend k (.encrypting id)
  | some _, some e => t.setSend k (.rejected e)
  | some j, none =>
    { t with posted := t.posted ++ [(j, WorkerInMessage.encrypt id data)] }.setSend k (.encrypting id)

def send (t : Traffic) (data : Bytes) (throws : Option String) : Traffic :=
  let k := t.sent
  let t : Traffic := { t with sent := k + 1 }
  if t.session.state ≠ .ready then
    t.setSend k (.rejected s!"send() called in state \"{t.session.state.text}\"")
  else if t.rotating then { t with sendQueue := t.sendQueue ++ [k] }.setSend k (.queued data)
  else t.encryptAndSend k data throws

/-- `this.ws?.send(frame)`. A socket that is closing or closed drops the frame. -/
def sendFrame (t : Traffic) (k : Nat) (frame : Bytes) : Traffic :=
  match t.session.ws with
  | none => t.setSend k .resolved
  | some i =>
    if (t.session.attempts i).socket = some .connecting then
      t.setSend k (.rejected invalidStateError)
    else { t with written := t.written ++ [(i, frame)] }.setSend k .resolved

/-- `send` behind one of its `await`s. -/
def continueSend (t : Traffic) (k : Nat) (throws : Option String) : Traffic :=
  match t.sends k with
  | .resumed data => t.encryptAndSend k data throws
  | .encrypted frame => t.sendFrame k frame
  | _ => t

/-! ## The pending operations -/

/-- The queue is emptied and every `resolve` in it called. -/
def resumeQueue (t : Traffic) : Traffic :=
  { t with
    sendQueue := []
    sends := fun k =>
      match t.sends k with
      | .queued data => if k ∈ t.sendQueue then .resumed data else .queued data
      | p => p }

def drainPending (t : Traffic) : Traffic :=
  { t with
    pendingEncrypt := []
    pendingDecrypt := []
    sends := fun k =>
      match t.sends k with
      | .encrypting id =>
        if (id, k) ∈ t.pendingEncrypt then .rejected sessionClosedError else .encrypting id
      | p => p }.resumeQueue

/-- `pendingEncrypt.delete(id)` and `op.resolve` or `op.reject`, when there is such an operation.
A promise that `postMessage` has rejected stays as it is. -/
def settleEncrypt (t : Traffic) (id : Nat) (p : SendPhase) : Traffic :=
  match t.pendingEncrypt.lookup id with
  | none => t
  | some k =>
    { t with
      pendingEncrypt := t.pendingEncrypt.filter fun op => op.1 ≠ id
      sends := if t.sends k = .encrypting id then Function.update t.sends k p else t.sends }

def deleteDecrypt (t : Traffic) (id : Nat) : Traffic :=
  { t with pendingDecrypt := t.pendingDecrypt.filter (· ≠ id) }

def onWorkerMessage (t : Traffic) : Answer → Traffic
  | .initOk _ => t
  | .initErr _ => t
  | .encrypted id frame => t.settleEncrypt id (.encrypted frame)
  | .decrypted id _ => t.deleteDecrypt id
  | .cryptoErr id error =>
    if (t.pendingEncrypt.lookup id).isSome then t.settleEncrypt id (.rejected error)
    else t.deleteDecrypt id
  | .keyRotated => { t with rotating := false }.resumeQueue
  | .keyRotateErr _ => { t with rotating := false }.resumeQueue

/-! ## Frames -/

def post (t : Traffic) (msg : WorkerInMessage) : Traffic :=
  t.session.worker.elim t fun j => { t with posted := t.posted ++ [(j, msg)] }

def onFrameMessage (t : Traffic) (data : Bytes) : Traffic :=
  if data.length = 0 then t
  else if data.headD 0 = frameKeyRotate then { t with rotating := true }.post (.keyRotate data)
  else
    let id := t.opIdCounter
    { t with opIdCounter := id + 1, pendingDecrypt := t.pendingDecrypt ++ [id] }.post
      (.decrypt id data)

/-! ## Events -/

/-- An event of the session. Where it sets the state to 'closed', it drains: the operations are
rejected, and the calls that wait for a rotation resumed. -/
def act (t : Traffic) (e : SessionEvent) : Traffic :=
  let s := t.session.step e
  if t.session.state ≠ .closed ∧ s.state = .closed then { t with session := s }.drainPending
  else { t with session := s }

def wsMessage (t : Traffic) (i : Nat) (data : Bytes) : Traffic :=
  let a := t.session.attempts i
  let t := t.act (.wsMessage i data)
  if a.socket = some .opened ∧ a.permanentListeners then t.onFrameMessage data else t

def workerMessage (t : Traffic) (j : Nat) (answer : Answer) : Traffic :=
  if (t.session.attempts j).workerAlive then
    (t.onWorkerMessage answer).act (.workerMessage j answer.message)
  else t

/-- All microtasks have run. -/
def quiet (t : Traffic) : Bool :=
  t.session.settled && (List.range t.sent).all fun k => !(t.sends k).runnable

def task (t : Traffic) (f : Traffic → Traffic) : Traffic := if t.quiet then f t else t

end Traffic

inductive TrafficEvent where
  | send (data : Bytes) (throws : Option String)
  /-- The microtask of an `await` of the `k`-th call. -/
  | continueSend (k : Nat) (throws : Option String)
  | connect (workerThrows socketThrows : Option String)
  | close
  | continueConnect (i : Nat)
  | wsOpen (i : Nat)
  | wsMessage (i : Nat) (data : Bytes)
  | wsError (i : Nat)
  | wsClose (i : Nat)
  | workerMessage (j : Nat) (answer : Answer)
  | workerError (j : Nat) (message : String)
  | timeout (i : Nat)
deriving DecidableEq, Repr

namespace Traffic

def step (t : Traffic) : TrafficEvent → Traffic
  | .send data throws => t.send data throws
  | .continueSend k throws => t.continueSend k throws
  | .connect workerThrows socketThrows => t.act (.connect workerThrows socketThrows)
  | .close => t.act .close
  | .continueConnect i => t.act (.continue_ i)
  | .wsOpen i => t.task (·.act (.wsOpen i))
  | .wsMessage i data => t.task (·.wsMessage i data)
  | .wsError i => t.task (·.act (.wsError i))
  | .wsClose i => t.task (·.act (.wsClose i))
  | .workerMessage j answer => t.task (·.workerMessage j answer)
  | .workerError j message => t.task (·.act (.workerError j message))
  | .timeout i => t.task (·.act (.timeout i))

def run (events : List TrafficEvent) : Traffic := events.foldl step new

end Traffic

end LatticeShield.Js
