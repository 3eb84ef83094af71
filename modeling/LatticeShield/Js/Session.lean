import Mathlib.Logic.Function.Basic
import LatticeShield.Lib.Bytes

/-!
# The life of a browser session (`latticeshield-js/src/session.ts`)

`PQCSession` on the main thread: `connect`, `close`, and what the WebSocket, the worker and the
handshake's timer call back. A session may be connected again and again. Each `connect` is an
`Attempt` with a socket, a worker, a timer and a promise of its own, and these live on in the
closures of `performHandshake` when the session has turned to another: the handshake-scoped
listeners close over their own socket and promise and over `this`. So callbacks of every attempt
are events here, those of old ones too.

A callback is a task, and the continuation of `connect` behind its `await` is a microtask: once the
promise is settled no task comes before it. Calls of the public functions may come at any moment,
also from the handlers an `emit` runs, which are the last thing or all but the last thing a function
does. From the platform the model takes that a socket delivers messages while it is open, that an
error or a close may come until it is closed, and that nothing comes from a worker after
`terminate()`.

Left out is the traffic of a session that is ready: `send`, `recv`, the pending operations and the
queue of a rotation. Of an incoming frame nothing is left then, and of a worker's answer the event
it emits.
-/

set_option autoImplicit false

namespace LatticeShield.Js

open Lib

def serverHelloSignedLen : Nat := 4557
def clientResponseLen : Nat := 1120

/-- The values of `state`. Only from 'idle' and 'closed' may a session be connected; one in the
state 'error' has to be closed first. -/
inductive SessionState where
  | idle
  | connecting
  | ready
  | error
  | closed
deriving DecidableEq, Repr

/-- `WebSocket.readyState`. A socket that is told to close while it is still connecting is
closing, too. -/
inductive ReadyState where
  | connecting
  | opened
  | closing
  | closed
deriving DecidableEq, Repr

/-- The promise of `performHandshake`, with the text of the error it is rejected with. -/
inductive Promise where
  | pending
  | resolved
  | rejected (reason : String)
deriving DecidableEq, Repr

/-- `WorkerOutMessage`; ids are left out with the operations they are for. -/
inductive WorkerOutMessage where
  | initOk (clientResponse : Bytes)
  | initErr (error : String)
  | encrypted
  | decrypted (plaintext : Bytes)
  | cryptoErr (error : String)
  | keyRotated
  | keyRotateErr (error : String)
deriving DecidableEq, Repr

/-- What `emit` is called with. Listeners are called at once and in order, so an emission is part
of the step that makes it. -/
inductive Emission where
  | message (data : Bytes)
  | error (reason : String)
  | close
  | keyrotate
deriving DecidableEq, Repr

/-- One call of `performHandshake`, with what its closures hold: its own socket, worker, timer and
promise. They outlive the session's turning to another attempt. -/
structure Attempt where
  /-- Absent when its constructor threw. -/
  socket : Option ReadyState := none
  /-- `onOpen`, `onMessage`, `onError` and `onClose` are registered. -/
  handshakeListeners : Bool := false
  /-- `_boundOnFrameMessage`, `_onWsClose` and `_onWsError` are registered. -/
  permanentListeners : Bool := false
  timer : Bool := false
  workerAlive : Bool := false
  /-- The attempts whose `workerHandler` is registered on this worker. -/
  workerHandlers : List Nat := []
  promise : Promise := .resolved
  /-- `connect` has gone on after its `await`. -/
  continued : Bool := true
deriving DecidableEq, Repr

/-- What callers see: the events, and the return of `close`, which tells them that the session is
over. -/
inductive Entry where
  | closeReturned
  | emitted (e : Emission)
deriving DecidableEq, Repr

structure PQCSession where
  state : SessionState
  intentionalClose : Bool
  /-- Which attempt's socket and worker `this.ws` and `this.worker` are. -/
  ws : Option Nat
  worker : Option Nat
  attempts : Nat → Attempt
  /-- How many attempts there have been. -/
  started : Nat
  /-- What has happened since `connect` was last called. -/
  since : List Entry
  /-- How many attempts there had been when `close` last returned. -/
  closedAttempts : Nat

namespace PQCSession

def new : PQCSession where
  state := .idle
  intentionalClose := false
  ws := none
  worker := none
  attempts := fun _ => {}
  started := 0
  since := []
  closedAttempts := 0

def modify (s : PQCSession) (i : Nat) (f : Attempt → Attempt) : PQCSession :=
  { s with attempts := Function.update s.attempts i (f (s.attempts i)) }

def emit (s : PQCSession) (e : Emission) : PQCSession :=
  { s with since := s.since ++ [.emitted e] }

/-! ## What a closure can do to its own attempt -/

/-- `ws.close()`. It does nothing to a socket that is closing or closed, and the 'close' event
comes later, as a task. -/
def closeSocket (s : PQCSession) (i : Nat) : PQCSession :=
  s.modify i fun a => { a with socket := a.socket.map fun
    | .connecting => .closing
    | .opened => .closing
    | r => r }

def clearTimeout (s : PQCSession) (i : Nat) : PQCSession :=
  s.modify i fun a => { a with timer := false }

/-- `resolve()` and `reject(..)`, of which only the first counts. The continuation behind the
`await` is queued by it and does not run yet. -/
def settle (s : PQCSession) (i : Nat) (p : Promise) : PQCSession :=
  s.modify i fun a => { a with promise := if a.promise = .pending then p else a.promise }

/-! ## Public functions -/

/-- `connect` up to its `await`; what the constructors of the worker and the socket throw, if they
do. The guard on the state lets a session be connected again once it is closed, with a new
attempt. -/
def connect (s : PQCSession) (workerThrows socketThrows : Option String) : PQCSession :=
  let s : PQCSession := { s with intentionalClose := false, since := [] }
  if s.state ≠ .idle ∧ s.state ≠ .closed then s
  else
    let s : PQCSession := { s with state := .connecting }
    match workerThrows with
    | some e => { s with state := .error }.emit (.error e)
    | none =>
      let i := s.started
      let s : PQCSession := { s with worker := some i, started := i + 1 }
      match socketThrows with
      | some e =>
        s.modify i fun _ => { workerAlive := true, promise := .rejected e, continued := false }
      | none =>
        { s with ws := some i }.modify i fun _ =>
          { socket := some .connecting, handshakeListeners := true, timer := true,
            workerAlive := true, promise := .pending, continued := false }

/-- `connect` behind its `await`: the session is ready when the promise was resolved, and in the
state 'error' when it was rejected. Nothing is asked about what has happened in between. -/
def continueConnect (s : PQCSession) (i : Nat) : PQCSession :=
  if (s.attempts i).continued then s
  else
    match (s.attempts i).promise with
    | .pending => s
    | .resolved => { s with state := .ready }.modify i fun a => { a with continued := true }
    | .rejected e =>
      ({ s with state := .error }.modify i fun a => { a with continued := true }).emit (.error e)

/-- `worker?.terminate()`, the removal of the permanent listeners and the two `null`s. Neither the
handshake's listeners nor its timer are touched. -/
def release (s : PQCSession) : PQCSession :=
  let s := s.worker.elim s fun i => s.modify i fun a => { a with workerAlive := false }
  let s := s.ws.elim s fun i => s.modify i fun a => { a with permanentListeners := false }
  { s with ws := none, worker := none }

/-- `close()`. On a session that is closed already it only returns; otherwise 'close' is emitted
last, when everything is released. -/
def close (s : PQCSession) : PQCSession :=
  let returned (s : PQCSession) : PQCSession :=
    { s with since := s.since ++ [.closeReturned], closedAttempts := s.started }
  if s.state = .closed then returned s
  else
    let s : PQCSession := { s with intentionalClose := true, state := .closed }
    let s := s.ws.elim s s.closeSocket
    returned (s.release.emit .close)

/-! ## Callbacks of the socket -/

/-- `onMessage` of the handshake: a hello goes to the worker that `this` has now, which need not
be the attempt's own. -/
def onMessage (s : PQCSession) (i : Nat) (data : Bytes) : PQCSession :=
  if data.length = serverHelloSignedLen then
    match s.worker with
    -- `this.worker!.postMessage` throws
    | none => s
    | some j => s.modify j fun a => { a with workerHandlers := a.workerHandlers ++ [i] }
  else
    ((s.clearTimeout i).closeSocket i).settle i (.rejected
      (s!"unexpected message during handshake: expected {serverHelloSignedLen} bytes, got " ++
        s!"{data.length}"))

/-- `onError` of the handshake. Unlike `onMessage` it leaves the socket as it is, which has failed
anyway. -/
def onError (s : PQCSession) (i : Nat) : PQCSession :=
  (s.clearTimeout i).settle i (.rejected "WebSocket error during handshake")

def onClose (s : PQCSession) (i : Nat) : PQCSession :=
  (s.clearTimeout i).settle i (.rejected "WebSocket closed during handshake")

/-- `handleWsClose`, for a socket whose permanent listeners are up. It closes the session that
`this` is, and does not ask whose socket it was. -/
def handleWsClose (s : PQCSession) : PQCSession :=
  if s.state = .closed ∨ s.intentionalClose then s
  else { s with state := .closed }.release.emit .close

/-- `handleWsError` only reports; a socket that has failed is closed by the platform, with a task
of its own. -/
def handleWsError (s : PQCSession) : PQCSession :=
  if s.state ≠ .closed then s.emit (.error "WebSocket error") else s

/-- The listeners of an event of attempt `i`'s socket, in the order of their registration. The
handshake's may remove themselves and put up the permanent ones, which then do not hear this
event. -/
def dispatch (s : PQCSession) (i : Nat) (handshake permanent : PQCSession → PQCSession) :
    PQCSession :=
  let a := s.attempts i
  let s := if a.handshakeListeners then handshake s else s
  if a.permanentListeners then permanent s else s

def setSocket (s : PQCSession) (i : Nat) (r : ReadyState) : PQCSession :=
  s.modify i fun a => { a with socket := some r }

def wsOpen (s : PQCSession) (i : Nat) : PQCSession :=
  if (s.attempts i).socket = some .connecting then s.setSocket i .opened else s

/-- A message of a socket that is open. A frame of a session that is ready goes to the worker, and
is `Traffic`'s. -/
def wsMessage (s : PQCSession) (i : Nat) (data : Bytes) : PQCSession :=
  if (s.attempts i).socket = some .opened then s.dispatch i (·.onMessage i data) id else s

/-- A socket that has been there and is not closed. Nothing comes from one that is, and nothing
from a constructor that threw. -/
def unclosed (a : Attempt) : Bool := a.socket.any (· ≠ .closed)

def wsError (s : PQCSession) (i : Nat) : PQCSession :=
  if unclosed (s.attempts i) then s.dispatch i (·.onError i) handleWsError else s

def wsClose (s : PQCSession) (i : Nat) : PQCSession :=
  if unclosed (s.attempts i) then
    (s.setSocket i .closed).dispatch i (·.onClose i) handleWsClose
  else s

/-! ## Callbacks of the worker and of the timer -/

/-- The worker's permanent `onmessage`. The two answers to `INIT` are for the handshake's own
handler and do nothing here. -/
def onWorkerMessage (s : PQCSession) : WorkerOutMessage → PQCSession
  | .initOk _ => s
  | .initErr _ => s
  | .encrypted => s
  | .decrypted plaintext => s.emit (.message plaintext)
  | .cryptoErr error => s.emit (.error error)
  | .keyRotated => s.emit .keyrotate
  | .keyRotateErr error => s.emit (.error s!"KEY_ROTATE failed: {error}")

/-- `workerHandler` of attempt `i`. With `this.worker` null its first line throws. -/
def workerHandler (s : PQCSession) (i : Nat) : WorkerOutMessage → PQCSession
  | .initOk clientResponse =>
    s.worker.elim s fun j =>
      let s := s.modify j fun a => { a with workerHandlers := a.workerHandlers.erase i }
      let s := s.clearTimeout i
      if clientResponse.length ≠ clientResponseLen then
        (s.closeSocket i).settle i
          (.rejected s!"unexpected clientResponse length: {clientResponse.length}")
      -- `ws.send` throws
      else if (s.attempts i).socket = some .connecting then s
      else
        let s := s.modify i fun a =>
          { a with handshakeListeners := false, permanentListeners := true }
        s.settle i .resolved
  | .initErr error =>
    s.worker.elim s fun j =>
      let s := s.modify j fun a => { a with workerHandlers := a.workerHandlers.erase i }
      ((s.clearTimeout i).closeSocket i).settle i (.rejected error)
  | _ => s

def workerMessage (s : PQCSession) (j : Nat) (msg : WorkerOutMessage) : PQCSession :=
  if (s.attempts j).workerAlive then
    (s.attempts j).workerHandlers.foldl (fun s i => s.workerHandler i msg) (s.onWorkerMessage msg)
  else s

def workerError (s : PQCSession) (j : Nat) (message : String) : PQCSession :=
  if (s.attempts j).workerAlive then s.emit (.error s!"Worker error: {message}") else s

/-- The handshake's timer fires, unless it was cleared. It rejects its own attempt's promise and
closes its own socket, whatever `this` has turned to. -/
def timeout (s : PQCSession) (i : Nat) : PQCSession :=
  if (s.attempts i).timer then
    ((s.clearTimeout i).closeSocket i).settle i (.rejected "handshake timeout")
  else s

end PQCSession

/-! ## Events -/

inductive SessionEvent where
  | connect (workerThrows socketThrows : Option String)
  | close
  /-- The microtask of an attempt's `await`. -/
  | continue_ (i : Nat)
  | wsOpen (i : Nat)
  | wsMessage (i : Nat) (data : Bytes)
  | wsError (i : Nat)
  | wsClose (i : Nat)
  | workerMessage (i : Nat) (msg : WorkerOutMessage)
  | workerError (i : Nat) (message : String)
  | timeout (i : Nat)
deriving DecidableEq, Repr

/-- The attempt an event belongs to. The calls belong to none: they are about the session as it
is. -/
def SessionEvent.attempt? : SessionEvent → Option Nat
  | connect _ _ => none
  | close => none
  | continue_ i => some i
  | wsOpen i => some i
  | wsMessage i _ => some i
  | wsError i => some i
  | wsClose i => some i
  | workerMessage i _ => some i
  | workerError i _ => some i
  | timeout i => some i

namespace PQCSession

/-- No continuation is queued: every promise that is settled has been followed up. Only then does
the platform start a task. -/
def settled (s : PQCSession) : Bool :=
  (List.range s.started).all fun i =>
    (s.attempts i).continued || decide ((s.attempts i).promise = .pending)

def task (s : PQCSession) (f : PQCSession → PQCSession) : PQCSession :=
  if s.settled then f s else s

def step (s : PQCSession) : SessionEvent → PQCSession
  | .connect workerThrows socketThrows => s.connect workerThrows socketThrows
  | .close => s.close
  | .continue_ i => s.continueConnect i
  | .wsOpen i => s.task (·.wsOpen i)
  | .wsMessage i data => s.task (·.wsMessage i data)
  | .wsError i => s.task (·.wsError i)
  | .wsClose i => s.task (·.wsClose i)
  | .workerMessage i msg => s.task (·.workerMessage i msg)
  | .workerError i message => s.task (·.workerError i message)
  | .timeout i => s.task (·.timeout i)

def run (events : List SessionEvent) : PQCSession := events.foldl step new

end PQCSession

end LatticeShield.Js
