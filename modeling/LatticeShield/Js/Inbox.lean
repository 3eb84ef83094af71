import LatticeShield.Js.Session

/-!
# Reading from a browser session (`latticeshield-js/src/session.ts`)

`recv` and the emitter it is built on. A call of `recv` registers two listeners: `handler` for
'message', and a one-shot wrapper around `errHandler` for 'error'. `emit` goes through a copy of the
listeners of its event, and what a listener of `recv` does is to take itself off and to settle its
promise; the wrapper takes itself off first. A call that has been resolved leaves its wrapper
registered.

A listener is named by the call it belongs to; other listeners than those of `recv` are left out.
Everything a session does is an event of `Session`, and what it emits goes through the listeners
(`Reader`). For the history a message is numbered in the order of its arrival.
-/

set_option autoImplicit false

namespace LatticeShield.Js

open Lib

/-- The promise of a call of `recv`. For the history the message is recorded by its number,
besides what is in it. -/
inductive Recv where
  | pending
  /-- With the `arrival`-th message. -/
  | resolved (data : Bytes) (arrival : Nat)
  | rejected (reason : String)
deriving DecidableEq, Repr

structure Inbox where
  /-- `listeners.message` and `listeners.error`. -/
  messageListeners : List Nat
  errorListeners : List Nat
  recvs : Nat → Recv
  /-- How often `recv` has been called. -/
  calls : Nat
  /-- What 'message' has been emitted with. -/
  arrivals : List Bytes
  /-- A message has come while no call of `recv` was waiting. -/
  unheard : Bool

namespace Inbox

def new : Inbox where
  messageListeners := []
  errorListeners := []
  recvs := fun _ => .pending
  calls := 0
  arrivals := []
  unheard := false

/-- A call of `recv`: two listeners and a promise. Nothing that has arrived before is looked at,
for nothing is kept of it. -/
def recv (b : Inbox) : Inbox :=
  { b with
    messageListeners := b.messageListeners ++ [b.calls]
    errorListeners := b.errorListeners ++ [b.calls]
    calls := b.calls + 1 }

/-- `resolve` and `reject`, of which only the first counts. -/
def settle (b : Inbox) (k : Nat) (r : Recv) : Inbox :=
  { b with recvs := Function.update b.recvs k (if b.recvs k = .pending then r else b.recvs k) }

/-- `off('message', handler)`. -/
def offMessage (b : Inbox) (k : Nat) : Inbox :=
  { b with messageListeners := b.messageListeners.erase k }

/-- What the 'message' listener does: it takes itself off and resolves. The other listener of its
call stays. -/
def handler (b : Inbox) (k : Nat) (data : Bytes) (arrival : Nat) : Inbox :=
  (b.offMessage k).settle k (.resolved data arrival)

/-- In the wrapper that `once` makes: the wrapper takes itself off, and then the message listener
of its call, before it rejects. -/
def errHandler (b : Inbox) (k : Nat) (reason : String) : Inbox :=
  ({ b with errorListeners := b.errorListeners.erase k }.offMessage k).settle k (.rejected reason)

/-- `emit` goes through a copy of the listeners, so every call that waits gets the same message,
and listeners that come off meanwhile are not skipped. -/
def emit (b : Inbox) : Emission → Inbox
  | .message data =>
    b.messageListeners.foldl (fun c k => c.handler k data b.arrivals.length)
      { b with
        arrivals := b.arrivals ++ [data]
        unheard := b.unheard || b.messageListeners.isEmpty }
  | .error reason => b.errorListeners.foldl (fun c k => c.errHandler k reason) b
  | .close => b
  | .keyrotate => b

end Inbox

def Entry.emission? : Entry → Option Emission
  | .emitted x => some x
  | .closeReturned => none

/-- What a session emits in an event. -/
def PQCSession.emissions (s : PQCSession) (e : SessionEvent) : List Emission :=
  let since :=
    match e with
    | .connect _ _ => (s.step e).since
    | _ => (s.step e).since.drop s.since.length
  since.filterMap Entry.emission?

structure Reader where
  session : PQCSession
  inbox : Inbox

inductive ReaderEvent where
  | recv
  | session (e : SessionEvent)
deriving DecidableEq, Repr

namespace Reader

def new : Reader := ⟨.new, .new⟩

def step (r : Reader) : ReaderEvent → Reader
  | .recv => { r with inbox := r.inbox.recv }
  | .session e => ⟨r.session.step e, (r.session.emissions e).foldl Inbox.emit r.inbox⟩

def run (events : List ReaderEvent) : Reader := events.foldl step new

end Reader

end LatticeShield.Js
