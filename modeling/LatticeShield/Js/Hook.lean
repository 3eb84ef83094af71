import LatticeShield.Js.Inbox

/-!
# The React hook (`latticeshield-js/src/hooks/usePQCSession.ts`)

`usePQCSession` owns one `PQCSession` at a time. Every call of `doConnect` makes a new one, connects
it once and leaves behind the one before it, whose sockets, timers and promises go on in their
closures. So the hook has a family of sessions, in the order in which they were made, and
`sessionRef` points to one of them. The listeners that `doConnect` registers are the same for every
session: they look only at the refs.

A timer of the hook is pending from its `setTimeout` until it fires or is cleared; the ref holds the
last one that was set, whatever has become of it. The callbacks behind `session.connect()` are
microtasks, and as in `Session` no task comes before a microtask. React calls the two functions of
`useEffect` in turn; `connect` and `disconnect` may be called at any moment. The options are those
of the first render.

For the history the hook notes which sessions it closed, and why, and how many attempts it has made
since an established session was dropped.
-/

set_option autoImplicit false

namespace LatticeShield.Js

open Lib

/-- The options of the hook, with their defaults. `strict` is handed to the session; the others
are the hook's own. -/
structure UsePQCSessionOptions where
  bridgeUrl : String
  strict : Bool := false
  autoConnect : Bool := true
  maxReconnectAttempts : Nat := 3
deriving DecidableEq, Repr

/-- The values `setStatus` is called with. They are what a component shows, and nothing in the
hook reads them back. -/
inductive HookStatus where
  | idle
  | connecting
  | connected
  | disconnected
  | error
deriving DecidableEq, Repr

/-- The callbacks of `session.connect().then(..).catch(..)`. One of the two runs, once, when the
promise has settled. -/
inductive Callback where
  | waiting
  /-- The promise of `connect` has settled. -/
  | queued (result : Promise)
  | done
deriving DecidableEq, Repr

/-- Why the hook closes a session: on behalf of whom `closeSession` was called. It is history
only. -/
inductive Cause where
  | mount
  | unmount
  | connect
  | disconnect
  | timer
deriving DecidableEq, Repr

/-- A call of `sessionRef.current.close()`, with the state of the session before it. -/
structure HookClose where
  cause : Cause
  session : Nat
  state : SessionState
deriving DecidableEq, Repr

/-- The state of one hook: what it renders, its refs, and the sessions it has made, of which one
at most is in use. -/
structure Hook where
  status : HookStatus
  lastMessage : Option Bytes
  error : Option String
  sessionRef : Option Nat
  reconnectAttempts : Nat
  isMounted : Bool
  reconnectTimerRef : Option Nat
  /-- The effect has run and its cleanup has not. -/
  mounted : Bool
  sessions : Nat → PQCSession
  created : Nat
  callbacks : Nat → Callback
  /-- The pending timers, with their delays in ms. -/
  timers : List (Nat × Nat)
  timersSet : Nat
  closes : List HookClose
  /-- The attempts since an established session was dropped, if none of them has succeeded. -/
  sinceDrop : Option Nat

namespace Hook

variable (o : UsePQCSessionOptions)

def new : Hook where
  status := .idle
  lastMessage := none
  error := none
  sessionRef := none
  reconnectAttempts := 0
  isMounted := true
  reconnectTimerRef := none
  mounted := false
  sessions := fun _ => .new
  created := 0
  callbacks := fun _ => .done
  timers := []
  timersSet := 0
  closes := []
  sinceDrop := none

/-! ## Timers -/

/-- `reconnectTimerRef.current = setTimeout(..)`. The ref forgets a timer that was in it, and that
one is still pending. -/
def setReconnectTimer (h : Hook) (delay : Nat) : Hook :=
  { h with
    reconnectTimerRef := some h.timersSet
    timers := h.timers ++ [(h.timersSet, delay)]
    timersSet := h.timersSet + 1 }

/-- `clearTimeout` on what the ref holds. A timer that has fired is not pending any more, and
clearing it does nothing. -/
def clearReconnectTimer (h : Hook) : Hook :=
  match h.reconnectTimerRef with
  | none => h
  | some t =>
    { h with reconnectTimerRef := none, timers := h.timers.filter fun x => x.1 ≠ t }

/-! ## The listeners -/

/-- The 'close' listener: the only place that sets a timer. The delay is taken from the count
before it is raised. -/
def onClose (h : Hook) : Hook :=
  if ¬ h.isMounted then h
  else
    let h := { h with status := .disconnected }
    if h.reconnectAttempts < o.maxReconnectAttempts then
      { h with reconnectAttempts := h.reconnectAttempts + 1 }.setReconnectTimer
        (min (1000 * 2 ^ h.reconnectAttempts) 30000)
    else h

/-- The 'error' listener shows the error and plans nothing. A close that follows it has its own
listener. -/
def onError (h : Hook) (reason : String) : Hook :=
  if ¬ h.isMounted then h else { h with error := some reason, status := .error }

def onMessage (h : Hook) (data : Bytes) : Hook :=
  if h.isMounted then { h with lastMessage := some data } else h

def onEmission (h : Hook) : Emission → Hook
  | .message data => h.onMessage data
  | .error reason => h.onError reason
  | .close => h.onClose o
  | .keyrotate => h

/-- An event of the `k`-th session, with what it emits. The listeners run within the event, in the
order of the emissions. -/
def runSession (h : Hook) (k : Nat) (e : SessionEvent) : Hook :=
  ((h.sessions k).emissions e).foldl (onEmission o)
    { h with sessions := Function.update h.sessions k ((h.sessions k).step e) }

/-- The history of the closes. -/
def noteClose (h : Hook) (cause : Cause) (k : Nat) : Hook :=
  { h with closes := h.closes ++ [⟨cause, k, (h.sessions k).state⟩] }

/-- `sessionRef.current?.close()` and the `null` behind it. The listeners of the session hear its
'close' before the ref is cleared, so a close by the hook looks like any other to them. -/
def closeSession (h : Hook) (cause : Cause) : Hook :=
  match h.sessionRef with
  | none => h
  | some k => { (h.noteClose cause k).runSession o k .close with sessionRef := none }

/-! ## Connecting -/

/-- The constructor of `PQCSession` throws. -/
def badUrl : Bool := !("wss://".toList.isPrefixOf o.bridgeUrl.toList)

/-- What the promise of `connect` settles with, when that of its handshake does with `p`. -/
def connectResult (p : Promise) : Promise :=
  match p with
  | .rejected e => if o.strict then .rejected e else .resolved
  | p => p

/-- What the constructors of the worker and the socket throw, if they do. A session in use is
closed first, then a new one is made, put into the ref and connected. -/
def doConnect (h : Hook) (cause : Cause) (workerThrows socketThrows : Option String) : Hook :=
  if ¬ h.isMounted then h
  else
    let h := h.closeSession o cause
    let h := { h with status := .connecting, error := none }
    if badUrl o then
      { h with
        status := .error
        error := some s!"latticeshield-js requires wss:// — got: {o.bridgeUrl}" }
    else
      let k := h.created
      -- without a worker `connect` is over at once
      let callback : Callback :=
        workerThrows.elim .waiting fun e => .queued (connectResult o (.rejected e))
      { h with
        sessionRef := some k
        created := k + 1
        sinceDrop := h.sinceDrop.map (· + 1)
        callbacks := Function.update h.callbacks k callback }.runSession o k
          (.connect workerThrows socketThrows)

/-- `disconnect`. The count is raised to its limit first, so that the 'close' it brings about sets
no timer. -/
def disconnect (h : Hook) : Hook :=
  let h := h.clearReconnectTimer
  let h := { h with reconnectAttempts := o.maxReconnectAttempts }
  { h.closeSession o .disconnect with status := .disconnected }

/-- The effect, which does not run again before its cleanup has. The count of attempts begins at 0
each time. -/
def mount (h : Hook) (workerThrows socketThrows : Option String) : Hook :=
  if h.mounted then h
  else
    let h := { h with mounted := true, isMounted := true, reconnectAttempts := 0 }
    if o.autoConnect then h.doConnect o .mount workerThrows socketThrows else h

/-- Its cleanup. The ref `isMounted` is cleared first, and with it all listeners and callbacks are
silenced. -/
def unmount (h : Hook) : Hook :=
  if h.mounted then
    ({ h with mounted := false, isMounted := false }.clearReconnectTimer).closeSession o .unmount
  else h

/-! ## Microtasks and tasks -/

/-- The callback of the `k`-th session's `connect`. It looks at the refs and not at the session:
whatever has become of it since, the status is 'connected'. -/
def then_ (h : Hook) (k : Nat) : Hook :=
  match h.callbacks k with
  | .queued .resolved =>
    let h := { h with callbacks := Function.update h.callbacks k .done }
    if h.isMounted then { h with status := .connected, reconnectAttempts := 0 } else h
  | .queued (.rejected e) =>
    let h := { h with callbacks := Function.update h.callbacks k .done }
    if ¬ h.isMounted then h else { h with error := some e, status := .error }
  | _ => h

/-- When an event of the `k`-th session lets `connect` go on, its promise settles. -/
def settleConnect (h : Hook) (k : Nat) (before : PQCSession) : SessionEvent → Hook
  | .continue_ i =>
    if (before.attempts i).continued = false ∧ (before.attempts i).promise ≠ .pending then
      let callback : Callback := .queued (connectResult o (before.attempts i).promise)
      { h with callbacks := Function.update h.callbacks k callback }
    else h
  | _ => h

/-- The history of the drops, of which only those of the session in use count. -/
def noteDrop (h : Hook) (k : Nat) (before : PQCSession) : Hook :=
  if h.sessionRef = some k then
    if before.state = .ready ∧ (h.sessions k).state = .closed then { h with sinceDrop := some 0 }
    else if before.state ≠ .ready ∧ (h.sessions k).state = .ready then { h with sinceDrop := none }
    else h
  else h

def session (h : Hook) (k : Nat) (e : SessionEvent) : Hook :=
  let before := h.sessions k
  ((h.runSession o k e).settleConnect o k before e).noteDrop k before

/-- All microtasks have run. -/
def quiet (h : Hook) : Bool :=
  (List.range h.created).all fun k => (h.sessions k).settled &&
    match h.callbacks k with
    | .queued _ => false
    | _ => true

/-- A timer fires: the retry is a `doConnect` like any other, made only while the hook is mounted.
-/
def timer (h : Hook) (t : Nat) (workerThrows socketThrows : Option String) : Hook :=
  if h.timers.any fun x => x.1 = t then
    let h := { h with timers := h.timers.filter fun x => x.1 ≠ t }
    if h.isMounted then h.doConnect o .timer workerThrows socketThrows else h
  else h

end Hook

inductive HookEvent where
  | mount (workerThrows socketThrows : Option String)
  | unmount
  | connect (workerThrows socketThrows : Option String)
  | disconnect
  | then_ (k : Nat)
  /-- The microtask of the `k`-th session's `await`. -/
  | continue_ (k i : Nat)
  /-- A callback of the `k`-th session's socket, worker or timer. -/
  | session (k : Nat) (e : SessionEvent)
  | timer (t : Nat) (workerThrows socketThrows : Option String)
deriving DecidableEq, Repr

/-- An event that is not a call and not a microtask. -/
def SessionEvent.isTask : SessionEvent → Bool
  | connect _ _ => false
  | close => false
  | continue_ _ => false
  | _ => true

namespace Hook

variable (o : UsePQCSessionOptions)

def step (h : Hook) : HookEvent → Hook
  | .mount workerThrows socketThrows => h.mount o workerThrows socketThrows
  | .unmount => h.unmount o
  | .connect workerThrows socketThrows => h.doConnect o .connect workerThrows socketThrows
  | .disconnect => h.disconnect o
  | .then_ k => h.then_ k
  | .continue_ k i => if k < h.created then h.session o k (.continue_ i) else h
  | .session k e => if k < h.created ∧ e.isTask ∧ h.quiet then h.session o k e else h
  | .timer t workerThrows socketThrows =>
    if h.quiet then h.timer o t workerThrows socketThrows else h

def run (events : List HookEvent) : Hook := events.foldl (step o) new

end Hook

end LatticeShield.Js
