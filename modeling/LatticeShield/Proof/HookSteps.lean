import LatticeShield.Js.Hook
import LatticeShield.Proof.Inbox
import LatticeShield.Proof.JsSession

/-!
# What an event does to the React hook

The listeners of the hook never touch the sessions, and of all they can do only one thing outlives
the next `setStatus`: the 'close' listener sets a timer (`Frame`). The session in use keeps the
invariant of `Session`, because the hook calls `close` on it only to leave it behind; of a session
that has been left nothing can come any more but the end of its `connect` (`Wired`). In particular
it emits no second 'close'.
-/

set_option autoImplicit false

namespace LatticeShield.Js

open Lib

/-! ## What a session says to its listeners -/

namespace PQCSession

variable {s : PQCSession}

theorem emissions_of_inner {e : SessionEvent} {i : Nat} (he : e.attempt? = some i)
    (h : Inner s (s.step e)) : .close ∉ s.emissions e := by
  obtain ⟨es, hsince, hes, -⟩ := h.since
  rw [emissions_eq es (not_connect he) hsince]
  intro hmem
  obtain ⟨x, hx, hclose⟩ := List.mem_filterMap.mp hmem
  obtain ⟨x', rfl, hne⟩ := hes x hx
  exact hne (Option.some.inj hclose)

/-- 'close' is emitted exactly when the state turns to 'closed', and then alone. So the listeners
of the hook hear of a drop once, and what else a session emits comes from a session that is not
closed. -/
theorem Attached.emissions_cases (att : Attached s) (e : SessionEvent) :
    (s.state ≠ .closed ∧ (s.step e).state = .closed ∧ s.emissions e = [.close]) ∨
    (((s.step e).state = .closed → s.state = .closed) ∧
      (s.emissions e = [] ∨ ∃ x, x ≠ .close ∧ s.emissions e = [x])) := by
  -- it is enough to know that 'close' is not among what is emitted
  have hnot (h : .close ∉ s.emissions e) :
      s.emissions e = [] ∨ ∃ x, x ≠ .close ∧ s.emissions e = [x] := by
    rcases PQCSession.emissions_cases s e with hnone | ⟨x, hone⟩
    · exact Or.inl hnone
    · refine Or.inr ⟨x, ?_, hone⟩
      rintro rfl
      exact h (by rw [hone]; simp)
  have heffect := att.step_effect e
  generalize hstep : s.step e = s' at heffect
  cases heffect with
  | inner attempt inner =>
    refine Or.inr ⟨fun h => inner.state.symm.trans h, hnot ?_⟩
    exact emissions_of_inner attempt (hstep ▸ inner)
  | refused workerThrows socketThrows busy =>
    exact Or.inr ⟨fun h => absurd h busy.2, Or.inl (by simp [emissions, hstep])⟩
  | workerless e socketThrows free =>
    refine Or.inr ⟨fun h => SessionState.noConfusion h, Or.inr ⟨.error e, by simp, ?_⟩⟩
    simp [emissions, hstep, Entry.emission?]
  | socketless e free =>
    exact Or.inr ⟨fun h => SessionState.noConfusion h,
      Or.inl (by simp [emissions, hstep, PQCSession.begin, modify])⟩
  | begun free =>
    exact Or.inr ⟨fun h => SessionState.noConfusion h,
      Or.inl (by simp [emissions, hstep, PQCSession.begin, modify])⟩
  | ready i waits resolved =>
    exact Or.inr ⟨fun h => SessionState.noConfusion h,
      Or.inl (by simp [emissions, hstep, modify])⟩
  | failed i e waits rejected =>
    refine Or.inr ⟨fun h => SessionState.noConfusion h, Or.inr ⟨.error e, by simp, ?_⟩⟩
    exact emissions_eq [.emitted (.error e)] (by simp) (by rw [hstep]; rfl)
  | closedAgain closed =>
    refine Or.inr ⟨fun _ => closed, Or.inl ?_⟩
    exact emissions_eq [.closeReturned] (by simp) (by rw [hstep]; rfl)
  -- `close()` on a session that is not closed yet: its socket is told first, which emits nothing
  | closed isOpen =>
    refine Or.inl ⟨isOpen, rfl, ?_⟩
    have hshut : s.shut.since = s.since := by
      unfold PQCSession.shut
      cases s.ws <;> rfl
    refine emissions_eq [.emitted .close, .closeReturned] (by simp) ?_
    rw [hstep, ← hshut]
    exact List.append_assoc ..
  | dropped i isOpen settled permanent inner down =>
    refine Or.inl ⟨isOpen, rfl, ?_⟩
    obtain ⟨es, hsince, -⟩ := inner.since
    have hemissions := emissions_eq (e := .wsClose i) (es ++ [.emitted .close]) (by simp)
      (by rw [hstep, PQCSession.ended, hsince, List.append_assoc])
    rw [List.filterMap_append] at hemissions
    -- there is no room for another one
    rcases PQCSession.emissions_cases s (.wsClose i) with hnone | ⟨x, hone⟩
    · rw [hnone] at hemissions
      exact absurd hemissions.symm (List.append_ne_nil_of_right_ne_nil _ (by simp [Entry.emission?]))
    · rw [hone] at hemissions ⊢
      have hlast := congrArg List.getLast? hemissions
      simpa [Entry.emission?] using hlast

/-- A session that the hook has left behind: it points to no socket and to no worker, and
everything that can still act on it belongs to what it points to. -/
structure Detached (s : PQCSession) : Prop where
  attached : Attached s
  ws : s.ws = none
  worker : s.worker = none

theorem detached_new : Detached new := ⟨attached_new, rfl, rfl⟩

theorem Attached.detached_close (att : Attached s) : Detached (s.step .close) := by
  have hatt := att.step .close
  obtain ⟨hws, hworker⟩ := hatt.unset (Or.inl (att.step_effect .close).close)
  exact ⟨hatt, hws, hworker⟩

/-- It does not come back, and it has nothing to close. The end of a `connect` that was pending is
all that it still does. -/
theorem Detached.step (det : Detached s) {e : SessionEvent} {i : Nat} (he : e.attempt? = some i) :
    Detached (s.step e) ∧ ((s.step e).state = .closed → s.state = .closed) := by
  have hatt := det.attached.step e
  have heffect := det.attached.step_effect e
  generalize s.step e = s' at heffect hatt
  cases heffect with
  | inner attempt inner =>
    exact ⟨⟨hatt, inner.ws.trans det.ws, inner.worker.trans det.worker⟩,
      fun h => inner.state.symm.trans h⟩
  | ready k waits resolved =>
    exact ⟨⟨hatt, det.ws, det.worker⟩, fun h => SessionState.noConfusion h⟩
  | failed k e waits rejected =>
    exact ⟨⟨hatt, det.ws, det.worker⟩, fun h => SessionState.noConfusion h⟩
  -- a drop needs the permanent listeners, and those are on the socket in use
  | dropped k isOpen settled permanent inner down =>
    have hws := (det.attached.permanent k permanent).1
    rw [det.ws] at hws
    exact absurd hws (by simp)
  | _ => exact absurd he (by simp [SessionEvent.attempt?])

/-- A session that is closed stays so, once its `connect` is done with. Before that a continuation
may still set its state. -/
theorem Inv.closed_final (inv : Inv s) (hclosed : s.state = .closed) {e : SessionEvent} {i : Nat}
    (he : e.attempt? = some i) : (s.step e).state = .closed := by
  have hwaits (k : Nat) (h : (s.attempts k).continued = false) : False := by
    have hconn := (inv.waiting.waits k h).1
    rw [hclosed] at hconn
    exact SessionState.noConfusion hconn
  have heffect := inv.attached.step_effect e
  generalize s.step e = s' at heffect
  cases heffect with
  | inner attempt inner => exact inner.state.trans hclosed
  | ready k waits resolved => exact (hwaits k waits).elim
  | failed k e waits rejected => exact (hwaits k waits).elim
  | dropped k isOpen settled permanent inner down => exact absurd hclosed isOpen
  | _ => exact absurd he (by simp [SessionEvent.attempt?])

end PQCSession

namespace Hook

variable {o : UsePQCSessionOptions} {h h' h'' : Hook}

/-! ## The listeners -/

/-- What no listener changes. The listeners write the status, the messages, the counter and the
timer; the sessions, and the references to them, are left to `doConnect` and the cleanup. -/
structure Frame (h h' : Hook) : Prop where
  sessionRef : h'.sessionRef = h.sessionRef
  isMounted : h'.isMounted = h.isMounted
  sessions : h'.sessions = h.sessions
  created : h'.created = h.created
  callbacks : h'.callbacks = h.callbacks
  closes : h'.closes = h.closes
  sinceDrop : h'.sinceDrop = h.sinceDrop
  timers : ∀ x ∈ h.timers, x ∈ h'.timers

theorem Frame.refl (h : Hook) : Frame h h := ⟨rfl, rfl, rfl, rfl, rfl, rfl, rfl, fun _ => id⟩

theorem Frame.trans (f : Frame h h') (f' : Frame h' h'') : Frame h h'' :=
  ⟨f'.sessionRef.trans f.sessionRef, f'.isMounted.trans f.isMounted,
    f'.sessions.trans f.sessions, f'.created.trans f.created, f'.callbacks.trans f.callbacks,
    f'.closes.trans f.closes, f'.sinceDrop.trans f.sinceDrop,
    fun x hx => f'.timers x (f.timers x hx)⟩

theorem onClose_frame (o : UsePQCSessionOptions) (h : Hook) : Frame h (h.onClose o) := by
  unfold onClose
  split
  · exact .refl h
  · simp only
    split
    · exact ⟨rfl, rfl, rfl, rfl, rfl, rfl, rfl, fun x hx => List.mem_append_left _ hx⟩
    · exact ⟨rfl, rfl, rfl, rfl, rfl, rfl, rfl, fun _ => id⟩

theorem onEmission_frame (h : Hook) (x : Emission) : Frame h (h.onEmission o x) := by
  cases x with
  | message data =>
    simp only [onEmission, onMessage]
    split
    · exact ⟨rfl, rfl, rfl, rfl, rfl, rfl, rfl, fun _ => id⟩
    · exact .refl h
  | error reason =>
    simp only [onEmission, onError]
    split
    · exact .refl h
    · exact ⟨rfl, rfl, rfl, rfl, rfl, rfl, rfl, fun _ => id⟩
  | close => exact onClose_frame o h
  | keyrotate => exact .refl h

theorem foldl_frame (xs : List Emission) (h : Hook) : Frame h (xs.foldl (onEmission o) h) := by
  induction xs generalizing h with
  | nil => exact .refl h
  | cons x xs ih => exact (onEmission_frame h x).trans (ih _)

theorem runSession_frame (h : Hook) (k : Nat) (e : SessionEvent) :
    Frame { h with sessions := Function.update h.sessions k ((h.sessions k).step e) }
      (h.runSession o k e) := foldl_frame _ _

/-- What an event other than 'close' leaves of the timers and of the status. 'message' has no
listener that looks at either, and 'error' sets the status. -/
structure Mild (h h' : Hook) : Prop where
  timers : h'.timers = h.timers
  reconnectTimerRef : h'.reconnectTimerRef = h.reconnectTimerRef
  reconnectAttempts : h'.reconnectAttempts = h.reconnectAttempts
  status : h'.status = h.status ∨ h'.status = .error

theorem onEmission_mild (h : Hook) {x : Emission} (hx : x ≠ .close) : Mild h (h.onEmission o x) := by
  cases x with
  | message data =>
    simp only [onEmission, onMessage]
    split <;> exact ⟨rfl, rfl, rfl, Or.inl rfl⟩
  | error reason =>
    simp only [onEmission, onError]
    split
    · exact ⟨rfl, rfl, rfl, Or.inl rfl⟩
    · exact ⟨rfl, rfl, rfl, Or.inr rfl⟩
  | close => exact absurd rfl hx
  | keyrotate => exact ⟨rfl, rfl, rfl, Or.inl rfl⟩

theorem runSession_mild {k : Nat} {e : SessionEvent} (hx : (h.sessions k).emissions e = [] ∨
    ∃ x, x ≠ .close ∧ (h.sessions k).emissions e = [x]) : Mild h (h.runSession o k e) := by
  unfold runSession
  rcases hx with hx | ⟨x, hne, hx⟩ <;> rw [hx]
  · exact ⟨rfl, rfl, rfl, Or.inl rfl⟩
  · have hmild := onEmission_mild (o := o)
      { h with sessions := Function.update h.sessions k ((h.sessions k).step e) } hne
    exact ⟨hmild.timers, hmild.reconnectTimerRef, hmild.reconnectAttempts, hmild.status⟩

theorem runSession_close {k : Nat} {e : SessionEvent}
    (hx : (h.sessions k).emissions e = [.close]) : h.runSession o k e =
      ({ h with sessions := Function.update h.sessions k ((h.sessions k).step e) } :
        Hook).onClose o := by
  unfold runSession
  rw [hx]
  rfl

/-! ## The session in use and those that were -/

/-- The invariant of every run: the session in use keeps the invariant of sessions, every other
one is detached, and the sessions that have not been made yet are new. -/
structure Wired (h : Hook) : Prop where
  held : ∀ k, h.sessionRef = some k → k < h.created ∧ (h.sessions k).Inv
  left : ∀ k, h.sessionRef ≠ some k → (h.sessions k).Detached
  fresh : ∀ k, h.created ≤ k → h.sessions k = .new

theorem wired_new : Wired new :=
  ⟨fun k hk => absurd hk (by simp [new]), fun _ _ => PQCSession.detached_new, fun _ _ => rfl⟩

theorem Wired.congr (w : Wired h) (hsessions : h'.sessions = h.sessions)
    (href : h'.sessionRef = h.sessionRef) (hcreated : h'.created = h.created) : Wired h' := by
  constructor
  · rw [hsessions, href, hcreated]; exact w.held
  · rw [hsessions, href]; exact w.left
  · rw [hsessions, hcreated]; exact w.fresh

theorem Wired.attached (w : Wired h) (k : Nat) : (h.sessions k).Attached := by
  by_cases hk : h.sessionRef = some k
  · exact (w.held k hk).2.attached
  · exact (w.left k hk).attached

/-- `sessionRef.current?.close()` and the `null` behind it. The 'close' listener runs in the
middle of this as for any other close, which is how a timer comes to be set for a session that is
left. -/
structure Released (o : UsePQCSessionOptions) (cause : Cause) (h h' : Hook) : Prop where
  sessionRef : h'.sessionRef = none
  isMounted : h'.isMounted = h.isMounted
  created : h'.created = h.created
  callbacks : h'.callbacks = h.callbacks
  sinceDrop : h'.sinceDrop = h.sinceDrop
  closed : ∀ k, h.sessionRef = some k → h'.sessions k = (h.sessions k).step .close
  others : ∀ k, h.sessionRef ≠ some k → h'.sessions k = h.sessions k
  closes : ∀ c ∈ h'.closes, c ∈ h.closes ∨
    ∃ k, h.sessionRef = some k ∧ c = ⟨cause, k, (h.sessions k).state⟩
  grow : ∀ x ∈ h.timers, x ∈ h'.timers
  /-- No timer is set when the listener does not run, or finds that it has tried enough. -/
  timers : (h.isMounted = false ∨ o.maxReconnectAttempts ≤ h.reconnectAttempts ∨
      ∀ k, h.sessionRef = some k → (h.sessions k).state = .closed) →
    h'.timers = h.timers ∧ h'.reconnectTimerRef = h.reconnectTimerRef

theorem onClose_timers
    (hskip : h.isMounted = false ∨ o.maxReconnectAttempts ≤ h.reconnectAttempts) :
    (h.onClose o).timers = h.timers ∧ (h.onClose o).reconnectTimerRef = h.reconnectTimerRef := by
  unfold onClose
  rcases hskip with hm | hmax
  · simp [hm]
  · split
    · exact ⟨rfl, rfl⟩
    · rw [if_neg (Nat.not_lt.mpr hmax)]
      exact ⟨rfl, rfl⟩

theorem closeSession_some {cause : Cause} {k : Nat} (href : h.sessionRef = some k) :
    h.closeSession o cause =
      { (h.noteClose cause k).runSession o k .close with sessionRef := none } := by
  unfold closeSession
  rw [href]

theorem Wired.released (w : Wired h) (cause : Cause) :
    Released o cause h (h.closeSession o cause) := by
  cases href : h.sessionRef with
  | none =>
    have hnone : h.closeSession o cause = h := by
      unfold closeSession
      rw [href]
    rw [hnone]
    refine ⟨href, rfl, rfl, rfl, rfl, ?_, fun _ _ => rfl, fun c hc => Or.inl hc,
      fun _ => id, fun _ => ⟨rfl, rfl⟩⟩
    intro k hk
    rw [href] at hk
    exact absurd hk (by simp)
  | some k =>
    rw [closeSession_some href]
    have hframe := runSession_frame (o := o) (h.noteClose cause k) k .close
    refine ⟨rfl, hframe.isMounted, hframe.created, hframe.callbacks, hframe.sinceDrop,
      ?_, ?_, ?_, hframe.timers, ?_⟩
    · intro j hj
      obtain rfl := Option.some.inj (href.symm.trans hj)
      exact (congrFun hframe.sessions k).trans (Function.update_self ..)
    · intro j hj
      have hne : j ≠ k := fun heq => hj (by rw [heq, href])
      exact (congrFun hframe.sessions j).trans (Function.update_of_ne hne ..)
    · intro c hc
      have hmem : c ∈ (h.noteClose cause k).closes := (congrArg (c ∈ ·) hframe.closes).mp hc
      rcases List.mem_append.mp hmem with hc | hc
      · exact Or.inl hc
      · exact Or.inr ⟨k, href, List.mem_singleton.mp hc⟩
    -- the timers: either 'close' was emitted, and its listener sets one, or nothing was
    · intro hskip
      rcases (w.attached k).emissions_cases .close with ⟨hopen, -, hx⟩ | ⟨-, hx⟩
      · have hclose := runSession_close (o := o) (h := h.noteClose cause k) hx
        rw [hclose]
        refine onClose_timers (hskip.imp_right fun hskip => hskip.resolve_right ?_)
        intro hclosed
        exact hopen (hclosed k href)
      · have hmild := runSession_mild (o := o) (h := h.noteClose cause k) hx
        exact ⟨hmild.timers, hmild.reconnectTimerRef⟩

theorem Wired.release (w : Wired h) {cause : Cause} (r : Released o cause h h') : Wired h' := by
  refine ⟨?_, ?_, ?_⟩
  · intro k hk
    rw [r.sessionRef] at hk
    exact absurd hk (by simp)
  · intro k _
    by_cases hheld : h.sessionRef = some k
    · rw [r.closed k hheld]
      exact (w.held k hheld).2.attached.detached_close
    · rw [r.others k hheld]
      exact w.left k hheld
  · intro k hk
    rw [r.created] at hk
    have hheld : h.sessionRef ≠ some k := fun heq =>
      absurd (w.held k heq).1 (Nat.not_lt.mpr hk)
    rw [r.others k hheld]
    exact w.fresh k hk

/-! ## Connecting -/

/-- A session that has just been made and connected: it is connecting, or in the state 'error'
when there was no worker, and its `connect` has not been resolved. -/
structure Launching (workerThrows : Option String) (s : PQCSession) : Prop where
  inv : s.Inv
  state : s.state = if workerThrows.isSome then .error else .connecting
  unresolved : ∀ i, (s.attempts i).continued = false → (s.attempts i).promise ≠ .resolved

theorem launching (workerThrows socketThrows : Option String) :
    Launching workerThrows (PQCSession.new.step (.connect workerThrows socketThrows)) := by
  refine ⟨PQCSession.inv_new.step fun h => SessionEvent.noConfusion h, ?_, ?_⟩
  · cases workerThrows <;> cases socketThrows <;> rfl
  · intro i
    have hdefault : (PQCSession.new.attempts i).continued = true := rfl
    have heffect := PQCSession.attached_new.step_effect (.connect workerThrows socketThrows)
    generalize PQCSession.new.step (.connect workerThrows socketThrows) = s at heffect
    cases heffect with
    | inner attempt inner => exact absurd attempt (by simp [SessionEvent.attempt?])
    | refused _ _ busy => exact absurd rfl busy.1
    | workerless e _ free => exact fun h => absurd (hdefault.symm.trans h) (by simp)
    | socketless e free =>
      rcases eq_or_ne i PQCSession.new.started with rfl | hne
      · rw [PQCSession.begin_attempts_self]
        simp [PQCSession.socketless]
      · rw [PQCSession.begin_attempts_of_ne hne]
        exact fun h => absurd (hdefault.symm.trans h) (by simp)
    | begun free =>
      rcases eq_or_ne i PQCSession.new.started with rfl | hne
      · rw [PQCSession.begin_attempts_self]
        simp [PQCSession.handshaking]
      · rw [PQCSession.begin_attempts_of_ne hne]
        exact fun h => absurd (hdefault.symm.trans h) (by simp)

/-- `doConnect` from the new session on: it is the one in use, with a number that no session has
had, and its callback waits for the end of its `connect`, or is queued when that has failed at
once. -/
structure Launched (o : UsePQCSessionOptions) (workerThrows : Option String) (h h' : Hook) :
    Prop where
  sessionRef : h'.sessionRef = some h.created
  isMounted : h'.isMounted = h.isMounted
  created : h'.created = h.created + 1
  callbacks : h'.callbacks = Function.update h.callbacks h.created
    (workerThrows.elim .waiting fun e => .queued (connectResult o (.rejected e)))
  sinceDrop : h'.sinceDrop = h.sinceDrop.map (· + 1)
  session : Launching workerThrows (h'.sessions h.created)
  others : ∀ k, k ≠ h.created → h'.sessions k = h.sessions k
  closes : h'.closes = h.closes
  timers : h'.timers = h.timers
  reconnectTimerRef : h'.reconnectTimerRef = h.reconnectTimerRef
  status : h'.status ≠ .connected

theorem Wired.launched (w : Wired h) (workerThrows socketThrows : Option String) :
    Launched o workerThrows h
      (({ h with
        status := .connecting
        error := none
        sessionRef := some h.created
        created := h.created + 1
        sinceDrop := h.sinceDrop.map (· + 1)
        callbacks := Function.update h.callbacks h.created
          (workerThrows.elim .waiting fun e => .queued (connectResult o (.rejected e))) } :
        Hook).runSession o h.created (.connect workerThrows socketThrows)) := by
  generalize hstart : ({ h with
    status := .connecting
    error := none
    sessionRef := some h.created
    created := h.created + 1
    sinceDrop := h.sinceDrop.map (· + 1)
    callbacks := Function.update h.callbacks h.created
      (workerThrows.elim .waiting fun e => .queued (connectResult o (.rejected e))) } : Hook) = g
  have hsessions : g.sessions = h.sessions := by rw [← hstart]
  have hnew : g.sessions h.created = .new := by rw [hsessions]; exact w.fresh _ (Nat.le_refl _)
  have hframe := runSession_frame (o := o) g h.created (.connect workerThrows socketThrows)
  -- a session that has just been connected is not closed, so it has not emitted 'close'
  have hmild : Mild g (g.runSession o h.created (.connect workerThrows socketThrows)) := by
    have hlaunch := launching workerThrows socketThrows
    rcases PQCSession.attached_new.emissions_cases (.connect workerThrows socketThrows) with
      ⟨-, hclosed, -⟩ | ⟨-, hx⟩
    · rw [hlaunch.state] at hclosed
      split at hclosed <;> exact SessionState.noConfusion hclosed
    · exact runSession_mild (by rw [hnew]; exact hx)
  refine ⟨?_, ?_, ?_, ?_, ?_, ?_, ?_, ?_, ?_, ?_, ?_⟩
  · rw [hframe.sessionRef, ← hstart]
  · rw [hframe.isMounted, ← hstart]
  · rw [hframe.created, ← hstart]
  · rw [hframe.callbacks, ← hstart]
  · rw [hframe.sinceDrop, ← hstart]
  · rw [hframe.sessions]
    simp only [Function.update_self, hnew]
    exact launching workerThrows socketThrows
  · intro k hk
    rw [hframe.sessions]
    simp only [Function.update_of_ne hk, hsessions]
  · rw [hframe.closes, ← hstart]
  · rw [hmild.timers, ← hstart]
  · rw [hmild.reconnectTimerRef, ← hstart]
  · rcases hmild.status with hs | hs <;> rw [hs]
    · rw [← hstart]; exact HookStatus.noConfusion
    · exact HookStatus.noConfusion

theorem Wired.launch (w : Wired h) (hnone : h.sessionRef = none) {workerThrows : Option String}
    (l : Launched o workerThrows h h') : Wired h' := by
  refine ⟨?_, ?_, ?_⟩
  · intro k hk
    rw [l.sessionRef] at hk
    obtain rfl := Option.some.inj hk
    rw [l.created]
    exact ⟨Nat.lt_succ_self _, l.session.inv⟩
  · intro k hk
    have hne : k ≠ h.created := fun heq => hk (by rw [l.sessionRef, heq])
    rw [l.others k hne]
    exact w.left k (by rw [hnone]; simp)
  · intro k hk
    rw [l.created] at hk
    rw [l.others k (Nat.ne_of_gt hk)]
    exact w.fresh k (Nat.le_of_succ_le hk)

/-- The constructor of the session throws. -/
def refuse (o : UsePQCSessionOptions) (h : Hook) : Hook :=
  { h with
    status := .error
    error := some s!"latticeshield-js requires wss:// — got: {o.bridgeUrl}" }

theorem Wired.doConnect_cases (w : Wired h) (hm : h.isMounted = true) (cause : Cause)
    (workerThrows socketThrows : Option String) :
    ∃ h₁, Released o cause h h₁ ∧ Wired h₁ ∧
      (badUrl o = true ∧ h.doConnect o cause workerThrows socketThrows = h₁.refuse o ∨
        badUrl o = false ∧
          Launched o workerThrows h₁ (h.doConnect o cause workerThrows socketThrows)) := by
  have hreleased := w.released (o := o) cause
  have hwired := w.release hreleased
  refine ⟨_, hreleased, hwired, ?_⟩
  unfold doConnect
  rw [if_neg (by simp [hm])]
  cases hurl : badUrl o with
  | true => exact Or.inl ⟨rfl, rfl⟩
  | false => exact Or.inr ⟨rfl, hwired.launched workerThrows socketThrows⟩

theorem doConnect_unmounted (hm : h.isMounted = false) (cause : Cause)
    (workerThrows socketThrows : Option String) :
    h.doConnect o cause workerThrows socketThrows = h := if_pos (by simp [hm])

theorem Wired.doConnect (w : Wired h) (cause : Cause) (workerThrows socketThrows : Option String) :
    Wired (h.doConnect o cause workerThrows socketThrows) := by
  cases hm : h.isMounted with
  | false => rw [doConnect_unmounted hm]; exact w
  | true =>
    obtain ⟨h₁, r, w₁, ⟨-, heq⟩ | ⟨-, l⟩⟩ := w.doConnect_cases (o := o) hm cause workerThrows
      socketThrows
    · rw [heq]; exact w₁.congr rfl rfl rfl
    · exact w₁.launch r.sessionRef l

/-! ## Events of a session -/

/-- An event of the `k`-th session that is not a call. The session makes its step, the listeners
hear what it emits, and where a `connect` goes on its callback is queued. -/
structure Ran (o : UsePQCSessionOptions) (k : Nat) (e : SessionEvent) (h h' : Hook) : Prop where
  sessionRef : h'.sessionRef = h.sessionRef
  isMounted : h'.isMounted = h.isMounted
  created : h'.created = h.created
  sessions : h'.sessions = Function.update h.sessions k ((h.sessions k).step e)
  closes : h'.closes = h.closes
  grow : ∀ x ∈ h.timers, x ∈ h'.timers
  callbacks : h'.callbacks = h.callbacks ∧
      (∀ i, e = .continue_ i → ((h.sessions k).attempts i).continued = false →
        ((h.sessions k).attempts i).promise = .pending) ∨
    ∃ i, e = .continue_ i ∧ ((h.sessions k).attempts i).continued = false ∧
      h'.callbacks = Function.update h.callbacks k
        (.queued (connectResult o ((h.sessions k).attempts i).promise))
  sinceDrop : h'.sinceDrop = if h.sessionRef = some k then
      if (h.sessions k).state = .ready ∧ ((h.sessions k).step e).state = .closed then some 0
      else if (h.sessions k).state ≠ .ready ∧ ((h.sessions k).step e).state = .ready then none
      else h.sinceDrop
    else h.sinceDrop
  mild : (((h.sessions k).step e).state = .closed → (h.sessions k).state = .closed) → Mild h h'
  dropped : (h.sessions k).state ≠ .closed → ((h.sessions k).step e).state = .closed →
    h'.status = (h.onClose o).status ∧ h'.timers = (h.onClose o).timers ∧
      h'.reconnectTimerRef = (h.onClose o).reconnectTimerRef

theorem settleConnect_eq (h : Hook) (k : Nat) (before : PQCSession) (e : SessionEvent) :
    ∃ callbacks, h.settleConnect o k before e = { h with callbacks } := by
  unfold settleConnect
  split
  · split
    · exact ⟨_, rfl⟩
    · exact ⟨_, rfl⟩
  · exact ⟨_, rfl⟩

/-- `settleConnect` and `noteDrop` leave the rest alone. They are what the model records beside
the hook: who is behind which promise, and how many attempts there have been since a drop. -/
theorem session_eq (h : Hook) (k : Nat) (e : SessionEvent) :
    h.session o k e = { h.runSession o k e with
      callbacks := (h.session o k e).callbacks
      sinceDrop := (h.session o k e).sinceDrop } := by
  obtain ⟨callbacks, heq⟩ :=
    settleConnect_eq (o := o) (h.runSession o k e) k (h.sessions k) e
  unfold session
  simp only [heq, noteDrop]
  split
  · split
    · rfl
    · split <;> rfl
  · rfl

theorem session_callbacks (h : Hook) (k : Nat) (e : SessionEvent) :
    (h.session o k e).callbacks = h.callbacks ∧
      (∀ i, e = .continue_ i → ((h.sessions k).attempts i).continued = false →
        ((h.sessions k).attempts i).promise = .pending) ∨
    ∃ i, e = .continue_ i ∧ ((h.sessions k).attempts i).continued = false ∧
      (h.session o k e).callbacks = Function.update h.callbacks k
        (.queued (connectResult o ((h.sessions k).attempts i).promise)) := by
  have hnote (g : Hook) : (g.noteDrop k (h.sessions k)).callbacks = g.callbacks := by
    unfold noteDrop
    split
    · split
      · rfl
      · split <;> rfl
    · rfl
  have hframe := (runSession_frame (o := o) h k e).callbacks
  simp only [session, hnote]
  cases e with
  | continue_ i =>
    simp only [settleConnect]
    split
    · rename_i hwait
      refine Or.inr ⟨i, rfl, hwait.1, ?_⟩
      simp only [hframe]
    · rename_i hwait
      refine Or.inl ⟨hframe, ?_⟩
      intro j hj hcont
      obtain rfl := SessionEvent.continue_.inj hj
      by_contra hp
      exact hwait ⟨hcont, hp⟩
  | _ => exact Or.inl ⟨hframe, fun i hi => SessionEvent.noConfusion hi⟩

theorem session_sinceDrop (h : Hook) (k : Nat) (e : SessionEvent) :
    (h.session o k e).sinceDrop = if h.sessionRef = some k then
      if (h.sessions k).state = .ready ∧ ((h.sessions k).step e).state = .closed then some 0
      else if (h.sessions k).state ≠ .ready ∧ ((h.sessions k).step e).state = .ready then none
      else h.sinceDrop
    else h.sinceDrop := by
  have hframe := runSession_frame (o := o) h k e
  obtain ⟨callbacks, heq⟩ :=
    settleConnect_eq (o := o) (h.runSession o k e) k (h.sessions k) e
  unfold session
  simp only [heq, noteDrop, hframe.sessionRef, hframe.sessions, Function.update_self]
  split
  · split
    · rfl
    · split
      · rfl
      · exact hframe.sinceDrop
  · exact hframe.sinceDrop

/-- The 'close' listener does not look at the sessions. So it commutes with everything that
changes only them. -/
theorem onClose_congr (h : Hook) (sessions : Nat → PQCSession) :
    ({ h with sessions } : Hook).onClose o = { h.onClose o with sessions } := by
  unfold onClose
  split
  · rfl
  · simp only
    split <;> rfl

theorem Wired.ran (w : Wired h) (k : Nat) (e : SessionEvent) :
    Ran o k e h (h.session o k e) := by
  have hframe := runSession_frame (o := o) h k e
  have hcallbacks := session_callbacks (o := o) h k e
  have hdrop := session_sinceDrop (o := o) h k e
  rw [session_eq] at hcallbacks hdrop ⊢
  refine ⟨hframe.sessionRef, hframe.isMounted, hframe.created, hframe.sessions, hframe.closes,
    hframe.timers, hcallbacks, hdrop, ?_, ?_⟩
  · intro hopen
    rcases (w.attached k).emissions_cases e with ⟨hnot, hclosed, -⟩ | ⟨-, hx⟩
    · exact absurd (hopen hclosed) hnot
    · have hmild := runSession_mild (o := o) hx
      exact ⟨hmild.timers, hmild.reconnectTimerRef, hmild.reconnectAttempts, hmild.status⟩
  · intro hopen hclosed
    rcases (w.attached k).emissions_cases e with ⟨-, -, hx⟩ | ⟨hsame, -⟩
    · have hclose := runSession_close (o := o) hx
      rw [onClose_congr] at hclose
      rw [hclose]
      exact ⟨rfl, rfl, rfl⟩
    · exact absurd (hsame hclosed) hopen

theorem Wired.run (w : Wired h) {k : Nat} (hk : k < h.created) {e : SessionEvent} {i : Nat}
    (he : e.attempt? = some i) (r : Ran o k e h h') : Wired h' := by
  have hpatient : PQCSession.Patient (h.sessions k) e := by
    rintro rfl
    exact absurd he (by simp [SessionEvent.attempt?])
  refine ⟨?_, ?_, ?_⟩
  · intro j hj
    rw [r.sessionRef] at hj
    rw [r.created, r.sessions]
    obtain ⟨hlt, hinv⟩ := w.held j hj
    rcases eq_or_ne j k with rfl | hne
    · rw [Function.update_self]
      exact ⟨hlt, hinv.step hpatient⟩
    · rw [Function.update_of_ne hne]
      exact ⟨hlt, hinv⟩
  · intro j hj
    rw [r.sessionRef] at hj
    rw [r.sessions]
    rcases eq_or_ne j k with rfl | hne
    · rw [Function.update_self]
      exact ((w.left j hj).step he).1
    · rw [Function.update_of_ne hne]
      exact w.left j hj
  · intro j hj
    rw [r.created] at hj
    rw [r.sessions, Function.update_of_ne (Nat.ne_of_gt (Nat.lt_of_lt_of_le hk hj))]
    exact w.fresh j hj

theorem attempt_of_task {e : SessionEvent} (he : e.isTask = true) : ∃ i, e.attempt? = some i := by
  cases e <;> simp [SessionEvent.isTask, SessionEvent.attempt?] at he ⊢

theorem quiet_iff (h : Hook) : h.quiet = true ↔ ∀ k < h.created,
    (h.sessions k).settled = true ∧ ∀ p, h.callbacks k ≠ .queued p := by
  simp only [quiet, List.all_eq_true, List.mem_range, Bool.and_eq_true]
  refine forall₂_congr fun k _ => and_congr_right ?_
  intro _
  cases h.callbacks k <;> simp

/-- What the callbacks of `connect` leave alone. They set the status, and with a success the
counter of attempts. -/
structure Same (h h' : Hook) : Prop where
  sessionRef : h'.sessionRef = h.sessionRef
  isMounted : h'.isMounted = h.isMounted
  sessions : h'.sessions = h.sessions
  created : h'.created = h.created
  closes : h'.closes = h.closes
  sinceDrop : h'.sinceDrop = h.sinceDrop
  timers : h'.timers = h.timers
  reconnectTimerRef : h'.reconnectTimerRef = h.reconnectTimerRef

theorem then_same (h : Hook) (k : Nat) : Same h (h.then_ k) := by
  unfold then_
  split
  · simp only
    split <;> exact ⟨rfl, rfl, rfl, rfl, rfl, rfl, rfl, rfl⟩
  · simp only
    split <;> exact ⟨rfl, rfl, rfl, rfl, rfl, rfl, rfl, rfl⟩
  · exact ⟨rfl, rfl, rfl, rfl, rfl, rfl, rfl, rfl⟩

/-! ## The guards of the event loop

An event that may not happen now leaves the hook as it is, so an invariant has only to be kept by
those that may. -/

section Guards

variable {P : Hook → Prop}

theorem step_continue (hP : P h) {k i : Nat}
    (hrun : k < h.created → P (h.session o k (.continue_ i))) : P (h.step o (.continue_ k i)) := by
  simp only [Hook.step]
  split
  · rename_i hk
    exact hrun hk
  · exact hP

/-- A task of a session is no microtask, and comes when there is none. -/
theorem step_session (hP : P h) {k : Nat} {e : SessionEvent}
    (hrun : k < h.created → ∀ i, e.attempt? = some i → (∀ j, e ≠ .continue_ j) →
      h.quiet = true → P (h.session o k e)) : P (h.step o (.session k e)) := by
  simp only [Hook.step]
  split
  · rename_i hk
    obtain ⟨hcreated, htask, hquiet⟩ := hk
    obtain ⟨i, hi⟩ := attempt_of_task htask
    refine hrun hcreated i hi ?_ hquiet
    rintro j rfl
    cases htask
  · exact hP

theorem step_timer (hP : P h) {n : Nat} {workerThrows socketThrows : Option String}
    (hrun : h.quiet = true → P (h.timer o n workerThrows socketThrows)) :
    P (h.step o (.timer n workerThrows socketThrows)) := by
  simp only [Hook.step]
  split
  · rename_i hquiet
    exact hrun hquiet
  · exact hP

end Guards

end Hook

end LatticeShield.Js
