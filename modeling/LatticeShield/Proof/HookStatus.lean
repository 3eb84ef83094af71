import LatticeShield.Proof.Hook

/-!
# The status of the React hook

The promise of `connect` is resolved when the handshake has succeeded, and also when a session that
is not strict has failed; its callback sets the status 'connected', for whichever session the hook
has by then. The status is truthful in the runs in which no such session fails, unless another one
is ready, and in which the session in use is not left between the success of its handshake and the
callback (`status_truthful`).
-/

set_option autoImplicit false

namespace LatticeShield.Js

open Lib

/-! ## The end of a handshake -/

namespace PQCSession

variable {s : PQCSession}

theorem step_continue_resolved {i : Nat} (hwaits : (s.attempts i).continued = false)
    (hresolved : (s.attempts i).promise = .resolved) : (s.step (.continue_ i)).state = .ready := by
  simp only [step, continueConnect, hwaits, hresolved]
  rfl

/-- `close` does not touch the promises. -/
theorem step_close_attempts (s : PQCSession) (i : Nat) :
    ((s.step .close).attempts i).promise = (s.attempts i).promise ∧
      ((s.step .close).attempts i).continued = (s.attempts i).continued := by
  have hshut : (s.shut.attempts i).promise = (s.attempts i).promise ∧
      (s.shut.attempts i).continued = (s.attempts i).continued := by
    unfold shut
    cases s.ws with
    | none => exact ⟨rfl, rfl⟩
    | some j =>
      rcases eq_or_ne i j with rfl | hne
      · simp [closeSocket]
      · simp [closeSocket, modify_attempts_of_ne s hne]
  by_cases hclosed : s.state = .closed
  · rw [show s.step .close = s.close from rfl, close_of_closed hclosed]
    exact ⟨rfl, rfl⟩
  · rw [show s.step .close = s.close from rfl, close_of_open hclosed]
    exact hshut

/-- A session in use that is ready stays so until it is dropped, by a task. A microtask finds
nothing left to do. -/
theorem Inv.ready_or_dropped (inv : Inv s) (hready : s.state = .ready) {e : SessionEvent} {i : Nat}
    (he : e.attempt? = some i) : (s.step e).state = .ready ∨
      (s.step e).state = .closed ∧ ∀ j, e ≠ .continue_ j := by
  have hwaits (k : Nat) (h : (s.attempts k).continued = false) : False := by
    have hconn := (inv.waiting.waits k h).1
    rw [hready] at hconn
    exact SessionState.noConfusion hconn
  have heffect := inv.attached.step_effect e
  generalize s.step e = s' at heffect
  cases heffect with
  | inner attempt inner => exact Or.inl (inner.state.trans hready)
  | ready k waits resolved => exact (hwaits k waits).elim
  | failed k e waits rejected => exact (hwaits k waits).elim
  | dropped k isOpen settled permanent inner down =>
    exact Or.inr ⟨rfl, fun j => SessionEvent.noConfusion⟩
  | _ => exact absurd he (by simp [SessionEvent.attempt?])

/-- The handshake of a session that has been left does not succeed any more. A promise that
resolves has done so before. -/
theorem Detached.resolves (det : Detached s) {e : SessionEvent} {i : Nat}
    (he : e.attempt? = some i) {k : Nat} (hwaits : ((s.step e).attempts k).continued = false)
    (hresolved : ((s.step e).attempts k).promise = .resolved) :
    (s.attempts k).continued = false ∧ (s.attempts k).promise = .resolved := by
  have hresume (state : SessionState) (j : Nat)
      (hw : (({ s with state }.modify j fun a => { a with continued := true }).attempts
        k).continued = false)
      (hr : (({ s with state }.modify j fun a => { a with continued := true }).attempts
        k).promise = .resolved) :
      (s.attempts k).continued = false ∧ (s.attempts k).promise = .resolved := by
    rw [resume_attempts] at hw hr
    exact ⟨(Bool.or_eq_false_iff.mp hw).1, hr⟩
  have heffect := det.attached.step_effect e
  generalize s.step e = s' at heffect hwaits hresolved
  cases heffect with
  | inner attempt inner =>
    have hevolves := inner.attempts k
    refine ⟨hevolves.continued.symm.trans hwaits, (hevolves.resolves hresolved).resolve_right ?_⟩
    rw [det.ws]
    simp
  | ready j waits resolved => exact hresume .ready j hwaits hresolved
  | failed j e waits rejected => exact hresume .error j hwaits hresolved
  | dropped j isOpen settled permanent inner down =>
    have hws := (det.attached.permanent j permanent).1
    rw [det.ws] at hws
    exact absurd hws (by simp)
  | _ => exact absurd he (by simp [SessionEvent.attempt?])

end PQCSession

namespace Hook

variable {o : UsePQCSessionOptions} {h h' : Hook}

/-- The session in use is ready. Sessions that the hook has let go of may be, too; they do not
count. -/
def HeldReady (h : Hook) : Prop := ∃ k ∈ h.sessionRef, (h.sessions k).state = .ready

/-- When no microtask is left, the status is 'connected' only for a session that is ready. In
between the callback of `connect` may have a success to report that is already out of date. -/
def StatusTruthful (h : Hook) : Prop :=
  h.quiet = true → h.status = .connected →
    ∃ k, h.sessionRef = some k ∧ (h.sessions k).state = .ready

/-- A success is on its way to the callback: queued there, or still to be taken up by `connect`.
Until it arrives the status may be behind. -/
def Arriving (h : Hook) : Prop :=
  (∃ k < h.created, h.callbacks k = .queued .resolved) ∨
    ∃ k ∈ h.sessionRef, ∃ i < (h.sessions k).started,
      ((h.sessions k).attempts i).continued = false ∧
        ((h.sessions k).attempts i).promise = .resolved

instance (h : Hook) : Decidable (HeldReady h) :=
  inferInstanceAs (Decidable (∃ k ∈ h.sessionRef, _))

instance (h : Hook) : Decidable (Arriving h) :=
  inferInstanceAs (Decidable ((∃ k < h.created, _) ∨ ∃ k ∈ h.sessionRef, ∃ i < _, _))

/-- A session that is not strict fails only while another one is ready, and a session is not left
while a success is on its way. With `strict: false` a `connect` that fails resolves, and the
callback reports a success. -/
def InTime (o : UsePQCSessionOptions) (h : Hook) : HookEvent → Prop
  | .continue_ k i => k < h.created → ((h.sessions k).attempts i).continued = false →
      ((h.sessions k).attempts i).promise ≠ .pending →
      ((h.sessions k).attempts i).promise ≠ .resolved → o.strict = true ∨ HeldReady h
  | .connect workerThrows _ => ¬ Arriving h ∧ (workerThrows.isSome = true → o.strict = true)
  | .mount workerThrows _ => h.mounted = false → o.autoConnect = true →
      ¬ Arriving h ∧ (workerThrows.isSome = true → o.strict = true)
  | .timer _ workerThrows _ => workerThrows.isSome = true → o.strict = true
  | .disconnect => ¬ Arriving h
  | _ => True

instance (o : UsePQCSessionOptions) (h : Hook) : (e : HookEvent) → Decidable (InTime o h e)
  | .continue_ _ _ => inferInstanceAs (Decidable (_ → _ → _ → _ → _ ∨ HeldReady h))
  | .connect _ _ => inferInstanceAs (Decidable (¬ Arriving h ∧ (_ → _)))
  | .mount _ _ => inferInstanceAs (Decidable (_ → _ → ¬ Arriving h ∧ (_ → _)))
  | .timer _ _ _ => inferInstanceAs (Decidable (_ → _))
  | .disconnect => inferInstanceAs (Decidable (¬ Arriving h))
  | .unmount => .isTrue trivial
  | .then_ _ => .isTrue trivial
  | .session _ _ => .isTrue trivial

/-- The invariant of the runs: the status says 'connected' only with a ready session in use, and
so will every callback that is queued as resolved, and every promise that is resolved with its
`connect` still to go on. -/
structure Truthful (h : Hook) : Prop where
  wired : Wired h
  isMounted : h.isMounted = true
  connected : h.status = .connected → HeldReady h
  queued : ∀ k, h.callbacks k = .queued .resolved → k < h.created ∧ HeldReady h
  arriving : ∀ k i, ((h.sessions k).attempts i).continued = false →
    ((h.sessions k).attempts i).promise = .resolved → h.sessionRef = some k

/-- No success is on its way: no callback is queued with one, and no promise is resolved whose
`connect` has still to go on. In such a state the status can only turn to something other than
'connected'. -/
structure Calm (h : Hook) : Prop where
  queued : ∀ k, h.callbacks k ≠ .queued .resolved
  arriving : ∀ k i, ((h.sessions k).attempts i).continued = false →
    ((h.sessions k).attempts i).promise ≠ .resolved

theorem truthful_new : Truthful new :=
  ⟨wired_new, rfl, fun hs => HookStatus.noConfusion hs, fun _ hc => Callback.noConfusion hc,
    fun _ _ hc => Bool.noConfusion hc⟩

theorem Truthful.calm (t : Truthful h) (hnot : ¬ Arriving h) : Calm h := by
  refine ⟨fun k hk => hnot (Or.inl ⟨k, (t.queued k hk).1, hk⟩), ?_⟩
  intro k i hwaits hresolved
  have hheld := t.arriving k i hwaits hresolved
  obtain ⟨-, inv⟩ := t.wired.held k hheld
  have hlast := inv.attached.workerLast i (inv.waiting.waits i hwaits).2
  exact hnot (Or.inr ⟨k, hheld, i, hlast ▸ Nat.lt_succ_self i, hwaits, hresolved⟩)

theorem Truthful.calm_of_quiet (t : Truthful h) (hquiet : h.quiet = true) : Calm h := by
  apply t.calm
  rintro (⟨k, hk, hqueued⟩ | ⟨k, hheld, i, hi, hwaits, hresolved⟩)
  · exact ((quiet_iff h).mp hquiet k hk).2 _ hqueued
  · have hsettled := ((quiet_iff h).mp hquiet k (t.wired.held k hheld).1).1
    have hone := List.all_eq_true.mp hsettled i (List.mem_range.mpr hi)
    simp [hwaits, hresolved] at hone

theorem Calm.congr (c : Calm h) (hcallbacks : h'.callbacks = h.callbacks)
    (hsessions : h'.sessions = h.sessions) : Calm h' := by
  constructor
  · rw [hcallbacks]; exact c.queued
  · rw [hsessions]; exact c.arriving

theorem Calm.release (c : Calm h) {cause : Cause} (r : Released o cause h h') : Calm h' := by
  refine ⟨fun k => by rw [r.callbacks]; exact c.queued k, ?_⟩
  intro k i hwaits
  by_cases hheld : h.sessionRef = some k
  · rw [r.closed k hheld] at hwaits ⊢
    obtain ⟨hpromise, hcontinued⟩ := (h.sessions k).step_close_attempts i
    rw [hpromise]
    exact c.arriving k i (hcontinued.symm.trans hwaits)
  · rw [r.others k hheld] at hwaits ⊢
    exact c.arriving k i hwaits

/-- Nothing is claimed, and nothing will be. -/
theorem Calm.truthful (c : Calm h) (w : Wired h) (hm : h.isMounted = true)
    (hstatus : h.status ≠ .connected) : Truthful h :=
  ⟨w, hm, fun hs => absurd hs hstatus, fun k hk => absurd hk (c.queued k),
    fun k i hwaits hresolved => absurd hresolved (c.arriving k i hwaits)⟩

theorem Calm.doConnect (c : Calm h) (w : Wired h) (hm : h.isMounted = true) (cause : Cause)
    (workerThrows socketThrows : Option String)
    (hthrows : workerThrows.isSome = true → o.strict = true) :
    Truthful (h.doConnect o cause workerThrows socketThrows) := by
  have w' := w.doConnect (o := o) cause workerThrows socketThrows
  obtain ⟨h₁, r, w₁, ⟨-, heq⟩ | ⟨-, l⟩⟩ :=
    w.doConnect_cases (o := o) hm cause workerThrows socketThrows
  · rw [heq] at w' ⊢
    exact Calm.truthful (.congr (c.release r) rfl rfl) w' (r.isMounted.trans hm)
      HookStatus.noConfusion
  · have hcalm := c.release r
    refine Calm.truthful ⟨?_, ?_⟩ w'
      ((l.isMounted.trans r.isMounted).trans hm) l.status
    · intro k
      rw [l.callbacks]
      rcases eq_or_ne k h₁.created with rfl | hne
      · rw [Function.update_self]
        cases workerThrows with
        | none => exact Callback.noConfusion
        | some e => simp [connectResult, hthrows rfl]
      · rw [Function.update_of_ne hne]
        exact hcalm.queued k
    · intro k i hwaits
      rcases eq_or_ne k h₁.created with rfl | hne
      · exact l.session.unresolved i hwaits
      · rw [l.others k hne] at hwaits ⊢
        exact hcalm.arriving k i hwaits

theorem onClose_status (hm : h.isMounted = true) : (h.onClose o).status = .disconnected := by
  unfold onClose
  rw [if_neg (not_not.mpr hm)]
  simp only
  split <;> rfl

/-- Only a task ends a session that is ready. -/
theorem Truthful.heldReady_run (t : Truthful h) {k : Nat} {e : SessionEvent} {i : Nat}
    (he : e.attempt? = some i) (r : Ran o k e h h') (hheld : HeldReady h) :
    HeldReady h' ∨ h'.status = .disconnected ∧ ∀ j, e ≠ .continue_ j := by
  obtain ⟨m, hm, hready⟩ := hheld
  rcases eq_or_ne m k with rfl | hne
  · rcases (t.wired.held m hm).2.ready_or_dropped hready he with hstays | ⟨hclosed, htask⟩
    · refine Or.inl ⟨m, r.sessionRef.trans hm, ?_⟩
      rw [r.sessions, Function.update_self]
      exact hstays
    · have hdropped := r.dropped (by rw [hready]; simp) hclosed
      exact Or.inr ⟨hdropped.1.trans (onClose_status t.isMounted), htask⟩
  · refine Or.inl ⟨m, r.sessionRef.trans hm, ?_⟩
    rw [r.sessions, Function.update_of_ne hne]
    exact hready

/-- The status is 'connected' after an event only if it was before. Only the callback of `connect`
sets it, and that is no event of a session. -/
theorem Truthful.status_run (t : Truthful h) {k : Nat} {e : SessionEvent} (r : Ran o k e h h')
    (hstatus : h'.status = .connected) : h.status = .connected := by
  by_cases hopen : ((h.sessions k).step e).state = .closed → (h.sessions k).state = .closed
  · rcases (r.mild hopen).status with hsame | herror
    · exact hsame.symm.trans hstatus
    · exact absurd (herror.symm.trans hstatus) (by simp)
  · obtain ⟨hclosed, hnot⟩ := Classical.not_imp.mp hopen
    have hdisconnected := (r.dropped hnot hclosed).1.trans (onClose_status t.isMounted)
    exact absurd (hdisconnected.symm.trans hstatus) (by simp)

/-- A promise of `connect` that is resolved is that of a session in use which has got ready, or of
one that has failed and is not strict. The second is what `InTime` allows only next to a session
that is ready. -/
theorem Truthful.settles (t : Truthful h) {k i : Nat} (r : Ran o k (.continue_ i) h h')
    (hk : k < h.created) (hwaits : ((h.sessions k).attempts i).continued = false)
    (hin : InTime o h (.continue_ k i))
    (hresolved : connectResult o ((h.sessions k).attempts i).promise = .resolved) :
    HeldReady h' := by
  cases hp : ((h.sessions k).attempts i).promise with
  | pending =>
    rw [hp] at hresolved
    exact Promise.noConfusion hresolved
  | resolved =>
    refine ⟨k, r.sessionRef.trans (t.arriving k i hwaits hp), ?_⟩
    rw [r.sessions, Function.update_self]
    exact PQCSession.step_continue_resolved hwaits hp
  | rejected e =>
    rw [hp] at hresolved
    have hheld : HeldReady h := by
      refine (hin hk hwaits (by rw [hp]; simp) (by rw [hp]; simp)).resolve_left ?_
      intro hstrict
      simp [connectResult, hstrict] at hresolved
    exact (t.heldReady_run rfl r hheld).resolve_right fun hend => absurd rfl (hend.2 i)

theorem Truthful.run (t : Truthful h) {k : Nat} (hk : k < h.created) {e : SessionEvent} {i : Nat}
    (he : e.attempt? = some i) (hquiet : (∀ j, e ≠ .continue_ j) → h.quiet = true)
    (hin : ∀ j, e = .continue_ j → InTime o h (.continue_ k j)) :
    Truthful (h.session o k e) := by
  have r := t.wired.ran (o := o) k e
  have hkept (j : Nat) (hj : h.callbacks j = .queued .resolved) : HeldReady (h.session o k e) := by
    refine (t.heldReady_run he r (t.queued j hj).2).resolve_right ?_
    intro hend
    exact ((quiet_iff h).mp (hquiet hend.2) j (t.queued j hj).1).2 _ hj
  refine ⟨t.wired.run hk he r, r.isMounted.trans t.isMounted, ?_, ?_, ?_⟩
  · intro hstatus
    refine (t.heldReady_run he r (t.connected (t.status_run r hstatus))).resolve_right ?_
    intro hend
    exact absurd (hend.1.symm.trans hstatus) (by simp)
  · intro j hj
    rw [r.created]
    rcases r.callbacks with ⟨hcb, -⟩ | ⟨m, rfl, hwaits, hcb⟩
    · rw [hcb] at hj
      exact ⟨(t.queued j hj).1, hkept j hj⟩
    · rw [hcb] at hj
      rcases eq_or_ne j k with rfl | hne
      · rw [Function.update_self] at hj
        exact ⟨hk, t.settles r hk hwaits (hin m rfl) (Callback.queued.inj hj)⟩
      · rw [Function.update_of_ne hne] at hj
        exact ⟨(t.queued j hj).1, hkept j hj⟩
  · intro j m hwaits hresolved
    rw [r.sessionRef]
    rw [r.sessions] at hwaits hresolved
    rcases eq_or_ne j k with rfl | hne
    · rw [Function.update_self] at hwaits hresolved
      by_contra hleft
      obtain ⟨hwaited, hsettled⟩ := (t.wired.left j hleft).resolves he hwaits hresolved
      exact hleft (t.arriving j m hwaited hsettled)
    · rw [Function.update_of_ne hne] at hwaits hresolved
      exact t.arriving j m hwaits hresolved

theorem Truthful.then_ (t : Truthful h) (k : Nat) : Truthful (h.then_ k) := by
  have hsame := then_same h k
  have hheld : HeldReady (h.then_ k) ↔ HeldReady h := by
    unfold HeldReady
    rw [hsame.sessionRef, hsame.sessions]
  refine ⟨t.wired.congr hsame.sessions hsame.sessionRef hsame.created,
    hsame.isMounted.trans t.isMounted, ?_, ?_, ?_⟩
  · intro hstatus
    rw [hheld]
    unfold Hook.then_ at hstatus
    split at hstatus
    · rename_i hqueued
      exact (t.queued k hqueued).2
    · simp only [t.isMounted] at hstatus
      exact absurd hstatus (by simp)
    · exact t.connected hstatus
  · intro j hj
    rw [hheld, hsame.created]
    refine t.queued j ?_
    unfold Hook.then_ at hj
    split at hj
    · simp only [t.isMounted, if_true] at hj
      rcases eq_or_ne j k with rfl | hne
      · simp at hj
      · rwa [Function.update_of_ne hne] at hj
    · simp only [t.isMounted, not_true, if_false] at hj
      rcases eq_or_ne j k with rfl | hne
      · simp at hj
      · rwa [Function.update_of_ne hne] at hj
    · exact hj
  · rw [hsame.sessions, hsame.sessionRef]
    exact t.arriving

theorem clearReconnectTimer_eq (h : Hook) : ∃ reconnectTimerRef timers,
    h.clearReconnectTimer = { h with reconnectTimerRef, timers } := by
  unfold clearReconnectTimer
  split
  · exact ⟨_, _, rfl⟩
  · exact ⟨_, _, rfl⟩

theorem Truthful.disconnect (t : Truthful h) (hnot : ¬ Arriving h) : Truthful (h.disconnect o) := by
  obtain ⟨ref, timers, hclear⟩ := clearReconnectTimer_eq h
  have hstart : Wired { h.clearReconnectTimer with
      reconnectAttempts := o.maxReconnectAttempts } := by
    rw [hclear]; exact t.wired.congr rfl rfl rfl
  have hcalm : Calm { h.clearReconnectTimer with
      reconnectAttempts := o.maxReconnectAttempts } := by
    rw [hclear]; exact (t.calm hnot).congr rfl rfl
  have hm : h.clearReconnectTimer.isMounted = true := by rw [hclear]; exact t.isMounted
  have r := hstart.released (o := o) .disconnect
  exact Calm.truthful (.congr (hcalm.release r) rfl rfl) (.congr (hstart.release r) rfl rfl rfl)
    (r.isMounted.trans hm) HookStatus.noConfusion

theorem Truthful.mount (t : Truthful h) (workerThrows socketThrows : Option String)
    (hin : InTime o h (.mount workerThrows socketThrows)) :
    Truthful (h.mount o workerThrows socketThrows) := by
  unfold Hook.mount
  cases hm : h.mounted with
  | true => exact t
  | false =>
    have hstart : Truthful { h with mounted := true, isMounted := true, reconnectAttempts := 0 } :=
      ⟨t.wired.congr rfl rfl rfl, rfl, t.connected, t.queued, t.arriving⟩
    simp only [Bool.false_eq_true, if_false]
    split
    · rename_i hauto
      obtain ⟨hnot, hthrows⟩ := hin hm hauto
      exact (hstart.calm hnot).doConnect hstart.wired rfl _ _ _ hthrows
    · exact hstart

theorem Truthful.timer (t : Truthful h) (hquiet : h.quiet = true) (n : Nat)
    (workerThrows socketThrows : Option String)
    (hthrows : workerThrows.isSome = true → o.strict = true) :
    Truthful (h.timer o n workerThrows socketThrows) := by
  unfold Hook.timer
  split
  · have hcalm : Calm { h with timers := h.timers.filter fun x => x.1 ≠ n } :=
      (t.calm_of_quiet hquiet).congr rfl rfl
    rw [if_pos t.isMounted]
    exact hcalm.doConnect (t.wired.congr rfl rfl rfl) t.isMounted _ _ _ hthrows
  · exact t

theorem Truthful.step (t : Truthful h) {e : HookEvent} (hstays : e ≠ .unmount)
    (hin : InTime o h e) : Truthful (h.step o e) := by
  cases e with
  | mount workerThrows socketThrows => exact t.mount workerThrows socketThrows hin
  | unmount => exact absurd rfl hstays
  | connect workerThrows socketThrows =>
    exact (t.calm hin.1).doConnect t.wired t.isMounted .connect workerThrows socketThrows hin.2
  | disconnect => exact t.disconnect hin
  | then_ k => exact t.then_ k
  | continue_ k i =>
    apply step_continue t
    intro hk
    refine t.run hk rfl (fun hne => absurd rfl (hne i)) ?_
    intro j hj
    rw [← SessionEvent.continue_.inj hj]
    exact hin
  | session k e =>
    apply step_session t
    intro hk i hi htask hquiet
    refine t.run hk hi (fun _ => hquiet) ?_
    intro j hj
    exact absurd hj (htask j)
  | timer n workerThrows socketThrows =>
    apply step_timer t
    intro hquiet
    exact t.timer hquiet n workerThrows socketThrows hin

/-- **The status.** When no microtask is left, the status is 'connected' only if the session in
use is ready, in every run in which a session that is not strict fails only while another one is
ready, and none is left between the success of its handshake and the callback. -/
theorem status_truthful (o : UsePQCSessionOptions) (events : List HookEvent)
    (hstays : ∀ e ∈ events, e ≠ .unmount) (hmeets : Meets (step o) (InTime o) new events) :
    StatusTruthful (run o events) := fun _ hstatus =>
  ((hmeets.and_mem hstays).invariant (fun _ _ t he => t.step he.2 he.1) truthful_new).connected
    hstatus

/-- A drop, and the attempt after it. -/
theorem status_truthful_after_drop :
    let h := run defaults ([.mount none none] ++ established 0 ++ [.session 0 (.wsClose 0),
      .timer 0 none none] ++ established 1)
    (h.quiet = true ∧ h.status = .connected) ∧ StatusTruthful h := by
  refine ⟨by decide +kernel, ?_⟩
  apply status_truthful
  · decide +kernel
  · decide +kernel

/-- **Connected to nothing.** The socket closes before the handshake, the session is not strict,
and the hook says 'connected'. No event has to follow for this to stay so. -/
theorem failed_session_connected :
    ¬ StatusTruthful (run defaults [.mount none none, .session 0 (.wsClose 0), .continue_ 0 0,
      .then_ 0]) := by
  intro htruthful
  generalize hrun : run defaults _ = h at htruthful
  have hevaluated : h.quiet = true ∧ h.status = .connected ∧ h.sessionRef = some 0 ∧
      (h.sessions 0).state = .error := by
    rw [← hrun]
    decide +kernel
  obtain ⟨hquiet, hconnected, href, herror⟩ := hevaluated
  obtain ⟨k, hk, hstate⟩ := htruthful hquiet hconnected
  obtain rfl := Option.some.inj (href.symm.trans hk)
  rw [herror] at hstate
  exact SessionState.noConfusion hstate

end Hook

end LatticeShield.Js
