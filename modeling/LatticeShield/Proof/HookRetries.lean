import LatticeShield.Proof.Hook

/-!
# Reconnecting after a drop

A session that does not get ready says so by 'error' and by the promise of its `connect`, not by
'close', and only 'close' sets a timer: after a drop the hook makes one attempt and no second. It
keeps trying in the runs in which no attempt fails that should be followed by another
(`retries_continue`).
-/

set_option autoImplicit false

namespace LatticeShield.Js

open Lib

namespace Hook

variable {o : UsePQCSessionOptions} {h h' : Hook}

/-- After a drop, and as long as no attempt has succeeded: an attempt is in progress, a timer is
pending, or all the attempts have been made. `sinceDrop` counts them, and is `none` before the
first drop and behind a success. -/
def KeepsTrying (o : UsePQCSessionOptions) (h : Hook) : Prop :=
  ∀ n, h.sinceDrop = some n →
    (∃ k, h.sessionRef = some k ∧ (h.sessions k).state = .connecting) ∨ h.timers ≠ [] ∨
      o.maxReconnectAttempts ≤ n

/-- The hook is in use. After `disconnect` and `unmount` nobody waits for another attempt. -/
def Stays (e : HookEvent) : Prop := e ≠ .disconnect ∧ e ≠ .unmount

instance (e : HookEvent) : Decidable (Stays e) := inferInstanceAs (Decidable (_ ∧ _))

/-- The hook has made all attempts, or makes the last of them now. `made` is what the step itself
adds. -/
def LastAttempt (o : UsePQCSessionOptions) (h : Hook) (made : Nat) : Prop :=
  ∀ n ∈ h.sinceDrop, o.maxReconnectAttempts ≤ n + made

instance (o : UsePQCSessionOptions) (h : Hook) (made : Nat) : Decidable (LastAttempt o h made) :=
  inferInstanceAs (Decidable (∀ n ∈ h.sinceDrop, _))

/-- An attempt fails only when it is the last that the hook would make, or when a timer is pending
that is not its own. A failed attempt is an 'error' to the hook, whose listener sets no timer;
only the 'close' listener does. -/
def Retried (o : UsePQCSessionOptions) (h : Hook) : HookEvent → Prop
  | .continue_ k i => h.sessionRef = some k → ((h.sessions k).attempts i).continued = false →
      ((h.sessions k).attempts i).promise ≠ .pending →
      ((h.sessions k).attempts i).promise ≠ .resolved → h.timers = [] → LastAttempt o h 0
  | .connect (some _) _ => h.timers = [] → LastAttempt o h 1
  | .mount (some _) _ => h.timers = [] → LastAttempt o h 1
  | .timer t (some _) _ => (h.timers.filter fun x => x.1 ≠ t) = [] → LastAttempt o h 1
  | _ => True

instance (o : UsePQCSessionOptions) (h : Hook) : (e : HookEvent) → Decidable (Retried o h e)
  | .continue_ _ _ => inferInstanceAs (Decidable (_ → _ → _ → _ → _ → LastAttempt o h 0))
  | .connect (some _) _ => inferInstanceAs (Decidable (_ → LastAttempt o h 1))
  | .mount (some _) _ => inferInstanceAs (Decidable (_ → LastAttempt o h 1))
  | .timer _ (some _) _ => inferInstanceAs (Decidable (_ → LastAttempt o h 1))
  | .connect none _ => .isTrue trivial
  | .mount none _ => .isTrue trivial
  | .timer _ none _ => .isTrue trivial
  | .unmount => .isTrue trivial
  | .disconnect => .isTrue trivial
  | .then_ _ => .isTrue trivial
  | .session _ _ => .isTrue trivial

/-- The invariant of the runs: the wiring, the property itself, and of the counter
`reconnectAttempts` what the 'close' listener needs. It compares that counter, and not the
attempts, with the maximum. -/
structure Trying (o : UsePQCSessionOptions) (h : Hook) : Prop where
  wired : Wired h
  isMounted : h.isMounted = true
  trying : KeepsTrying o h
  /-- A session in use that is ready has its callback before it, or no attempt is counted. -/
  ready : ∀ k, h.sessionRef = some k → (h.sessions k).state = .ready →
    h.callbacks k = .queued .resolved ∨ h.reconnectAttempts = 0
  url : badUrl o = true → h.sessionRef = none ∧ h.sinceDrop = none

theorem trying_new (o : UsePQCSessionOptions) : Trying o new :=
  ⟨wired_new, rfl, fun n hn => absurd hn (by simp [new]), fun k hk => absurd hk (by simp [new]),
    fun _ => ⟨rfl, rfl⟩⟩

/-- Whatever was pending before, `doConnect` leaves an attempt in progress. It may fail at once
only if it is the last. -/
theorem Wired.doConnect_trying (w : Wired h) (hm : h.isMounted = true)
    (hurl : badUrl o = true → h.sinceDrop = none) (cause : Cause)
    (workerThrows socketThrows : Option String)
    (hthrows : workerThrows.isSome = true → h.timers = [] → LastAttempt o h 1) :
    Trying o (h.doConnect o cause workerThrows socketThrows) := by
  have w' := w.doConnect (o := o) cause workerThrows socketThrows
  obtain ⟨h₁, r, w₁, ⟨hbad, heq⟩ | ⟨hgood, l⟩⟩ :=
    w.doConnect_cases (o := o) hm cause workerThrows socketThrows
  · -- there has never been a session
    have hdrop : h₁.sinceDrop = none := r.sinceDrop.trans (hurl hbad)
    rw [heq] at w' ⊢
    refine ⟨w', r.isMounted.trans hm, ?_, ?_,
      fun _ => ⟨r.sessionRef, hdrop⟩⟩
    · intro n hn
      exact absurd (hdrop.symm.trans hn) (by simp)
    · intro k hk
      exact absurd (r.sessionRef.symm.trans hk) (by simp)
  · refine ⟨w', (l.isMounted.trans r.isMounted).trans hm, ?_,
      ?_, fun hbad => absurd (hgood.symm.trans hbad) (by simp)⟩
    · intro n hn
      rw [l.sinceDrop, r.sinceDrop] at hn
      obtain ⟨m, hm, rfl⟩ := Option.map_eq_some_iff.mp hn
      cases hw : workerThrows.isSome with
      | false => exact Or.inl ⟨_, l.sessionRef, by simp [l.session.state, hw]⟩
      | true =>
        refine Or.inr (or_iff_not_imp_left.mpr fun hnil => hthrows hw ?_ m hm)
        by_contra hne
        obtain ⟨x, hx⟩ := List.exists_mem_of_ne_nil _ hne
        rw [l.timers] at hnil
        exact hnil (List.ne_nil_of_mem (r.grow x hx))
    · intro k hk hready
      rw [l.sessionRef] at hk
      rw [← Option.some.inj hk, l.session.state] at hready
      split at hready <;> exact SessionState.noConfusion hready

/-- What the listener leaves of the timers, for a session that has just been dropped: one that
will retry, unless no retry is configured. -/
theorem onClose_tries (hm : h.isMounted = true) (hzero : h.reconnectAttempts = 0) :
    (h.onClose o).timers ≠ [] ∨ o.maxReconnectAttempts ≤ 0 := by
  by_cases hmax : 0 < o.maxReconnectAttempts
  · refine Or.inl ?_
    simp [onClose, hm, hzero, hmax, setReconnectTimer]
  · exact Or.inr (Nat.le_of_not_lt hmax)

theorem Trying.run_left (t : Trying o h) {k : Nat} (hk : k < h.created) {e : SessionEvent} {i : Nat}
    (he : e.attempt? = some i) (hleft : h.sessionRef ≠ some k) : Trying o (h.session o k e) := by
  have r := t.wired.ran (o := o) k e
  have hmild := r.mild ((t.wired.left k hleft).step he).2
  have hsame (j : Nat) (hj : h.sessionRef = some j) :
      (h.session o k e).sessions j = h.sessions j := by
    have hne : j ≠ k := fun heq => hleft (by rw [← heq, hj])
    rw [r.sessions, Function.update_of_ne hne]
  have hdrop : (h.session o k e).sinceDrop = h.sinceDrop := by rw [r.sinceDrop, if_neg hleft]
  refine ⟨t.wired.run hk he r, r.isMounted.trans t.isMounted, ?_, ?_,
    fun hurl => by rw [r.sessionRef, hdrop]; exact t.url hurl⟩
  · intro n hn
    rw [hdrop] at hn
    rw [hmild.timers, r.sessionRef]
    refine (t.trying n hn).imp_left ?_
    rintro ⟨j, hj, hstate⟩
    exact ⟨j, hj, (congrArg PQCSession.state (hsame j hj)).trans hstate⟩
  · intro j hj hready
    rw [r.sessionRef] at hj
    rw [hsame j hj] at hready
    rw [hmild.reconnectAttempts]
    refine (t.ready j hj hready).imp_left ?_
    intro hqueued
    have hne : j ≠ k := fun heq => hleft (by rw [← heq, hj])
    rcases r.callbacks with ⟨hcb, -⟩ | ⟨_, -, -, hcb⟩ <;> rw [hcb]
    · exact hqueued
    · rw [Function.update_of_ne hne]; exact hqueued

section Held

/-! ### An event of the session in use, by what it does to the state -/

variable {k : Nat} {e : SessionEvent}

theorem Ran.held_state (r : Ran o k e h h') :
    (h'.sessions k).state = ((h.sessions k).step e).state := by
  rw [r.sessions, Function.update_self]

theorem Trying.of_ran (t : Trying o h) (w' : Wired h') (r : Ran o k e h h')
    (hheld : h.sessionRef = some k) (htrying : KeepsTrying o h')
    (hready : ((h.sessions k).step e).state = .ready →
      h'.callbacks k = .queued .resolved ∨ h'.reconnectAttempts = 0) : Trying o h' := by
  refine ⟨w', r.isMounted.trans t.isMounted, htrying, ?_, ?_⟩
  · intro j hj hstate
    obtain rfl := Option.some.inj ((r.sessionRef.trans hheld).symm.trans hj)
    exact hready (r.held_state.symm.trans hstate)
  · intro hurl
    exact absurd ((t.url hurl).1.symm.trans hheld) (by simp)

theorem Ran.sinceDrop_of_not_ready (r : Ran o k e h h') (hheld : h.sessionRef = some k)
    (hbefore : (h.sessions k).state ≠ .ready)
    (hafter : ((h.sessions k).step e).state ≠ .ready) : h'.sinceDrop = h.sinceDrop := by
  rw [r.sinceDrop, if_pos hheld, if_neg (fun hc => hbefore hc.1), if_neg (fun hc => hafter hc.2)]

theorem Trying.ran_same (t : Trying o h) (w' : Wired h') (r : Ran o k e h h')
    (hheld : h.sessionRef = some k)
    (hstate : ((h.sessions k).step e).state = (h.sessions k).state) : Trying o h' := by
  have hm := r.mild fun hclosed => hstate.symm.trans hclosed
  have hsame : h'.sinceDrop = h.sinceDrop := by
    rw [r.sinceDrop, if_pos hheld, hstate,
      if_neg (fun hc => SessionState.noConfusion (hc.1.symm.trans hc.2)),
      if_neg (fun hc => hc.1 hc.2)]
  refine t.of_ran w' r hheld ?_ ?_
  · intro n hn
    rw [hsame] at hn
    rw [hm.timers]
    refine (t.trying n hn).imp_left ?_
    rintro ⟨j, hj, hconn⟩
    obtain rfl := Option.some.inj (hheld.symm.trans hj)
    exact ⟨k, r.sessionRef.trans hheld, (r.held_state.trans hstate).trans hconn⟩
  · intro hready
    rw [hstate] at hready
    rw [hm.reconnectAttempts]
    refine (t.ready k hheld hready).imp_left ?_
    intro hqueued
    rcases r.callbacks with ⟨hcb, -⟩ | ⟨j, -, hwaits, -⟩
    · rw [hcb]
      exact hqueued
    · -- nothing waits in a session that is ready
      have hconn := ((t.wired.held k hheld).2.waiting.waits j hwaits).1
      rw [hready] at hconn
      cases hconn

theorem Trying.ran_ready (t : Trying o h) (w' : Wired h') (r : Ran o k e h h')
    (hheld : h.sessionRef = some k) (hbefore : (h.sessions k).state = .connecting)
    (hafter : ((h.sessions k).step e).state = .ready)
    (hqueued : h'.callbacks k = .queued .resolved) : Trying o h' := by
  have hnone : h'.sinceDrop = none := by
    rw [r.sinceDrop, if_pos hheld, hbefore, hafter, if_neg (by simp), if_pos (by simp)]
  refine t.of_ran w' r hheld ?_ (fun _ => Or.inl hqueued)
  intro n hn
  rw [hnone] at hn
  cases hn

theorem Trying.ran_failed (t : Trying o h) (w' : Wired h') (r : Ran o k e h h')
    (hheld : h.sessionRef = some k) (hbefore : (h.sessions k).state = .connecting)
    (hafter : ((h.sessions k).step e).state = .error)
    (hlast : h.timers = [] → LastAttempt o h 0) : Trying o h' := by
  have hsame : h'.sinceDrop = h.sinceDrop :=
    r.sinceDrop_of_not_ready hheld (by simp [hbefore]) (by simp [hafter])
  have hm := r.mild (by simp [hafter])
  refine t.of_ran w' r hheld ?_ ?_
  · intro n hn
    rw [hsame] at hn
    rw [hm.timers]
    by_cases hnil : h.timers = []
    · exact Or.inr (Or.inr (hlast hnil n hn))
    · exact Or.inr (Or.inl hnil)
  · intro hready
    rw [hafter] at hready
    cases hready

theorem Trying.ran_dropped (t : Trying o h) (w' : Wired h') (r : Ran o k e h h')
    (hheld : h.sessionRef = some k) (hopen : (h.sessions k).state ≠ .closed)
    (hconn : (h.sessions k).state ≠ .connecting)
    (hafter : ((h.sessions k).step e).state = .closed)
    (hquiet : h.callbacks k ≠ .queued .resolved) : Trying o h' := by
  obtain ⟨-, htimers, -⟩ := r.dropped hopen hafter
  refine t.of_ran w' r hheld ?_ ?_
  · intro n hn
    by_cases hready : (h.sessions k).state = .ready
    · rw [r.sinceDrop, if_pos hheld, if_pos ⟨hready, hafter⟩] at hn
      obtain rfl := Option.some.inj hn
      have hzero : h.reconnectAttempts = 0 := (t.ready k hheld hready).resolve_left hquiet
      rw [htimers]
      exact Or.inr (onClose_tries t.isMounted hzero)
    · rw [r.sinceDrop_of_not_ready hheld hready (by simp [hafter])] at hn
      rcases t.trying n hn with ⟨l, hl, hstate⟩ | hpending | hmax
      · obtain rfl := Option.some.inj (hheld.symm.trans hl)
        exact absurd hstate hconn
      · obtain ⟨x, hx⟩ := List.exists_mem_of_ne_nil _ hpending
        exact Or.inr (Or.inl (List.ne_nil_of_mem (r.grow x hx)))
      · exact Or.inr (Or.inr hmax)
  · intro hready
    rw [hafter] at hready
    cases hready

/-- An event of the session in use. A task comes when the callback behind `connect` has run. By
what becomes of the session's state there are four cases, and each is one of the lemmas above. -/
theorem Trying.run_held (t : Trying o h) {i : Nat} (he : e.attempt? = some i)
    (hheld : h.sessionRef = some k)
    (hquiet : (∀ j, e ≠ .continue_ j) → h.callbacks k ≠ .queued .resolved)
    (hretried : ∀ j, e = .continue_ j → Retried o h (.continue_ k j)) :
    Trying o (h.session o k e) := by
  obtain ⟨hk, inv⟩ := t.wired.held k hheld
  have r := t.wired.ran (o := o) k e
  have w' := t.wired.run hk he r
  generalize h.session o k e = h' at *
  have heffect := inv.attached.step_effect e
  generalize hs : (h.sessions k).step e = s' at heffect
  cases heffect with
  | inner attempt inner => exact t.ran_same w' r hheld (by rw [hs, inner.state])
  | ready j waits resolved =>
    refine t.ran_ready w' r hheld (inv.waiting.waits j waits).1 (by rw [hs]; rfl) ?_
    rcases r.callbacks with ⟨-, hpending⟩ | ⟨l, hl, -, hcb⟩
    · have hp := hpending j rfl waits
      rw [resolved] at hp
      cases hp
    · obtain rfl := SessionEvent.continue_.inj hl
      rw [hcb, Function.update_self, resolved]
      rfl
  | failed j e waits rejected =>
    refine t.ran_failed w' r hheld (inv.waiting.waits j waits).1 (by rw [hs]; rfl) ?_
    exact hretried j rfl hheld waits (by rw [rejected]; simp) (by rw [rejected]; simp)
  | dropped j isOpen settled permanent inner down =>
    exact t.ran_dropped w' r hheld isOpen (inv.not_connecting settled permanent) (by rw [hs]; rfl)
      (hquiet fun _ => SessionEvent.noConfusion)
  | _ => exact absurd he (by simp [SessionEvent.attempt?])

end Held

/-- The callback of `connect` counts no attempt. -/
theorem then_reconnectAttempts (h : Hook) (k : Nat) (hm : h.isMounted = true) :
    (h.then_ k).reconnectAttempts = 0 ∨
      (h.then_ k).reconnectAttempts = h.reconnectAttempts ∧ h.callbacks k ≠ .queued .resolved ∧
        ∀ j, j ≠ k → (h.then_ k).callbacks j = h.callbacks j := by
  unfold then_
  split
  · refine Or.inl ?_
    rw [if_pos hm]
  · rename_i e hqueued
    refine Or.inr ⟨?_, ?_, ?_⟩
    · rw [if_neg (not_not.mpr hm)]
    · intro hc
      rw [hqueued] at hc
      cases hc
    · intro j hj
      rw [if_neg (not_not.mpr hm)]
      exact Function.update_of_ne hj ..
  · rename_i hnot _
    exact Or.inr ⟨rfl, hnot, fun _ _ => rfl⟩

theorem Trying.then_ (t : Trying o h) (k : Nat) : Trying o (h.then_ k) := by
  have hsame := then_same h k
  refine ⟨t.wired.congr hsame.sessions hsame.sessionRef hsame.created,
    hsame.isMounted.trans t.isMounted, ?_, ?_, ?_⟩
  · unfold KeepsTrying
    rw [hsame.sinceDrop, hsame.sessionRef, hsame.sessions, hsame.timers]
    exact t.trying
  · intro j hj hready
    rw [hsame.sessionRef] at hj
    rw [hsame.sessions] at hready
    rcases then_reconnectAttempts h k t.isMounted with hzero | ⟨heq, hnot, hcb⟩
    · exact Or.inr hzero
    · rcases t.ready j hj hready with hqueued | hzero
      · have hne : j ≠ k := fun heq => hnot (heq ▸ hqueued)
        exact Or.inl ((hcb j hne).trans hqueued)
      · exact Or.inr (heq.trans hzero)
  · rw [hsame.sessionRef, hsame.sinceDrop]
    exact t.url

theorem Trying.run (t : Trying o h) {k : Nat} (hk : k < h.created) {e : SessionEvent} {i : Nat}
    (he : e.attempt? = some i) (hquiet : (∀ j, e ≠ .continue_ j) → h.callbacks k ≠ .queued .resolved)
    (hretried : ∀ j, e = .continue_ j → Retried o h (.continue_ k j)) :
    Trying o (h.session o k e) := by
  by_cases hheld : h.sessionRef = some k
  · exact t.run_held he hheld hquiet hretried
  · exact t.run_left hk he hheld

theorem Trying.mount (t : Trying o h) (workerThrows socketThrows : Option String)
    (hthrows : workerThrows.isSome = true → h.timers = [] → LastAttempt o h 1) :
    Trying o (h.mount o workerThrows socketThrows) := by
  unfold Hook.mount
  split
  · exact t
  · have hstart : Trying o { h with mounted := true, isMounted := true, reconnectAttempts := 0 } :=
      ⟨t.wired.congr rfl rfl rfl, rfl, t.trying, fun _ _ _ => Or.inr rfl, t.url⟩
    simp only
    split
    · exact hstart.wired.doConnect_trying rfl (fun hurl => (t.url hurl).2) _ _ _ hthrows
    · exact hstart

/-- A timer that fires gives way to an attempt. If the worker's constructor throws there is none,
which the condition allows only as the last. -/
theorem Trying.timer (t : Trying o h) (n : Nat) (workerThrows socketThrows : Option String)
    (hthrows : workerThrows.isSome = true →
      (h.timers.filter fun x => x.1 ≠ n) = [] → LastAttempt o h 1) :
    Trying o (h.timer o n workerThrows socketThrows) := by
  unfold Hook.timer
  split
  · have hwired : Wired { h with timers := h.timers.filter fun x => x.1 ≠ n } :=
      t.wired.congr rfl rfl rfl
    rw [if_pos t.isMounted]
    exact hwired.doConnect_trying t.isMounted (fun hurl => (t.url hurl).2) _ _ _ hthrows
  · exact t

theorem Trying.step (t : Trying o h) {e : HookEvent} (hstays : Stays e) (he : Retried o h e) :
    Trying o (h.step o e) := by
  -- `unmount` and `disconnect` end the retries on purpose; `Stays` leaves them out
  cases e with
  | mount workerThrows socketThrows =>
    refine t.mount workerThrows socketThrows ?_
    intro hsome
    obtain ⟨reason, rfl⟩ := Option.isSome_iff_exists.mp hsome
    exact he
  | unmount => exact absurd rfl hstays.2
  | connect workerThrows socketThrows =>
    refine t.wired.doConnect_trying t.isMounted (fun hurl => (t.url hurl).2) .connect workerThrows
      socketThrows ?_
    intro hsome
    obtain ⟨reason, rfl⟩ := Option.isSome_iff_exists.mp hsome
    exact he
  | disconnect => exact absurd rfl hstays.1
  | then_ k => exact t.then_ k
  | continue_ k i =>
    apply step_continue t
    intro hk
    refine t.run hk rfl (fun hne => absurd rfl (hne i)) ?_
    intro j hj
    rw [← SessionEvent.continue_.inj hj]
    exact he
  | session k e =>
    apply step_session t
    intro hk i hi htask hquiet
    refine t.run hk hi (fun _ => ((quiet_iff h).mp hquiet k hk).2 _) ?_
    intro j hj
    exact absurd hj (htask j)
  | timer n workerThrows socketThrows =>
    apply step_timer t
    intro _
    refine t.timer n workerThrows socketThrows ?_
    intro hsome
    obtain ⟨reason, rfl⟩ := Option.isSome_iff_exists.mp hsome
    exact he

/-- **Retries.** After a drop, with the hook in use, an attempt is in progress or a timer is
pending until `maxReconnectAttempts` attempts have been made, in every run in which an attempt
fails only when it is the last or with a timer pending. -/
theorem retries_continue (o : UsePQCSessionOptions) (events : List HookEvent)
    (hstays : ∀ e ∈ events, Stays e) (hmeets : Meets (step o) (Retried o) new events) :
    KeepsTrying o (run o events) :=
  ((hmeets.and_mem hstays).invariant (I := Trying o) (fun _ _ t he => t.step he.2 he.1)
    (trying_new o)).trying

/-- A drop, an attempt that succeeds, and another drop. -/
theorem retries_continue_after_drops :
    let events := [.mount none none] ++ established 0 ++ [.session 0 (.wsClose 0),
      .timer 0 none none] ++ established 1 ++ [.session 1 (.wsClose 0)]
    (run defaults events).sinceDrop = some 0 ∧ KeepsTrying defaults (run defaults events) := by
  refine ⟨by decide +kernel, ?_⟩
  apply retries_continue
  · decide +kernel
  · decide +kernel

/-- **One attempt.** After a drop the hook tries once; the attempt fails, and of the three that
were promised no second follows, since no timer is left that could start it. -/
theorem failed_attempt_not_retried :
    ¬ KeepsTrying defaults (run defaults ([.mount none none] ++ established 0 ++
      [.session 0 (.wsClose 0), .timer 0 none none, .session 1 (.wsClose 0), .continue_ 1 0,
        .then_ 1])) := by
  intro htrying
  generalize hrun : run defaults _ = h at htrying
  have hevaluated : h.sinceDrop = some 1 ∧ h.sessionRef = some 1 ∧
      (h.sessions 1).state = .error ∧ h.timers = [] := by
    rw [← hrun]
    decide +kernel
  obtain ⟨hdrop, href, herror, hnone⟩ := hevaluated
  rcases htrying 1 hdrop with ⟨k, hk, hstate⟩ | htimers | hmax
  · obtain rfl := Option.some.inj (href.symm.trans hk)
    rw [herror] at hstate
    exact SessionState.noConfusion hstate
  · exact htimers hnone
  · exact absurd hmax (by decide)

end Hook

end LatticeShield.Js
