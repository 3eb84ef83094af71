import LatticeShield.Proof.HookSteps
import LatticeShield.Lib.Runs

/-!
# What the React hook does to its sessions

Replacing a session closes it, and to the 'close' listener that is a session to be reconnected: it
sets a timer, which fires when the new session is there and closes that one. The same comes of a
`connect()` while a timer is pending. The hook leaves a healthy session alone in the runs in which
`connect()` finds neither (`sessions_left_alone`).
-/

set_option autoImplicit false

namespace LatticeShield.Js

open Lib

namespace Hook

variable {o : UsePQCSessionOptions} {h h' : Hook}

/-! ## Timers and the session in use -/

/-- A timer is pending only while the session in use is closed, and the ref knows it. There is one
at most, for every way to a new one goes through `clearReconnectTimer` or finds none. -/
structure Timed (h : Hook) : Prop where
  wired : Wired h
  only : ∀ x ∈ h.timers, h.reconnectTimerRef = some x.1
  idle : h.timers ≠ [] → ∀ k ∈ h.sessionRef, (h.sessions k).state = .closed

theorem timed_new : Timed new :=
  ⟨wired_new, fun _ hx => absurd hx List.not_mem_nil, fun hne => absurd rfl hne⟩

theorem Timed.of_nil (w : Wired h) (hnil : h.timers = []) : Timed h :=
  ⟨w, fun _ hx => absurd (hnil ▸ hx) List.not_mem_nil, fun hne => absurd hnil hne⟩

theorem Timed.congr (t : Timed h) (w : Wired h') (htimers : h'.timers = h.timers)
    (href : h'.reconnectTimerRef = h.reconnectTimerRef) (hsession : h'.sessionRef = h.sessionRef)
    (hsessions : ∀ k ∈ h.sessionRef, (h.sessions k).state = .closed →
      (h'.sessions k).state = .closed) : Timed h' := by
  refine ⟨w, ?_, ?_⟩
  · rw [htimers, href]; exact t.only
  · intro hne k hk
    rw [htimers] at hne
    rw [hsession] at hk
    exact hsessions k hk (t.idle hne k hk)

theorem Timed.cleared (t : Timed h) : h.clearReconnectTimer.timers = [] := by
  unfold clearReconnectTimer
  cases href : h.reconnectTimerRef with
  | none =>
    apply List.eq_nil_iff_forall_not_mem.mpr
    intro x hx
    have hsome := t.only x hx
    rw [href] at hsome
    exact absurd hsome (by simp)
  | some n =>
    simp only [List.filter_eq_nil_iff]
    intro x hx
    have hsome := t.only x hx
    rw [href] at hsome
    simpa using (Option.some.inj hsome).symm

theorem Timed.fired (t : Timed h) {n : Nat} (hn : (h.timers.any fun x => x.1 = n) = true) :
    (h.timers.filter fun x => x.1 ≠ n) = [] := by
  obtain ⟨x, hx, hxn⟩ := List.any_eq_true.mp hn
  have hxn' : x.1 = n := by simpa using hxn
  simp only [List.filter_eq_nil_iff]
  intro y hy
  have heq : y.1 = x.1 := Option.some.inj ((t.only y hy).symm.trans (t.only x hx))
  simpa [← hxn'] using heq

/-- The listener sets a timer when there is none. Then the ref points to it, and a later
`clearTimeout` will find it. -/
theorem onClose_only (hnil : h.timers = []) :
    ∀ x ∈ (h.onClose o).timers, (h.onClose o).reconnectTimerRef = some x.1 := by
  unfold onClose
  split
  · rw [hnil]; exact fun x hx => absurd hx List.not_mem_nil
  · simp only
    split
    · intro x hx
      simp only [setReconnectTimer, hnil, List.nil_append, List.mem_singleton] at hx ⊢
      rw [hx]
    · rw [hnil]; exact fun x hx => absurd hx List.not_mem_nil

theorem Timed.run (t : Timed h) {k : Nat} (hk : k < h.created) {e : SessionEvent} {i : Nat}
    (he : e.attempt? = some i) (r : Ran o k e h h') : Timed h' := by
  have w := t.wired.run hk he r
  have hother (j : Nat) (hne : j ≠ k) : h'.sessions j = h.sessions j := by
    rw [r.sessions, Function.update_of_ne hne]
  have hself : h'.sessions k = (h.sessions k).step e := by rw [r.sessions, Function.update_self]
  by_cases hopen : ((h.sessions k).step e).state = .closed → (h.sessions k).state = .closed
  · have hmild := r.mild hopen
    refine t.congr w hmild.timers hmild.reconnectTimerRef r.sessionRef ?_
    intro j hj hclosed
    rcases eq_or_ne j k with rfl | hne
    · rw [hself]
      exact (t.wired.held j hj).2.closed_final hclosed he
    · rw [hother j hne]; exact hclosed
  · -- the session in use is dropped; it was open, so no timer is pending
    obtain ⟨hclosed, hnot⟩ := Classical.not_imp.mp hopen
    have hheld : h.sessionRef = some k := by
      by_contra hleft
      exact hnot (((t.wired.left k hleft).step he).2 hclosed)
    have hnil : h.timers = [] := by
      by_contra hne
      exact hnot (t.idle hne k hheld)
    obtain ⟨-, htimers, href⟩ := r.dropped hnot hclosed
    refine ⟨w, ?_, ?_⟩
    · rw [htimers, href]; exact onClose_only hnil
    · intro _ j hj
      rw [r.sessionRef, hheld] at hj
      rw [← Option.some.inj hj, hself]
      exact hclosed

/-! ## Sessions that are left alone -/

/-- The hook closes a session that is ready only because it is told to. Every close is recorded
with its cause and with the state that the session was in. -/
def LeavesAlone (h : Hook) : Prop :=
  ∀ c ∈ h.closes, c.state = .ready →
    c.cause = .connect ∨ c.cause = .disconnect ∨ c.cause = .unmount

structure Careful (h : Hook) : Prop where
  timed : Timed h
  leaves : LeavesAlone h

/-- `connect` is called, and the effect runs, only when no timer is pending and no session is
there that would be reconnected. The close listener of a session that is replaced runs like any
other, and sets a timer for a session that is no longer in use. -/
def Unraced (o : UsePQCSessionOptions) (h : Hook) : HookEvent → Prop
  | .connect _ _ => h.isMounted = true → h.timers = [] ∧
      (o.maxReconnectAttempts ≤ h.reconnectAttempts ∨
        ∀ k ∈ h.sessionRef, (h.sessions k).state = .closed)
  | .mount _ _ => h.mounted = false → o.autoConnect = true → h.timers = [] ∧
      ∀ k ∈ h.sessionRef, (h.sessions k).state = .closed
  | _ => True

instance (o : UsePQCSessionOptions) (h : Hook) : (e : HookEvent) → Decidable (Unraced o h e)
  | .connect _ _ => inferInstanceAs (Decidable (_ → _ ∧ (_ ∨ ∀ k ∈ h.sessionRef, _)))
  | .mount _ _ => inferInstanceAs (Decidable (_ → _ → _ ∧ ∀ k ∈ h.sessionRef, _))
  | .unmount => .isTrue trivial
  | .disconnect => .isTrue trivial
  | .then_ _ => .isTrue trivial
  | .continue_ _ _ => .isTrue trivial
  | .session _ _ => .isTrue trivial
  | .timer _ _ _ => .isTrue trivial

theorem LeavesAlone.release (l : LeavesAlone h) {cause : Cause} (r : Released o cause h h')
    (hcause : (cause = .connect ∨ cause = .disconnect ∨ cause = .unmount) ∨
      ∀ k ∈ h.sessionRef, (h.sessions k).state = .closed) : LeavesAlone h' := by
  intro c hc hready
  rcases r.closes c hc with hold | ⟨k, hk, rfl⟩
  · exact l c hold hready
  · rcases hcause with hcause | hclosed
    · exact hcause
    · exact absurd ((hclosed k hk).symm.trans hready) (by simp)

theorem LeavesAlone.doConnect (l : LeavesAlone h) (w : Wired h) {cause : Cause}
    (hcause : (cause = .connect ∨ cause = .disconnect ∨ cause = .unmount) ∨
      ∀ k ∈ h.sessionRef, (h.sessions k).state = .closed)
    (workerThrows socketThrows : Option String) :
    LeavesAlone (h.doConnect o cause workerThrows socketThrows) := by
  cases hm : h.isMounted with
  | false => rw [doConnect_unmounted hm]; exact l
  | true =>
    obtain ⟨h₁, r, -, ⟨-, heq⟩ | ⟨-, launched⟩⟩ :=
      w.doConnect_cases (o := o) hm cause workerThrows socketThrows
    · rw [heq]
      have hleft : LeavesAlone h₁ := l.release r hcause
      exact hleft
    · unfold LeavesAlone
      rw [launched.closes]
      exact l.release r hcause

theorem Wired.doConnect_timers (w : Wired h) (hnil : h.timers = [])
    (hskip : o.maxReconnectAttempts ≤ h.reconnectAttempts ∨
      ∀ k ∈ h.sessionRef, (h.sessions k).state = .closed) (cause : Cause)
    (workerThrows socketThrows : Option String) :
    (h.doConnect o cause workerThrows socketThrows).timers = [] := by
  cases hm : h.isMounted with
  | false => rw [doConnect_unmounted hm]; exact hnil
  | true =>
    obtain ⟨h₁, r, -, ⟨-, heq⟩ | ⟨-, launched⟩⟩ :=
      w.doConnect_cases (o := o) hm cause workerThrows socketThrows
    · rw [heq]
      exact (r.timers (Or.inr hskip)).1.trans hnil
    · rw [launched.timers]
      exact (r.timers (Or.inr hskip)).1.trans hnil

theorem Careful.doConnect (c : Careful h) {cause : Cause} (hnil : h.timers = [])
    (hskip : o.maxReconnectAttempts ≤ h.reconnectAttempts ∨
      ∀ k ∈ h.sessionRef, (h.sessions k).state = .closed)
    (hcause : (cause = .connect ∨ cause = .disconnect ∨ cause = .unmount) ∨
      ∀ k ∈ h.sessionRef, (h.sessions k).state = .closed)
    (workerThrows socketThrows : Option String) :
    Careful (h.doConnect o cause workerThrows socketThrows) :=
  ⟨.of_nil (c.timed.wired.doConnect ..)
      (c.timed.wired.doConnect_timers hnil hskip cause workerThrows socketThrows),
    c.leaves.doConnect c.timed.wired hcause workerThrows socketThrows⟩

/-- A close with no timer pending and none set by it. The hypothesis says why none is set: the
hook is unmounted or the attempts are used up. -/
theorem Careful.release (c : Careful h) {cause : Cause} (hnil : h.timers = [])
    (hskip : h.isMounted = false ∨ o.maxReconnectAttempts ≤ h.reconnectAttempts)
    (hcause : cause = .connect ∨ cause = .disconnect ∨ cause = .unmount) :
    Careful (h.closeSession o cause) := by
  have r := c.timed.wired.released (o := o) cause
  have htimers := (r.timers (hskip.imp_right Or.inl)).1
  exact ⟨.of_nil (c.timed.wired.release r) (htimers.trans hnil),
    c.leaves.release r (Or.inl hcause)⟩

theorem Careful.run (c : Careful h) {k : Nat} (hk : k < h.created) {e : SessionEvent} {i : Nat}
    (he : e.attempt? = some i) : Careful (h.session o k e) := by
  have r := c.timed.wired.ran (o := o) k e
  refine ⟨c.timed.run hk he r, ?_⟩
  unfold LeavesAlone
  rw [r.closes]
  exact c.leaves

theorem Careful.clear (c : Careful h) : Careful h.clearReconnectTimer := by
  have hwired : Wired h.clearReconnectTimer := by
    unfold clearReconnectTimer
    split <;> exact c.timed.wired.congr rfl rfl rfl
  refine ⟨.of_nil hwired c.timed.cleared, ?_⟩
  unfold clearReconnectTimer
  split <;> exact c.leaves

theorem Careful.timer (c : Careful h) (n : Nat) (workerThrows socketThrows : Option String) :
    Careful (h.timer o n workerThrows socketThrows) := by
  unfold Hook.timer
  by_cases hn : (h.timers.any fun x => x.1 = n) = true
  · rw [if_pos hn]
    have hne : h.timers ≠ [] := by
      intro hnil
      rw [hnil] at hn
      exact Bool.noConfusion hn
    have hclosed := c.timed.idle hne
    have hfired : Careful { h with timers := h.timers.filter fun x => x.1 ≠ n } :=
      ⟨.of_nil (c.timed.wired.congr rfl rfl rfl) (c.timed.fired hn), c.leaves⟩
    simp only
    split
    · exact hfired.doConnect (c.timed.fired hn) (Or.inr hclosed) (Or.inr hclosed) _ _
    · exact hfired
  · rw [if_neg hn]; exact c

theorem Careful.mount (c : Careful h) (workerThrows socketThrows : Option String)
    (he : Unraced o h (.mount workerThrows socketThrows)) :
    Careful (h.mount o workerThrows socketThrows) := by
  unfold Hook.mount
  cases hm : h.mounted with
  | true => exact c
  | false =>
    have hstart : Careful { h with mounted := true, isMounted := true, reconnectAttempts := 0 } :=
      ⟨c.timed.congr (c.timed.wired.congr rfl rfl rfl) rfl rfl rfl fun _ _ => id, c.leaves⟩
    simp only [Bool.false_eq_true, if_false]
    split
    · rename_i hauto
      obtain ⟨hnil, hclosed⟩ := he hm hauto
      exact hstart.doConnect hnil (Or.inr hclosed) (Or.inr hclosed) _ _
    · exact hstart

theorem Careful.unmount (c : Careful h) : Careful (h.unmount o) := by
  unfold Hook.unmount
  split
  · have hgone : Careful { h with mounted := false, isMounted := false } :=
      ⟨c.timed.congr (c.timed.wired.congr rfl rfl rfl) rfl rfl rfl fun _ _ => id, c.leaves⟩
    refine hgone.clear.release hgone.timed.cleared (Or.inl ?_) (Or.inr (Or.inr rfl))
    unfold clearReconnectTimer
    split <;> rfl
  · exact c

theorem Careful.disconnect (c : Careful h) : Careful (h.disconnect o) := by
  have hmax : Careful { h.clearReconnectTimer with reconnectAttempts := o.maxReconnectAttempts } :=
    ⟨c.clear.timed.congr (c.clear.timed.wired.congr rfl rfl rfl) rfl rfl rfl fun _ _ => id,
      c.clear.leaves⟩
  have hclosed : Careful (closeSession o { h.clearReconnectTimer with
      reconnectAttempts := o.maxReconnectAttempts } .disconnect) :=
    hmax.release c.timed.cleared (Or.inr (Nat.le_refl _)) (Or.inr (Or.inl rfl))
  exact ⟨hclosed.timed.congr (hclosed.timed.wired.congr rfl rfl rfl) rfl rfl rfl fun _ _ => id,
    hclosed.leaves⟩

theorem Careful.step (c : Careful h) {e : HookEvent} (he : Unraced o h e) :
    Careful (h.step o e) := by
  cases e with
  | mount workerThrows socketThrows => exact c.mount workerThrows socketThrows he
  | unmount => exact c.unmount
  | connect workerThrows socketThrows =>
    cases hm : h.isMounted with
    | false =>
      simp only [Hook.step, doConnect_unmounted hm]
      exact c
    | true =>
      obtain ⟨hnil, hskip⟩ := he hm
      exact c.doConnect hnil hskip (Or.inl (Or.inl rfl)) workerThrows socketThrows
  | disconnect => exact c.disconnect
  | then_ k =>
    have hsame := then_same h k
    refine ⟨c.timed.congr (c.timed.wired.congr hsame.sessions hsame.sessionRef hsame.created)
      hsame.timers hsame.reconnectTimerRef hsame.sessionRef ?_, ?_⟩
    · intro j _ hj
      simp only [Hook.step, hsame.sessions]
      exact hj
    · simp only [LeavesAlone, Hook.step, hsame.closes]
      exact c.leaves
  | continue_ k i =>
    apply step_continue c
    intro hk
    exact c.run hk rfl
  | session k e =>
    apply step_session c
    intro hk i hi _ _
    exact c.run hk hi
  | timer n workerThrows socketThrows =>
    apply step_timer c
    intro _
    exact c.timer n workerThrows socketThrows

/-- **Left alone.** The hook closes a session that is ready only because of `connect()`,
`disconnect()` or the cleanup, in every run in which `connect()` finds no timer pending and no
session that would be reconnected. -/
theorem sessions_left_alone (o : UsePQCSessionOptions) (events : List HookEvent)
    (hmeets : Meets (step o) (Unraced o) new events) : LeavesAlone (run o events) :=
  (hmeets.invariant (I := Careful) (fun _ _ c he => c.step he)
    ⟨timed_new, fun _ hc => absurd hc List.not_mem_nil⟩).leaves

/-- The events of a session that gets ready. The contents of the messages do not matter to the
hook. -/
def established (k : Nat) : List HookEvent :=
  [.session k (.wsOpen 0), .session k (.wsMessage 0 (List.replicate serverHelloSignedLen 0)),
    .session k (.workerMessage 0 (.initOk (List.replicate clientResponseLen 0))), .continue_ k 0,
    .then_ k]

/-- The options of the README's example. -/
def defaults : UsePQCSessionOptions := { bridgeUrl := "wss://bridge.example.com:8446" }

/-- A session that is dropped, its successor, and an explicit new start. -/
theorem sessions_left_alone_after_drop :
    let h := run defaults ([.mount none none] ++ established 0 ++ [.session 0 (.wsClose 0),
      .timer 0 none none] ++ established 1 ++ [.disconnect, .connect none none])
    h.closes = [⟨.timer, 0, .closed⟩, ⟨.disconnect, 1, .ready⟩] ∧ LeavesAlone h := by
  refine ⟨by decide +kernel, ?_⟩
  apply sessions_left_alone
  decide +kernel

/-- **Its own timer.** `connect()` replaces a session that is ready, and the timer which that has
set closes the new one. The new session has done nothing but get ready. -/
theorem connect_closed_by_timer :
    ¬ LeavesAlone (run defaults ([.mount none none] ++ established 0 ++ [.connect none none] ++
      established 1 ++ [.timer 0 none none])) := by
  intro hleaves
  have hcause := hleaves ⟨.timer, 1, .ready⟩ (by decide +kernel) rfl
  exact absurd hcause (by decide)

end Hook

end LatticeShield.Js
