import LatticeShield.Proof.JsSessionSteps
import LatticeShield.Lib.Lists
import LatticeShield.Lib.Runs

/-!
# `close()` is final, unless a `connect()` is pending

A continuation that is still to come belongs to the attempt `this.worker` points to, like
everything else that can act on the session. That holds as long as `close` is not called in the
state 'connecting'. There it leaves the continuation of `connect` behind, with the handshake's
listeners and its timer.
-/

set_option autoImplicit false

namespace LatticeShield.Js

open Lib

namespace PQCSession

variable {s s' : PQCSession}

/-! ## The invariant -/

/-- A continuation is to come exactly in the state 'connecting'. So there is at most one, and it
is that of the session's own worker. -/
structure Waiting (s : PQCSession) : Prop where
  waits : ∀ i, (s.attempts i).continued = false → s.state = .connecting ∧ s.worker = some i
  connecting : s.state = .connecting →
    ∃ i, s.worker = some i ∧ (s.attempts i).continued = false

/-- What callers have seen since `connect` was last called: one 'close' if the state is 'closed'
and none otherwise, and no error behind the return of a `close`. -/
structure Seen (s : PQCSession) : Prop where
  closes : s.since.count (.emitted .close) = if s.state = .closed then 1 else 0
  returned : Entry.closeReturned ∈ s.since → s.state = .closed
  errors : s.since.Pairwise fun x y => x = .closeReturned → ∀ r, y ≠ .emitted (.error r)
  /-- The attempts from before a `close` are not pointed to. -/
  stale : ∀ i < s.closedAttempts, s.ws ≠ some i ∧ s.worker ≠ some i
  bound : s.closedAttempts ≤ s.started

structure Inv (s : PQCSession) : Prop where
  attached : Attached s
  waiting : Waiting s
  seen : Seen s

theorem inv_new : Inv new := by
  refine ⟨attached_new, ⟨?_, ?_⟩, ⟨?_, ?_, ?_, ?_, ?_⟩⟩ <;> simp [new]

/-! ## Callbacks keep it -/

theorem Waiting.inner (wait : Waiting s) (h : Inner s s') : Waiting s' := by
  constructor
  · intro i hi
    rw [(h.attempts i).continued] at hi
    rw [h.state, h.worker]; exact wait.waits i hi
  · intro hc
    rw [h.state] at hc
    obtain ⟨i, hw, hi⟩ := wait.connecting hc
    exact ⟨i, h.worker ▸ hw, (h.attempts i).continued.trans hi⟩

theorem count_close_eq_zero {es : List Entry}
    (h : ∀ x ∈ es, ∃ e, x = .emitted e ∧ e ≠ .close) : es.count (.emitted .close) = 0 := by
  apply List.count_eq_zero.mpr
  intro hmem
  obtain ⟨e, he, hne⟩ := h _ hmem
  exact hne (Entry.emitted.inj he).symm

theorem Seen.inner (seen : Seen s) (h : Inner s s') : Seen s' := by
  obtain ⟨es, hsince, hes, hclosed⟩ := h.since
  by_cases hc : s.state = .closed
  · -- nothing is emitted
    rw [hclosed hc, List.append_nil] at hsince
    refine ⟨?_, ?_, ?_, ?_, ?_⟩
    · rw [hsince, h.state]; exact seen.closes
    · rw [hsince, h.state]; exact seen.returned
    · rw [hsince]; exact seen.errors
    · rw [h.closedAttempts, h.ws, h.worker]; exact seen.stale
    · rw [h.closedAttempts, h.started]; exact seen.bound
  · -- `close` has not returned
    have hnot : Entry.closeReturned ∉ s.since := fun hmem => hc (seen.returned hmem)
    have hnot' : Entry.closeReturned ∉ s'.since := by
      intro hmem
      rw [hsince] at hmem
      rcases List.mem_append.mp hmem with hmem | hmem
      · exact hnot hmem
      · obtain ⟨e, he, -⟩ := hes _ hmem
        exact Entry.noConfusion he
    refine ⟨?_, fun hmem => absurd hmem hnot', ?_, ?_, ?_⟩
    · rw [hsince, h.state, List.count_append, count_close_eq_zero hes, Nat.add_zero]
      exact seen.closes
    · apply List.pairwise_of_forall_mem_list
      intro x hx y _ hret
      exact absurd (hret ▸ hx) hnot'
    · rw [h.closedAttempts, h.ws, h.worker]; exact seen.stale
    · rw [h.closedAttempts, h.started]; exact seen.bound

theorem Inv.inner (inv : Inv s) (h : Inner s s') : Inv s' :=
  ⟨inv.attached.inner h, inv.waiting.inner h, inv.seen.inner h⟩

/-! ## `connect` -/

/-- No continuation is to come outside the state 'connecting'. -/
theorem Waiting.continued (wait : Waiting s) (hstate : s.state ≠ .connecting) (i : Nat) :
    (s.attempts i).continued = true := by
  by_contra h
  exact hstate (wait.waits i (Bool.eq_false_iff.mpr h)).1

theorem Inv.begin (inv : Inv s) {a : Attempt} {ws : Option Nat} (hstate : s.state ≠ .connecting)
    (hnew : ∀ i, ws = some i → i = s.started) (hcont : a.continued = false)
    (hatt : Attached (s.begin ws a)) : Inv (s.begin ws a) := by
  refine ⟨hatt, ⟨?_, ?_⟩, ⟨rfl, ?_, .nil, ?_, ?_⟩⟩
  · intro i hi
    rcases eq_or_ne i s.started with rfl | hne
    · exact ⟨rfl, rfl⟩
    · rw [begin_attempts_of_ne hne, inv.waiting.continued hstate i] at hi
      exact Bool.noConfusion hi
  · intro _
    refine ⟨s.started, rfl, ?_⟩
    rw [begin_attempts_self]; exact hcont
  · exact fun h => absurd h List.not_mem_nil
  · intro i hi
    have hbound : i < s.started := Nat.lt_of_lt_of_le hi inv.seen.bound
    refine ⟨?_, ?_⟩
    · intro h
      rw [hnew i h] at hbound
      exact absurd hbound (Nat.lt_irrefl _)
    · intro h
      rw [← Option.some.inj h] at hbound
      exact absurd hbound (Nat.lt_irrefl _)
  · exact Nat.le_succ_of_le inv.seen.bound

/-- A call of `connect` that goes no further, because of the state or of the worker. -/
theorem Inv.forget (inv : Inv s) {state : SessionState} (hstate : state ≠ .closed)
    (hidle : state = .idle → s.state = .idle) (hconn : state = .connecting ↔ s.state = .connecting)
    {since : List Entry} (hcount : since.count (.emitted .close) = 0)
    (hnot : Entry.closeReturned ∉ since) :
    Inv { s with state, intentionalClose := false, since } := by
  refine ⟨inv.attached.forget hstate hidle, ⟨?_, ?_⟩,
    ⟨?_, fun h => absurd h hnot, ?_, inv.seen.stale, inv.seen.bound⟩⟩
  · intro i hi
    obtain ⟨hs, hw⟩ := inv.waiting.waits i hi
    exact ⟨hconn.mpr hs, hw⟩
  · exact fun h => inv.waiting.connecting (hconn.mp h)
  · simp only [hcount, if_neg hstate]
  · apply List.pairwise_of_forall_mem_list
    intro x hx y _ hret
    exact absurd (hret ▸ hx) hnot

/-- The continuation of the one attempt that is waiting. It may set the state, and no other
attempt will set it behind it. -/
theorem Inv.resume (inv : Inv s) {i : Nat} (hi : (s.attempts i).continued = false)
    {state : SessionState} (hstate : state = .ready ∨ state = .error) :
    Inv ({ s with state }.modify i fun a => { a with continued := true }) := by
  obtain ⟨hconn, hworker⟩ := inv.waiting.waits i hi
  have hne : state ≠ .closed ∧ state ≠ .connecting := by
    rcases hstate with h | h <;> rw [h] <;> simp
  refine ⟨inv.attached.resume i hstate, ⟨?_, ?_⟩,
    ⟨?_, ?_, inv.seen.errors, inv.seen.stale, inv.seen.bound⟩⟩
  · intro k hk
    rw [resume_attempts, Bool.or_eq_false_iff, decide_eq_false_iff_not] at hk
    have hother := (inv.waiting.waits k hk.1).2
    rw [hworker] at hother
    exact absurd (Option.some.inj hother).symm hk.2
  · exact fun h => absurd h hne.2
  · have hcount := inv.seen.closes
    rw [if_neg (by rw [hconn]; simp)] at hcount
    exact hcount.trans (if_neg hne.1).symm
  · intro hmem
    have hclosed := inv.seen.returned hmem
    rw [hconn] at hclosed
    exact SessionState.noConfusion hclosed

/-! ## The end of a session -/

/-- The session closes in a state in which it leaves no continuation behind. The state
'connecting' is the one that would. -/
theorem Inv.ended (inv : Inv s) (hopen : s.state ≠ .closed) (hconn : s.state ≠ .connecting)
    (hsocket : ∀ i, s.ws = some i → ¬ (s.attempts i).Live) (intentionalClose : Bool) :
    Inv (s.ended intentionalClose) := by
  have hnot : Entry.closeReturned ∉ s.since := fun h => hopen (inv.seen.returned h)
  have hnot' : Entry.closeReturned ∉ s.since ++ [.emitted .close] := by simp [hnot]
  refine ⟨inv.attached.ended hsocket intentionalClose, ⟨?_, fun h => SessionState.noConfusion h⟩,
    ⟨?_, fun _ => rfl, ?_, ?_, inv.seen.bound⟩⟩
  · intro i hi
    simp only [PQCSession.ended, inv.waiting.continued hconn i] at hi
    exact Bool.noConfusion hi
  · have hcount := inv.seen.closes
    rw [if_neg hopen] at hcount
    simp only [PQCSession.ended, List.count_append, hcount]
    rfl
  · apply List.pairwise_of_forall_mem_list
    intro x hx y _ hret
    exact absurd (hret ▸ hx) hnot'
  · exact fun i _ => ⟨by simp [PQCSession.ended], by simp [PQCSession.ended]⟩

theorem Inv.returned (inv : Inv s) (hclosed : s.state = .closed) : Inv s.returned := by
  obtain ⟨hws, hworker⟩ := inv.attached.unset (Or.inl hclosed)
  refine ⟨inv.attached.returned, ⟨inv.waiting.waits, inv.waiting.connecting⟩,
    ⟨?_, fun _ => hclosed, ?_, ?_, Nat.le_refl _⟩⟩
  · have hcount := inv.seen.closes
    simp only [PQCSession.returned, List.count_append, hcount]
    rfl
  · refine (pairwise_snoc _ _).mpr ⟨inv.seen.errors, ?_⟩
    intro x _ _ r
    exact Entry.noConfusion
  · intro i _
    simp only [PQCSession.returned, hws, hworker]
    exact ⟨by simp, by simp⟩

/-- A session that is established has gone on after its handshake. -/
theorem Inv.not_connecting (inv : Inv s) (hsettled : s.settled = true) {i : Nat}
    (hperm : (s.attempts i).permanentListeners = true) : s.state ≠ .connecting := by
  intro hconn
  obtain ⟨hws, hdone⟩ := inv.attached.continued_of_permanent hsettled hperm
  obtain ⟨k, hworker, hwait⟩ := inv.waiting.connecting hconn
  obtain rfl : k = i := Option.some.inj (hworker.symm.trans (inv.attached.joined i hws))
  rw [hdone] at hwait
  exact Bool.noConfusion hwait

/-! ## Runs -/

/-- `close` is not called while `connect` is pending. The rejection that this causes arrives in a
later microtask, and by then `close` has set its state and returned. -/
def Patient (s : PQCSession) (e : SessionEvent) : Prop :=
  e = .close → s.state ≠ .connecting

instance (s : PQCSession) (e : SessionEvent) : Decidable (Patient s e) :=
  inferInstanceAs (Decidable (_ → _))

theorem Inv.step (inv : Inv s) {e : SessionEvent} (he : Patient s e) : Inv (s.step e) := by
  have heffect := inv.attached.step_effect e
  generalize s.step e = s' at heffect
  have hatt := inv.attached.effect heffect
  have hfree : s.state = .closed ∨ s.state = .idle → s.state ≠ .connecting := by
    rintro (h | h) <;> rw [h] <;> exact SessionState.noConfusion
  cases heffect with
  | inner attempt inner => exact inv.inner inner
  | refused workerThrows socketThrows busy =>
    exact inv.forget busy.2 id Iff.rfl rfl List.not_mem_nil
  | workerless e socketThrows free =>
    refine inv.forget (by simp) (fun h => SessionState.noConfusion h) ?_ rfl (by simp)
    exact iff_of_false (by simp) (hfree free)
  | socketless e free =>
    obtain ⟨hws, -⟩ := inv.attached.unset free
    exact inv.begin (hfree free) (fun i hi => absurd (hws ▸ hi) (by simp)) rfl hatt
  | begun free => exact inv.begin (hfree free) (fun i hi => (Option.some.inj hi).symm) rfl hatt
  | ready i waits resolved => exact inv.resume waits (Or.inl rfl)
  | failed i e waits rejected => exact (inv.resume waits (Or.inr rfl)).inner (error_inner s i e)
  | closedAgain closed => exact inv.returned closed
  | closed isOpen =>
    have hinner := shut_inner s
    exact ((inv.inner hinner).ended (hinner.state.trans_ne isOpen)
      (hinner.state.trans_ne (he rfl)) (shut_down s) true).returned rfl
  | dropped i isOpen settled permanent inner down =>
    refine (inv.inner inner).ended (inner.state.trans_ne isOpen)
      (inner.state.trans_ne (inv.not_connecting settled permanent)) (?_) _
    intro k hk
    rw [inner.ws, (inv.attached.permanent i permanent).1] at hk
    exact Option.some.inj hk ▸ down

/-- What an attempt from before a `close` still does leaves the session's state alone: its
`connect` is done with, and nothing points to it. -/
theorem Inv.stale_state (inv : Inv s) {e : SessionEvent} {i : Nat} (he : e.attempt? = some i)
    (hi : i < s.closedAttempts) : (s.step e).state = s.state := by
  obtain ⟨hws, hworker⟩ := inv.seen.stale i hi
  have heffect := inv.attached.step_effect e
  generalize s.step e = s' at heffect
  cases heffect with
  | inner attempt inner => exact inner.state
  | ready k waits resolved =>
    obtain rfl := Option.some.inj he
    exact absurd (inv.waiting.waits k waits).2 hworker
  | failed k e waits rejected =>
    obtain rfl := Option.some.inj he
    exact absurd (inv.waiting.waits k waits).2 hworker
  | dropped k isOpen settled permanent inner down =>
    obtain rfl := Option.some.inj he
    exact absurd (inv.attached.permanent k permanent).1 hws
  | _ => exact absurd he (by simp [SessionEvent.attempt?])

/-- What callers rely on once `close` has returned: the state stays 'closed', 'close' has come
once, and nothing comes after it. -/
structure Final (s : PQCSession) : Prop where
  closed : Entry.closeReturned ∈ s.since → s.state = .closed
  once : Entry.closeReturned ∈ s.since → s.since.count (.emitted .close) = 1
  quiet : ∀ before after, s.since = before ++ .closeReturned :: after →
    ∀ r, Entry.emitted (.error r) ∉ after
  /-- Attempts from before the last `close`, whatever comes of them. -/
  stale : ∀ e : SessionEvent, ∀ i, e.attempt? = some i → i < s.closedAttempts →
    (s.step e).state = s.state

theorem Inv.final (inv : Inv s) : Final s := by
  refine ⟨inv.seen.returned, ?_, ?_,
    fun e i he hi => inv.stale_state he hi⟩
  · intro hret
    rw [inv.seen.closes, if_pos (inv.seen.returned hret)]
  · intro before after heq r hmem
    have hpair := inv.seen.errors
    rw [heq, List.pairwise_append, List.pairwise_cons] at hpair
    exact hpair.2.1.1 _ hmem rfl r rfl

/-- **`close` is final** in every state of every run in which it is not called while a `connect`
is pending: the state stays 'closed' and nothing more is emitted, whatever the socket, the worker
and the microtasks still do. -/
theorem close_final (events : List SessionEvent) (h : Meets step Patient new events) :
    Final (run events) :=
  (h.invariant (I := Inv) (fun _ _ inv he => inv.step he) inv_new).final

/-- A session that becomes ready, is closed, and then hears of its socket's close. -/
theorem close_final_of_ready :
    Final (run [.connect none none, .wsOpen 0,
      .wsMessage 0 (List.replicate serverHelloSignedLen 0),
      .workerMessage 0 (.initOk (List.replicate clientResponseLen 0)), .continue_ 0, .close,
      .wsClose 0]) := by
  apply close_final
  decide +kernel

/-- **Pending.** Closing its socket makes the pending `connect` fail, and the failure is the last
word: the session is in the state 'error' and says so, after `close` has returned. -/
theorem pending_connect_survives_close :
    (run [.connect none none, .close, .wsClose 0, .continue_ 0]).state = .error ∧
    (run [.connect none none, .close, .wsClose 0, .continue_ 0]).since =
      [.emitted .close, .closeReturned,
        .emitted (.error "WebSocket closed during handshake")] ∧
    ¬ Final (run [.connect none none, .close, .wsClose 0, .continue_ 0]) := by
  refine ⟨rfl, rfl, ?_⟩
  intro h
  have hclosed := h.closed (by decide)
  exact absurd hclosed (by decide)

end PQCSession

end LatticeShield.Js
