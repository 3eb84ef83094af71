import LatticeShield.Proof.Traffic

/-!
# What a session that is connected again finds

Closing drains the pending operations, but it does not end a rotation: `rotating` keeps its value
through the next `connect`, whose sends then wait for a rotation that is not theirs. A session
starts clean in the runs that close only when no rotation is in progress (`reconnect_clean`).

Between a `connect` and its continuation nothing can come up anew: no frame arrives on a socket that
has its permanent listeners before `connect` has gone on, and `send` throws. The one exception is a
`close` that overtakes a handshake which has just succeeded. The continuation that it leaves behind
makes the *next* attempt ready too early.
-/

set_option autoImplicit false

namespace LatticeShield.Js

open Lib

namespace Traffic

variable {t : Traffic}

/-- As in a new session: nothing is left waiting, and no rotation holds up what is sent next. -/
structure Fresh (t : Traffic) : Prop extends Drained t where
  rotating : t.rotating = false

theorem Fresh.send (f : Fresh t) (hstate : t.session.state ≠ .ready) (data : Bytes)
    (throws : Option String) : Fresh (t.send data throws) := by
  refine ⟨f.toDrained.send hstate data throws, ?_⟩
  simp only [Traffic.send, if_pos hstate]
  exact f.rotating

theorem Fresh.continueSend (f : Fresh t) (k : Nat) (throws : Option String) :
    Fresh (t.continueSend k throws) := by
  refine ⟨f.toDrained.continueSend k throws, ?_⟩
  unfold Traffic.continueSend
  split
  · rename_i data hk
    exact absurd hk (f.resumed k data)
  · unfold sendFrame
    split
    · exact f.rotating
    · split <;> exact f.rotating
  · exact f.rotating

theorem Fresh.onWorkerMessage (f : Fresh t) (answer : Answer) :
    Fresh (t.onWorkerMessage answer) := by
  have hdelete (id : Nat) : Fresh (t.deleteDecrypt id) :=
    ⟨⟨f.encrypt, by simp [deleteDecrypt, f.decrypt], f.queue, f.resumed⟩, f.rotating⟩
  have hsettle (id : Nat) (p : SendPhase) : t.settleEncrypt id p = t := by
    rcases settleEncrypt_cases t id p with heq | ⟨k, sends, hmem, -⟩
    · exact heq
    · rw [f.encrypt] at hmem
      exact absurd hmem List.not_mem_nil
  have hrotated : Fresh { t with rotating := false }.resumeQueue := by
    refine ⟨⟨f.encrypt, f.decrypt, rfl, ?_⟩, rfl⟩
    intro k data h
    rcases resumeQueue_sends { t with rotating := false } k with heq | ⟨data', -, hmem, -⟩
    · exact f.resumed k data (heq.symm.trans h)
    · rw [f.queue] at hmem
      exact absurd hmem List.not_mem_nil
  cases answer with
  | initOk clientResponse => exact f
  | initErr error => exact f
  | encrypted id frame =>
    simp only [Traffic.onWorkerMessage, hsettle]
    exact f
  | decrypted id plaintext => exact hdelete id
  | cryptoErr id error =>
    simp only [Traffic.onWorkerMessage, hsettle]
    split
    · exact f
    · exact hdelete id
  | keyRotated => exact hrotated
  | keyRotateErr error => exact hrotated

end Traffic

namespace PQCSession

variable {s s' : PQCSession}

/-- A handshake that has succeeded, with `connect` still to go on, is the one `this` points to.
Nobody else is left waiting for a session that has been replaced. -/
def Last (s : PQCSession) : Prop :=
  ∀ i, (s.attempts i).continued = false → (s.attempts i).promise = .resolved → s.ws = some i

/-- Of a handshake that has succeeded `connect` has gone on. -/
def Arrived (s : PQCSession) : Prop :=
  ∀ i ∈ s.ws, (s.attempts i).continued = false → (s.attempts i).promise ≠ .resolved

instance (s : PQCSession) : Decidable (Arrived s) :=
  inferInstanceAs (Decidable (∀ i ∈ s.ws, _))

theorem Last.inner (last : Last s) (h : Inner s s') : Last s' := by
  intro i hcont hres
  rw [(h.attempts i).continued] at hcont
  rw [h.ws]
  rcases (h.attempts i).resolves hres with hold | hws
  · exact last i hcont hold
  · exact hws

theorem Last.begin (last : Last s) (hws : s.ws = none) (ws : Option Nat) {a : Attempt}
    (ha : a.promise ≠ .resolved) : Last (s.begin ws a) := by
  intro i hcont hres
  rcases eq_or_ne i s.started with rfl | hne
  · rw [begin_attempts_self] at hres
    exact absurd hres ha
  · rw [begin_attempts_of_ne hne] at hcont hres
    have hold := last i hcont hres
    rw [hws] at hold
    exact absurd hold (by simp)

theorem Last.resume (last : Last s) (state : SessionState) (i : Nat) :
    Last ({ s with state }.modify i fun a => { a with continued := true }) := by
  intro k hcont hres
  rw [resume_attempts] at hcont hres
  exact last k (Bool.or_eq_false_iff.mp hcont).1 hres

/-- With nothing pointed to, nothing may be on its way. The session that ends gives up its socket
and its worker together. -/
theorem Last.ended (last : Last s) (harr : Arrived s) (intentionalClose : Bool) :
    Last (s.ended intentionalClose) :=
  fun i hcont hres => absurd hres (harr i (last i hcont hres) hcont)

theorem Arrived.shut (harr : Arrived s) : Arrived s.shut := by
  have hsame (i : Nat) : (s.shut.attempts i).promise = (s.attempts i).promise := by
    unfold PQCSession.shut
    cases s.ws with
    | none => rfl
    | some k =>
      rcases eq_or_ne i k with rfl | hne
      · simp [closeSocket]
      · simp only [Option.elim_some, closeSocket, modify_attempts_of_ne _ hne]
  intro i hi hcont
  rw [(shut_inner s).ws] at hi
  rw [((shut_inner s).attempts i).continued] at hcont
  rw [hsame]
  exact harr i hi hcont

/-- A socket that has its permanent listeners, in a task: its attempt is the one the session
points to, and `connect` is done with it. -/
theorem Attached.arrived (att : Attached s) (hsettled : s.settled = true) {i : Nat}
    (hperm : (s.attempts i).permanentListeners = true) (h : Inner s s') : Arrived s' := by
  obtain ⟨hws, hdone⟩ := att.continued_of_permanent hsettled hperm
  intro k hk hcont
  rw [h.ws, hws] at hk
  rw [← Option.some.inj hk, (h.attempts i).continued, hdone] at hcont
  exact Bool.noConfusion hcont

theorem Last.effect (last : Last s) (att : Attached s) {e : SessionEvent} (h : Effect s e s')
    (hclose : e = .close → s.state ≠ .closed → Arrived s) : Last s' := by
  cases h with
  | inner attempt inner => exact last.inner inner
  | refused workerThrows socketThrows busy => exact last
  | workerless e socketThrows free => exact last
  | socketless e free =>
    exact last.begin (att.unset free).1 _ (by simp [PQCSession.socketless])
  | begun free => exact last.begin (att.unset free).1 _ (by simp [handshaking])
  | ready i waits resolved => exact last.resume .ready i
  | failed i e waits rejected => exact (last.resume .error i).inner (error_inner s i e)
  | closedAgain closed => exact last
  | closed isOpen => exact (last.inner (shut_inner s)).ended (hclose rfl isOpen).shut true
  | dropped i isOpen settled permanent inner down =>
    exact (last.inner inner).ended (att.arrived settled permanent inner) _

/-- An attempt whose `connect` has still to go on: it was there before, or `connect` has just been
called; and the session has not become ready in the meantime. -/
theorem Effect.waiting (last : Last s) {e : SessionEvent} (h : Effect s e s') {i : Nat}
    (hws : s'.ws = some i) (hcont : (s'.attempts i).continued = false) :
    ((s.ws = some i ∧ (s.attempts i).continued = false) ∨ s.state = .closed ∨ s.state = .idle) ∧
      (s'.state = .ready → s.state = .ready) := by
  cases h with
  | inner attempt inner =>
    rw [inner.ws] at hws
    rw [(inner.attempts i).continued] at hcont
    exact ⟨Or.inl ⟨hws, hcont⟩, fun h => inner.state.symm.trans h⟩
  | refused workerThrows socketThrows busy => exact ⟨Or.inl ⟨hws, hcont⟩, id⟩
  | workerless e socketThrows free => exact ⟨Or.inr free, fun h => SessionState.noConfusion h⟩
  | socketless e free => exact ⟨Or.inr free, fun h => SessionState.noConfusion h⟩
  | begun free => exact ⟨Or.inr free, fun h => SessionState.noConfusion h⟩
  | ready k waits resolved =>
    -- that attempt goes on, and it is the one pointed to
    obtain rfl : k = i := Option.some.inj ((last k waits resolved).symm.trans hws)
    simp at hcont
  | failed k e waits rejected =>
    change (({ s with state := .error }.modify k fun a => { a with continued := true }).attempts
      i).continued = false at hcont
    rw [resume_attempts] at hcont
    exact ⟨Or.inl ⟨hws, (Bool.or_eq_false_iff.mp hcont).1⟩, fun h => SessionState.noConfusion h⟩
  | closedAgain closed => exact ⟨Or.inr (Or.inl closed), id⟩
  | closed isOpen => exact absurd hws (by simp [PQCSession.ended, PQCSession.returned])
  | dropped k isOpen settled permanent inner down => exact absurd hws (by simp [PQCSession.ended])

theorem Effect.idle {e : SessionEvent} (h : Effect s e s') (hidle : s'.state = .idle) :
    s.state = .idle := by
  cases h with
  | inner attempt inner => exact inner.state.symm.trans hidle
  | refused workerThrows socketThrows busy => exact hidle
  | closedAgain closed => exact hidle
  | _ => exact SessionState.noConfusion hidle

end PQCSession

namespace Traffic

variable {t : Traffic}

/-- A session in which the next `connect` finds nothing of what was before. -/
structure Reusable (t : Traffic) : Prop where
  attached : t.session.Attached
  tracked : Tracked t
  last : t.session.Last
  waiting : ∀ i, t.session.ws = some i → (t.session.attempts i).continued = false →
    Fresh t ∧ t.session.state ≠ .ready
  unset : t.session.state = .closed ∨ t.session.state = .idle → Fresh t

theorem reusable_new : Reusable new := by
  have hfresh : Fresh new := ⟨⟨rfl, rfl, rfl, by simp [new]⟩, rfl⟩
  exact ⟨PQCSession.attached_new, tracked_new, by simp [PQCSession.Last, new, PQCSession.new],
    fun i h => absurd h (by simp [new, PQCSession.new]), fun _ => hfresh⟩

/-- The session closes only when no rotation is in progress, no call waits for one or has just
waited for one, and no handshake has succeeded without `connect` knowing. What a close leaves
behind of these is what the next session finds. -/
def Tidy (t : Traffic) (e : TrafficEvent) : Prop :=
  t.closing e = true → t.rotating = false ∧ t.sendQueue = [] ∧ NoneResumed t ∧ t.session.Arrived

instance (t : Traffic) (e : TrafficEvent) : Decidable (Tidy t e) :=
  inferInstanceAs (Decidable (_ → _))

theorem Fresh.congr (f : Fresh t) (session : PQCSession) : Fresh { t with session } :=
  ⟨⟨f.encrypt, f.decrypt, f.queue, f.resumed⟩, f.rotating⟩

theorem Reusable.same {t' : Traffic} (re : Reusable t) (htr : Tracked t')
    (hsession : t'.session = t.session)
    (hfresh : Fresh t → t.session.state ≠ .ready → Fresh t') : Reusable t' := by
  refine ⟨hsession ▸ re.attached, htr, hsession ▸ re.last, ?_, ?_⟩
  · intro i hws hcont
    rw [hsession] at hws hcont ⊢
    obtain ⟨f, hready⟩ := re.waiting i hws hcont
    exact ⟨hfresh f hready, hready⟩
  · intro hunset
    rw [hsession] at hunset
    refine hfresh (re.unset hunset) ?_
    rcases hunset with h | h <;> rw [h] <;> exact SessionState.noConfusion

theorem Reusable.session (re : Reusable t) {e : SessionEvent} {s' : PQCSession}
    (h : t.session.Effect e s') (hopen : s'.state = .closed → t.session.state = .closed) :
    Reusable { t with session := s' } := by
  refine ⟨re.attached.effect h, re.tracked.congr _ rfl rfl (Nat.le_refl _) rfl rfl,
    re.last.effect re.attached h ?_, ?_, ?_⟩
  · intro he hnot
    subst he
    exact absurd (hopen h.close) hnot
  · intro i hws hcont
    obtain ⟨hold, hready⟩ := h.waiting re.last hws hcont
    rcases hold with ⟨hws, hcont⟩ | hfree
    · obtain ⟨f, hnot⟩ := re.waiting i hws hcont
      exact ⟨f.congr s', fun hr => hnot (hready hr)⟩
    · refine ⟨(re.unset hfree).congr s', ?_⟩
      intro hr
      have hstate := hready hr
      rcases hfree with hf | hf <;> rw [hf] at hstate <;> exact SessionState.noConfusion hstate
  · intro hunset
    rcases hunset with hclosed | hidle
    · exact (re.unset (Or.inl (hopen hclosed))).congr s'
    · exact (re.unset (Or.inr (h.idle hidle))).congr s'

theorem Reusable.act (re : Reusable t) {e : TrafficEvent} (he : Tidy t e) {e' : SessionEvent}
    (closes : t.session.state ≠ .closed → (t.session.step e').state = .closed →
      t.closing e = true) : Reusable (t.act e') := by
  have heffect := re.attached.step_effect e'
  rcases act_cases t e' with ⟨h, hold⟩ | ⟨h, hopen, hnow⟩
  · rw [h]
    exact re.session heffect hold
  · obtain ⟨hrot, hqueue, hnone, harr⟩ := he (closes hopen hnow)
    have hfresh : Fresh (t.act e') := by
      rw [h]
      exact ⟨drainPending_drained hqueue (re.tracked.none_resumed hnone), hrot⟩
    refine ⟨by rw [act_session]; exact re.attached.step e', re.tracked.act e', ?_, ?_,
      fun _ => hfresh⟩
    · rw [act_session]
      exact re.last.effect re.attached heffect fun _ _ => harr
    · intro i hws hcont
      rw [act_session, ((re.attached.step e').unset (Or.inl hnow)).1] at hws
      exact absurd hws (by simp)

/-- A frame comes to a session that `connect` is done with. A KEY_ROTATE among them sets the flag,
which a later close has to find cleared. -/
theorem Reusable.frame (re : Reusable t) (hquiet : t.quiet = true) {i : Nat}
    (hperm : (t.session.attempts i).permanentListeners = true) (data : Bytes)
    {t' : Traffic} (htr : Tracked t')
    (hsession : t'.session = t.session.step (.wsMessage i data)) : Reusable t' := by
  have hsettled := ((quiet_iff t).mp hquiet).1
  have hinner : t.session.Inner t'.session := by
    rw [hsession]
    exact PQCSession.task_rule (.refl _) fun _ => re.attached.wsMessage_inner i data
  obtain ⟨hws, hdone⟩ := re.attached.continued_of_permanent hsettled hperm
  refine ⟨re.attached.inner hinner, htr, re.last.inner hinner, ?_, ?_⟩
  · intro k hk hcont
    rw [hinner.ws, hws] at hk
    rw [← Option.some.inj hk, (hinner.attempts i).continued, hdone] at hcont
    exact Bool.noConfusion hcont
  · intro hunset
    rw [hinner.state] at hunset
    rw [(re.attached.unset hunset).1] at hws
    exact absurd hws (by simp)

theorem Reusable.answer (re : Reusable t) (j : Nat) (answer : Answer) :
    Reusable { t.onWorkerMessage answer with
      session := t.session.step (.workerMessage j answer.message) } := by
  have hsession := onWorkerMessage_session t answer
  have hsame := re.same (re.tracked.onWorkerMessage answer) hsession
    fun f _ => f.onWorkerMessage answer
  have heffect := re.attached.step_effect (.workerMessage j answer.message)
  have hstate := re.attached.workerMessage_state j answer.message
  rw [← hsession] at heffect hstate ⊢
  exact hsame.session heffect fun h => hstate.symm.trans h

theorem Reusable.step (re : Reusable t) {e : TrafficEvent} (he : Tidy t e) :
    Reusable (t.step e) := by
  have heffect := step_effect re.attached e
  generalize t.step e = t' at heffect
  have htr := re.tracked.effect heffect
  cases heffect with
  | nothing => exact re
  | send data throws =>
    exact re.same htr (send_session ..) fun f hstate => f.send hstate data throws
  | continueSend k throws =>
    exact re.same htr (continueSend_session ..) fun f _ => f.continueSend k throws
  | act e' closes => exact re.act he closes
  | frame i data quiet permanent =>
    exact re.frame quiet permanent data htr (onFrameMessage_session ..)
  | answer j answer alive => exact re.answer j answer

/-- What a caller finds who has waited for a `connect`, in its `i`-th attempt. -/
structure Clean (t : Traffic) (i : Nat) : Prop where
  ready : t.session.state = .ready
  worker : t.session.worker = some i
  rotating : t.rotating = false
  encrypt : t.pendingEncrypt = []
  decrypt : t.pendingDecrypt = []
  queue : t.sendQueue = []
  /-- A `send` is posted at once, to the new worker. -/
  posts : ∀ data, (t.step (.send data none)).posted =
    t.posted ++ [(i, .encrypt t.opIdCounter data)]

theorem send_posts (hready : t.session.state = .ready) (hrot : t.rotating = false) {j : Nat}
    (hworker : t.session.worker = some j) (data : Bytes) :
    (t.step (.send data none)).posted = t.posted ++ [(j, .encrypt t.opIdCounter data)] := by
  have hsend : t.step (.send data none) =
      ({ t with sent := t.sent + 1 } : Traffic).encryptAndSend t.sent data none := by
    simp [Traffic.step, Traffic.send, hready, hrot]
  rw [hsend]
  unfold encryptAndSend
  simp only [hworker]
  rfl

theorem Reusable.clean (re : Reusable t) {i : Nat}
    (hwait : (t.session.attempts i).continued = false)
    (hres : (t.session.attempts i).promise = .resolved) :
    Clean (t.step (.continueConnect i)) i := by
  have hws := re.last i hwait hres
  obtain ⟨f, -⟩ := re.waiting i hws hwait
  have hstep : t.session.step (.continue_ i) =
      { t.session with state := .ready }.modify i fun a => { a with continued := true } := by
    simp [PQCSession.step, PQCSession.continueConnect, hwait, hres]
  have hact : t.step (.continueConnect i) =
      { t with session := t.session.step (.continue_ i) } := by
    rcases act_cases t (.continue_ i) with ⟨h, -⟩ | ⟨-, -, hclosed⟩
    · exact h
    · rw [hstep] at hclosed
      exact SessionState.noConfusion hclosed
  have hready : (t.session.step (.continue_ i)).state = .ready := by rw [hstep]; rfl
  have hworker : (t.session.step (.continue_ i)).worker = some i := by
    rw [hstep]
    exact re.attached.joined i hws
  rw [hact]
  have f' := f.congr (t.session.step (.continue_ i))
  exact ⟨hready, hworker, f'.rotating, f'.encrypt, f'.decrypt, f'.queue,
    send_posts hready f'.rotating hworker⟩

/-- **A session starts clean**, however often it has been connected before, in every run that
closes it only when no rotation is in progress. The moment is the one at which `connect` returns
to its caller, and clean is what a new session would be at that moment. -/
theorem reconnect_clean (events : List TrafficEvent) (h : Meets step Tidy new events) (i : Nat)
    (hwait : ((run events).session.attempts i).continued = false)
    (hres : ((run events).session.attempts i).promise = .resolved) :
    Clean ((run events).step (.continueConnect i)) i :=
  (h.invariant (I := Reusable) (fun _ _ re he => re.step he) reusable_new).clean hwait hres

/-- A session with a rotation behind it and a send that the close rejects. -/
theorem reconnect_clean_after_rotation :
    Clean ((run (established 0 ++ [.wsMessage 0 rotateFrame, .workerMessage 0 .keyRotated,
      .send [7] none, .wsClose 0] ++ handshake 1)).step (.continueConnect 1)) 1 :=
  reconnect_clean _ (by decide +kernel) 1 (by decide +kernel) (by decide +kernel)

/-- **Half rotated.** The session is closed before the worker has answered a KEY_ROTATE frame. In
the next one a send waits for an answer that nobody owes. -/
theorem reconnect_still_rotating :
    let t := run (established 0 ++ [.wsMessage 0 rotateFrame, .close] ++ established 1)
    t.session.state = .ready ∧ t.rotating = true ∧
      (t.step (.send [7] none)).posted = t.posted ∧ ¬ Clean t 1 := by
  intro t
  have hevaluated : t.session.state = .ready ∧ t.rotating = true ∧
      (t.step (.send [7] none)).posted = t.posted := by decide +kernel
  obtain ⟨hready, hrotating, hposted⟩ := hevaluated
  refine ⟨hready, hrotating, hposted, ?_⟩
  intro h
  have hnot := h.rotating
  rw [hrotating] at hnot
  exact Bool.noConfusion hnot

end Traffic

end LatticeShield.Js
