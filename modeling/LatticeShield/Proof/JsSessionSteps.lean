import LatticeShield.Js.Session

/-!
# What an event does to a browser session

Most callbacks only change their own attempt, and what they can do to it is said once (`Inner`):
a promise is settled, a socket comes closer to its end, listeners are exchanged. Three things
change the session itself: `connect` and its continuation, `close`, and a socket that closes under a
session that is established. `Effect` lists them with what they leave.

Which attempt a callback can come from is an invariant of all runs (`Attached`): a worker that is
alive, a socket that is open and a permanent listener belong to the attempt `this.worker` and
`this.ws` point to.
-/

set_option autoImplicit false

namespace LatticeShield.Js

open Lib

/-! ## What most callbacks do -/

/-- The socket can still deliver messages, now or later. -/
def Attempt.Live (a : Attempt) : Prop :=
  a.socket = some .connecting ∨ a.socket = some .opened

namespace PQCSession

variable {s s' s'' : PQCSession}

@[simp] theorem modify_attempts_self (s : PQCSession) (i : Nat) (f : Attempt → Attempt) :
    (s.modify i f).attempts i = f (s.attempts i) := Function.update_self ..

theorem modify_attempts_of_ne (s : PQCSession) {i k : Nat} (h : k ≠ i) (f : Attempt → Attempt) :
    (s.modify i f).attempts k = s.attempts k := Function.update_of_ne h ..

/-- What becomes of attempt `i` in a callback. A promise that is settled stays so, nothing of the
attempt comes back to life, and the permanent listeners are put up only on the socket in use, when
its handshake is over. -/
structure Evolves (s : PQCSession) (i : Nat) (a a' : Attempt) : Prop where
  workerAlive : a'.workerAlive = a.workerAlive
  continued : a'.continued = a.continued
  promise : a'.promise = .pending → a.promise = .pending
  resolves : a'.promise = .resolved → a.promise = .resolved ∨ s.ws = some i
  permanent : a'.permanentListeners = true →
    a.permanentListeners = true ∨ (s.ws = some i ∧ a'.promise ≠ .pending)
  live : a'.Live → a.Live
  isSome : a'.socket.isSome = a.socket.isSome
  handlers : ∀ k ∈ a'.workerHandlers,
    k ∈ a.workerHandlers ∨ (k = i ∧ a.socket.isSome = true)

/-- A callback that leaves the session's own variables alone. What it emits is not 'close', and it
emits nothing when the session is closed. -/
structure Inner (s s' : PQCSession) : Prop where
  state : s'.state = s.state
  ws : s'.ws = s.ws
  worker : s'.worker = s.worker
  started : s'.started = s.started
  closedAttempts : s'.closedAttempts = s.closedAttempts
  attempts : ∀ i, Evolves s i (s.attempts i) (s'.attempts i)
  since : ∃ es, s'.since = s.since ++ es ∧ (∀ x ∈ es, ∃ e, x = .emitted e ∧ e ≠ .close) ∧
    (s.state = .closed → es = [])

theorem Evolves.refl (s : PQCSession) (i : Nat) (a : Attempt) : Evolves s i a a :=
  ⟨rfl, rfl, id, Or.inl, Or.inl, id, rfl, fun _ => Or.inl⟩

theorem Inner.refl (s : PQCSession) : Inner s s :=
  ⟨rfl, rfl, rfl, rfl, rfl, fun i => .refl s i _, [], (List.append_nil _).symm,
    List.forall_mem_nil _, fun _ => rfl⟩

theorem Inner.trans (h : Inner s s') (h' : Inner s' s'') : Inner s s'' := by
  obtain ⟨es, hsince, hes, hclosed⟩ := h.since
  obtain ⟨es', hsince', hes', hclosed'⟩ := h'.since
  refine ⟨h'.state.trans h.state, h'.ws.trans h.ws, h'.worker.trans h.worker,
    h'.started.trans h.started, h'.closedAttempts.trans h.closedAttempts, ?_,
    es ++ es', ?_, ?_, ?_⟩
  -- attempt by attempt: what the second part adds was pending or live at the middle state
  · intro i
    have a := h.attempts i
    have b := h'.attempts i
    refine ⟨b.workerAlive.trans a.workerAlive, b.continued.trans a.continued,
      fun hp => a.promise (b.promise hp), ?_, ?_,
      fun hl => a.live (b.live hl), b.isSome.trans a.isSome, ?_⟩
    · intro hres
      rcases b.resolves hres with hmid | hws
      · exact a.resolves hmid
      · exact Or.inr (h.ws ▸ hws)
    · intro hperm
      rcases b.permanent hperm with hmid | ⟨hws, hp⟩
      · rcases a.permanent hmid with hold | ⟨hws, hp⟩
        · exact Or.inl hold
        · exact Or.inr ⟨hws, fun hpend => hp (b.promise hpend)⟩
      · exact Or.inr ⟨h.ws ▸ hws, hp⟩
    · intro k hk
      rcases b.handlers k hk with hmid | ⟨rfl, hsome⟩
      · exact a.handlers k hmid
      · exact Or.inr ⟨rfl, a.isSome ▸ hsome⟩
  · rw [hsince', hsince, List.append_assoc]
  · intro x hx
    rcases List.mem_append.mp hx with hx | hx
    · exact hes x hx
    · exact hes' x hx
  · intro hc
    rw [hclosed hc, hclosed' (h.state.trans hc)]
    rfl

theorem Inner.modify {i : Nat} {f : Attempt → Attempt}
    (hf : Evolves s i (s.attempts i) (f (s.attempts i))) : Inner s (s.modify i f) := by
  refine ⟨rfl, rfl, rfl, rfl, rfl, ?_, [], (List.append_nil _).symm,
    List.forall_mem_nil _, fun _ => rfl⟩
  intro k
  by_cases hk : k = i
  · subst hk
    rw [modify_attempts_self]
    exact hf
  · rw [modify_attempts_of_ne s hk]
    exact .refl s k _

theorem Inner.emit {e : Emission} (he : e ≠ .close) (hopen : s.state ≠ .closed) :
    Inner s (s.emit e) := by
  refine ⟨rfl, rfl, rfl, rfl, rfl, fun k => .refl s k _, [.emitted e], rfl, ?_,
    fun h => absurd h hopen⟩
  intro x hx
  exact ⟨e, List.mem_singleton.mp hx, he⟩

theorem clearTimeout_inner (s : PQCSession) (i : Nat) : Inner s (s.clearTimeout i) :=
  .modify ⟨rfl, rfl, id, Or.inl, Or.inl, id, rfl, fun _ => Or.inl⟩

theorem closeSocket_inner (s : PQCSession) (i : Nat) : Inner s (s.closeSocket i) := by
  refine .modify ⟨rfl, rfl, id, Or.inl, Or.inl, ?_, by simp, fun _ => Or.inl⟩
  intro hl
  unfold Attempt.Live at hl ⊢
  rcases hsock : (s.attempts i).socket with _ | (_ | _ | _ | _) <;> simp [hsock] at hl ⊢

theorem settle_inner (s : PQCSession) (i : Nat) (reason : String) :
    Inner s (s.settle i (.rejected reason)) := by
  refine .modify ⟨rfl, rfl, ?_, ?_, Or.inl, id, rfl, fun _ => Or.inl⟩
  · intro h
    by_cases hpend : (s.attempts i).promise = .pending
    · exact hpend
    · simp only [if_neg hpend] at h
      exact h
  · intro h
    by_cases hpend : (s.attempts i).promise = .pending
    · simp only [if_pos hpend] at h
      exact Promise.noConfusion h
    · simp only [if_neg hpend] at h
      exact Or.inl h

theorem setSocket_inner (s : PQCSession) (i : Nat) {r : ReadyState}
    (hsome : (s.attempts i).socket.isSome = true)
    (hlive : r = .connecting ∨ r = .opened → (s.attempts i).Live) :
    Inner s (s.setSocket i r) := by
  refine .modify ⟨rfl, rfl, id, Or.inl, Or.inl, fun hl => hlive ?_, hsome.symm, fun _ => Or.inl⟩
  rcases hl with hl | hl
  · exact Or.inl (Option.some.inj hl)
  · exact Or.inr (Option.some.inj hl)

/-! ## The callbacks -/

theorem reject_inner (s : PQCSession) (i : Nat) (reason : String) :
    Inner s (((s.clearTimeout i).closeSocket i).settle i (.rejected reason)) :=
  ((clearTimeout_inner s i).trans (closeSocket_inner _ i)).trans (settle_inner _ i _)

theorem onError_inner (s : PQCSession) (i : Nat) : Inner s (s.onError i) :=
  (clearTimeout_inner s i).trans (settle_inner _ i _)

theorem onClose_inner (s : PQCSession) (i : Nat) : Inner s (s.onClose i) :=
  (clearTimeout_inner s i).trans (settle_inner _ i _)

/-- The hello of a socket that belongs to the worker. What is registered is a handler of the same
attempt. -/
theorem onMessage_inner {i : Nat} (hsome : (s.attempts i).socket.isSome = true)
    (hworker : ∀ j, s.worker = some j → j = i) (data : Bytes) : Inner s (s.onMessage i data) := by
  unfold onMessage
  by_cases hlen : data.length = serverHelloSignedLen
  · rw [if_pos hlen]
    cases hw : s.worker with
    | none => exact .refl s
    | some j =>
      obtain rfl := hworker j hw
      refine .modify ⟨rfl, rfl, id, Or.inl, Or.inl, id, rfl, ?_⟩
      intro k hk
      rcases List.mem_append.mp hk with hk | hk
      · exact Or.inl hk
      · exact Or.inr ⟨List.mem_singleton.mp hk, hsome⟩
  · rw [if_neg hlen]
    exact reject_inner s i _

theorem handleWsError_inner (s : PQCSession) : Inner s s.handleWsError := by
  unfold handleWsError
  by_cases hopen : s.state ≠ .closed
  · rw [if_pos hopen]; exact .emit (by simp) hopen
  · rw [if_neg hopen]; exact .refl s

theorem onWorkerMessage_inner (hopen : s.state ≠ .closed) (msg : WorkerOutMessage) :
    Inner s (s.onWorkerMessage msg) := by
  cases msg with
  | initOk clientResponse => exact .refl s
  | initErr error => exact .refl s
  | encrypted => exact .refl s
  | decrypted plaintext => exact .emit (by simp) hopen
  | cryptoErr error => exact .emit (by simp) hopen
  | keyRotated => exact .emit (by simp) hopen
  | keyRotateErr error => exact .emit (by simp) hopen

theorem eraseHandler_inner (s : PQCSession) (i j : Nat) :
    Inner s (s.modify j fun a => { a with workerHandlers := a.workerHandlers.erase i }) :=
  .modify ⟨rfl, rfl, id, Or.inl, Or.inl, id, rfl,
    fun _ hk => Or.inl (List.mem_of_mem_erase hk)⟩

/-- The handshake's listeners give way to the permanent ones, on the socket of `this`. -/
theorem established_inner {i : Nat} (hws : s.ws = some i) :
    Inner s ((s.modify i fun a =>
      { a with handshakeListeners := false, permanentListeners := true }).settle i .resolved) := by
  have hmodify : (s.modify i fun a =>
      { a with handshakeListeners := false, permanentListeners := true }).settle i .resolved =
      s.modify i fun a => { a with
        handshakeListeners := false
        permanentListeners := true
        promise := if a.promise = .pending then .resolved else a.promise } := by
    simp only [settle, PQCSession.modify, Function.update_self, Function.update_idem]
  rw [hmodify]
  refine .modify ⟨rfl, rfl, fun h => ?_, fun _ => Or.inr hws, fun _ => Or.inr ⟨hws, ?_⟩, id, rfl,
    fun _ => Or.inl⟩
  all_goals by_cases hpend : (s.attempts i).promise = .pending <;> simp_all

theorem workerHandler_inner {i : Nat} (hws : s.ws = some i) (msg : WorkerOutMessage) :
    Inner s (s.workerHandler i msg) := by
  cases msg with
  | initOk clientResponse =>
    unfold workerHandler
    cases hw : s.worker with
    | none => exact .refl s
    | some j =>
      have hfirst := (eraseHandler_inner s i j).trans (clearTimeout_inner _ i)
      simp only [Option.elim_some]
      by_cases hlen : clientResponse.length ≠ clientResponseLen
      · rw [if_pos hlen]
        exact (hfirst.trans (closeSocket_inner _ i)).trans (settle_inner _ i _)
      · rw [if_neg hlen]
        split
        · exact hfirst
        · exact hfirst.trans (established_inner hws)
  | initErr error =>
    unfold workerHandler
    cases hw : s.worker with
    | none => exact .refl s
    | some j => exact (eraseHandler_inner s i j).trans (reject_inner _ i _)
  | encrypted => exact .refl s
  | decrypted plaintext => exact .refl s
  | cryptoErr error => exact .refl s
  | keyRotated => exact .refl s
  | keyRotateErr error => exact .refl s

theorem workerHandlers_inner (handlers : List Nat) (hws : ∀ i ∈ handlers, s.ws = some i)
    (msg : WorkerOutMessage) :
    Inner s (handlers.foldl (fun s i => s.workerHandler i msg) s) := by
  induction handlers generalizing s with
  | nil => exact .refl s
  | cons i handlers ih =>
    have hone := workerHandler_inner (hws i List.mem_cons_self) msg
    rw [List.foldl_cons]
    refine hone.trans (ih ?_)
    intro k hk
    rw [hone.ws]
    exact hws k (List.mem_cons_of_mem i hk)

theorem timeout_inner (s : PQCSession) (i : Nat) : Inner s (s.timeout i) := by
  unfold timeout
  split
  · exact reject_inner s i _
  · exact .refl s

/-! ## Where callbacks come from -/

/-- Everything that can still act on the session is of the attempt `this` points to, the last one.
Of an older attempt the worker is gone, the socket is closed or on its way there, and no permanent
listener is left. -/
structure Attached (s : PQCSession) : Prop where
  wsLast : ∀ i, s.ws = some i → i + 1 = s.started
  workerLast : ∀ i, s.worker = some i → i + 1 = s.started
  alive : ∀ i, (s.attempts i).workerAlive = true → s.worker = some i
  live : ∀ i, (s.attempts i).Live → s.ws = some i
  permanent : ∀ i, (s.attempts i).permanentListeners = true →
    s.ws = some i ∧ (s.attempts i).promise ≠ .pending
  handlers : ∀ j, ∀ i ∈ (s.attempts j).workerHandlers,
    i = j ∧ (s.attempts j).socket.isSome = true
  paired : ∀ j, s.worker = some j → (s.attempts j).socket.isSome = true → s.ws = some j
  joined : ∀ i, s.ws = some i → s.worker = some i
  unset : s.state = .closed ∨ s.state = .idle → s.ws = none ∧ s.worker = none

theorem attached_new : Attached new := by
  refine ⟨?_, ?_, ?_, ?_, ?_, ?_, ?_, ?_, ?_⟩ <;> simp [new, Attempt.Live]

theorem Attached.inner (att : Attached s) (h : Inner s s') : Attached s' := by
  constructor
  · rw [h.ws, h.started]; exact att.wsLast
  · rw [h.worker, h.started]; exact att.workerLast
  · intro i hi
    rw [(h.attempts i).workerAlive] at hi
    rw [h.worker]; exact att.alive i hi
  · intro i hi
    rw [h.ws]; exact att.live i ((h.attempts i).live hi)
  · intro i hi
    rw [h.ws]
    rcases (h.attempts i).permanent hi with hold | ⟨hws, hp⟩
    · obtain ⟨hws, hp⟩ := att.permanent i hold
      exact ⟨hws, fun hpend => hp ((h.attempts i).promise hpend)⟩
    · exact ⟨hws, hp⟩
  · intro j i hi
    rw [(h.attempts j).isSome]
    rcases (h.attempts j).handlers i hi with hold | hnew
    · exact att.handlers j i hold
    · exact hnew
  · intro j hj hsome
    rw [h.worker] at hj
    rw [(h.attempts j).isSome] at hsome
    rw [h.ws]; exact att.paired j hj hsome
  · rw [h.ws, h.worker]; exact att.joined
  · rw [h.state, h.ws, h.worker]; exact att.unset

/-! ## `connect` -/

/-- A session that is not connected points to nothing, so nothing is left of its attempts: no
worker, no live socket and no permanent listener. -/
theorem Attached.detached (att : Attached s) (hws : s.ws = none) (hworker : s.worker = none)
    (i : Nat) : (s.attempts i).workerAlive = false ∧ ¬ (s.attempts i).Live ∧
      (s.attempts i).permanentListeners = false := by
  refine ⟨Bool.eq_false_iff.mpr ?_, ?_, Bool.eq_false_iff.mpr ?_⟩
  · intro h
    have := att.alive i h
    rw [hworker] at this
    exact absurd this (by simp)
  · intro h
    have := att.live i h
    rw [hws] at this
    exact absurd this (by simp)
  · intro h
    have := (att.permanent i h).1
    rw [hws] at this
    exact absurd this (by simp)

/-- `connect` in the state 'idle' or 'closed', once the worker is there: a new attempt `a`. -/
def begin (s : PQCSession) (ws : Option Nat) (a : Attempt) : PQCSession :=
  ({ s with
    state := .connecting, intentionalClose := false, ws, worker := some s.started
    started := s.started + 1, since := [] } : PQCSession).modify s.started fun _ => a

theorem begin_attempts_of_ne {i : Nat} (h : i ≠ s.started) (ws : Option Nat) (a : Attempt) :
    (s.begin ws a).attempts i = s.attempts i := modify_attempts_of_ne _ h _

theorem begin_attempts_self (ws : Option Nat) (a : Attempt) :
    (s.begin ws a).attempts s.started = a := modify_attempts_self ..

theorem Attached.begin (att : Attached s) {a : Attempt} {ws : Option Nat} (hws : s.ws = none)
    (hworker : s.worker = none)
    (hnew : ∀ i, ws = some i → i = s.started) (hsome : a.socket.isSome = true → ws = some s.started)
    (hperm : a.permanentListeners = false) (hhandlers : a.workerHandlers = []) :
    Attached (s.begin ws a) := by
  have hdet := att.detached hws hworker
  -- the attempts before this one are detached already, so each clause is about the new attempt
  -- alone
  refine ⟨?_, ?_, ?_, ?_, ?_, ?_, ?_, ?_, ?_⟩
  · intro i hi
    rw [hnew i hi]; rfl
  · intro i hi
    rw [← Option.some.inj hi]; rfl
  · intro i hi
    rcases eq_or_ne i s.started with rfl | hne
    · rfl
    · rw [begin_attempts_of_ne hne, (hdet i).1] at hi
      exact Bool.noConfusion hi
  · intro i hi
    rcases eq_or_ne i s.started with rfl | hne
    · rw [begin_attempts_self] at hi
      refine hsome ?_
      rcases hi with hi | hi <;> rw [hi] <;> rfl
    · rw [begin_attempts_of_ne hne] at hi
      exact absurd hi (hdet i).2.1
  · intro i hi
    rcases eq_or_ne i s.started with rfl | hne
    · rw [begin_attempts_self, hperm] at hi
      exact Bool.noConfusion hi
    · rw [begin_attempts_of_ne hne, (hdet i).2.2] at hi
      exact Bool.noConfusion hi
  · intro j i hi
    rcases eq_or_ne j s.started with rfl | hne
    · rw [begin_attempts_self, hhandlers] at hi
      exact absurd hi (List.not_mem_nil)
    · rw [begin_attempts_of_ne hne] at hi ⊢
      exact att.handlers j i hi
  · intro j hj hs
    obtain rfl := Option.some.inj hj
    rw [begin_attempts_self] at hs
    exact hsome hs
  · intro i hi
    rw [hnew i hi]; rfl
  · rintro (h | h) <;> exact SessionState.noConfusion h

theorem Attached.forget (att : Attached s) {state : SessionState} (hstate : state ≠ .closed)
    (hidle : state = .idle → s.state = .idle) {since : List Entry} :
    Attached { s with state, intentionalClose := false, since } := by
  refine ⟨att.wsLast, att.workerLast, att.alive, att.live, att.permanent, att.handlers, att.paired,
    att.joined, ?_⟩
  rintro (h | h)
  · exact absurd h hstate
  · exact att.unset (Or.inr (hidle h))

theorem resume_attempts (s : PQCSession) (state : SessionState) (i k : Nat) :
    ({ s with state }.modify i fun a => { a with continued := true }).attempts k =
      { s.attempts k with continued := (s.attempts k).continued || decide (k = i) } := by
  rcases eq_or_ne k i with rfl | hk
  · simp
  · rw [modify_attempts_of_ne _ hk]
    simp [hk]

theorem Attached.resume (att : Attached s) (i : Nat) {state : SessionState}
    (hstate : state = .ready ∨ state = .error) :
    Attached ({ s with state }.modify i fun a => { a with continued := true }) := by
  refine ⟨att.wsLast, att.workerLast, ?_, ?_, ?_, ?_, ?_, att.joined, ?_⟩
  · intro k hk
    rw [resume_attempts] at hk
    exact att.alive k hk
  · intro k hk
    rw [resume_attempts] at hk
    exact att.live k hk
  · intro k hk
    rw [resume_attempts] at hk ⊢
    exact att.permanent k hk
  · intro j k hk
    rw [resume_attempts] at hk ⊢
    exact att.handlers j k hk
  · intro j hj hsome
    rw [resume_attempts] at hsome
    exact att.paired j hj hsome
  · intro h
    rcases hstate with rfl | rfl <;> rcases h with h | h <;> exact SessionState.noConfusion h

theorem error_inner (s : PQCSession) (i : Nat) (e : String) :
    Inner ({ s with state := .error }.modify i fun a => { a with continued := true })
      (({ s with state := .error }.modify i fun a => { a with continued := true }).emit
        (.error e)) :=
  .emit (by simp) (by simp [modify])

/-! ## The end of a session -/

theorem elim_modify_attempts (s : PQCSession) (o : Option Nat) (f : Attempt → Attempt) (i : Nat) :
    (o.elim s fun k => s.modify k f).attempts i =
      if o = some i then f (s.attempts i) else s.attempts i := by
  cases o with
  | none => simp
  | some k =>
    rcases eq_or_ne k i with rfl | hk
    · simp
    · rw [if_neg fun h => hk (Option.some.inj h)]
      exact modify_attempts_of_ne s hk.symm f

theorem elim_modify_ws (s : PQCSession) (o : Option Nat) (f : Attempt → Attempt) :
    (o.elim s fun k => s.modify k f).ws = s.ws := by
  cases o <;> rfl

theorem release_attempts (s : PQCSession) (i : Nat) : s.release.attempts i =
    { s.attempts i with
      workerAlive := (s.attempts i).workerAlive && decide (s.worker ≠ some i)
      permanentListeners := (s.attempts i).permanentListeners && decide (s.ws ≠ some i) } := by
  unfold release
  simp only [elim_modify_attempts, elim_modify_ws]
  by_cases hw : s.worker = some i <;> by_cases hs : s.ws = some i <;> simp [hw, hs]

theorem elim_modify_eq (s : PQCSession) (o : Option Nat) (f : Attempt → Attempt) :
    ∃ attempts, (o.elim s fun k => s.modify k f) = { s with attempts } := by
  cases o with
  | none => exact ⟨s.attempts, rfl⟩
  | some k => exact ⟨_, rfl⟩

theorem release_eq (s : PQCSession) :
    s.release = { s with ws := none, worker := none, attempts := s.release.attempts } := by
  unfold release
  obtain ⟨attempts, h⟩ := elim_modify_eq s s.worker fun a => { a with workerAlive := false }
  obtain ⟨attempts', h'⟩ := elim_modify_eq { s with attempts } s.ws fun a =>
    { a with permanentListeners := false }
  simp only [h, h']

/-- What `close` and `handleWsClose` come to. They differ in the flag, and in that the first
closes the socket itself. -/
def ended (s : PQCSession) (intentionalClose : Bool) : PQCSession :=
  { s with
    state := .closed
    intentionalClose
    ws := none
    worker := none
    attempts := fun i => { s.attempts i with
      workerAlive := (s.attempts i).workerAlive && decide (s.worker ≠ some i)
      permanentListeners := (s.attempts i).permanentListeners && decide (s.ws ≠ some i) }
    since := s.since ++ [.emitted .close] }

theorem ended_eq (s : PQCSession) (intentionalClose : Bool) :
    ({ s with state := .closed, intentionalClose } : PQCSession).release.emit .close =
      s.ended intentionalClose := by
  rw [release_eq, funext (release_attempts _)]
  rfl

/-- The session closes, with its socket on the way down. -/
theorem Attached.ended (att : Attached s) (hsocket : ∀ i, s.ws = some i → ¬ (s.attempts i).Live)
    (intentionalClose : Bool) : Attached (s.ended intentionalClose) := by
  refine ⟨?_, ?_, ?_, ?_, ?_, att.handlers, ?_, ?_, ?_⟩
  · exact fun i h => absurd h (by simp [PQCSession.ended])
  · exact fun i h => absurd h (by simp [PQCSession.ended])
  · intro i hi
    simp only [PQCSession.ended, Bool.and_eq_true, decide_eq_true_eq] at hi
    exact absurd (att.alive i hi.1) hi.2
  · exact fun i hi => absurd hi (hsocket i (att.live i hi))
  · intro i hi
    simp only [PQCSession.ended, Bool.and_eq_true, decide_eq_true_eq] at hi
    exact absurd (att.permanent i hi.1).1 hi.2
  · exact fun j h => absurd h (by simp [PQCSession.ended])
  · exact fun i h => absurd h (by simp [PQCSession.ended])
  · exact fun _ => ⟨rfl, rfl⟩

/-- `close` returns. -/
def returned (s : PQCSession) : PQCSession :=
  { s with since := s.since ++ [.closeReturned], closedAttempts := s.started }

theorem Attached.returned (att : Attached s) : Attached s.returned :=
  ⟨att.wsLast, att.workerLast, att.alive, att.live, att.permanent, att.handlers, att.paired,
    att.joined, att.unset⟩

/-- `ws?.close()`. -/
def shut (s : PQCSession) : PQCSession := s.ws.elim s s.closeSocket

theorem shut_inner (s : PQCSession) : Inner s s.shut := by
  unfold shut
  cases s.ws with
  | none => exact .refl s
  | some i => exact closeSocket_inner s i

theorem shut_down (s : PQCSession) (i : Nat) (hi : s.shut.ws = some i) :
    ¬ (s.shut.attempts i).Live := by
  rw [(shut_inner s).ws] at hi
  rw [shut, hi, Option.elim_some, closeSocket, modify_attempts_self]
  unfold Attempt.Live
  rcases (s.attempts i).socket with _ | (_ | _ | _ | _) <;> simp

theorem close_of_open (hopen : s.state ≠ .closed) : s.close = (s.shut.ended true).returned := by
  -- `close` sets its two variables before it turns to the socket; the order makes no difference
  have hshut : ({ s with intentionalClose := true, state := .closed } : PQCSession).ws.elim
        { s with intentionalClose := true, state := .closed }
        ({ s with intentionalClose := true, state := .closed } : PQCSession).closeSocket =
      { s.shut with state := .closed, intentionalClose := true } := by
    cases s with
    | mk state intentionalClose ws worker attempts started since closedAttempts =>
      cases ws <;> rfl
  simp only [close, if_neg hopen]
  rw [hshut, ended_eq]
  rfl

theorem close_of_closed (hclosed : s.state = .closed) : s.close = s.returned := by
  simp only [close, if_pos hclosed]
  rfl

theorem handleWsClose_cases (s : PQCSession) : s.handleWsClose = s ∨
    (s.state ≠ .closed ∧ s.handleWsClose = s.ended s.intentionalClose) := by
  unfold handleWsClose
  by_cases hskip : s.state = .closed ∨ s.intentionalClose
  · exact Or.inl (if_pos hskip)
  · refine Or.inr ⟨fun h => hskip (Or.inl h), ?_⟩
    rw [if_neg hskip, ← ended_eq]

/-! ## Callbacks -/

theorem settled_iff (s : PQCSession) : s.settled = true ↔
    ∀ i < s.started, (s.attempts i).continued = true ∨ (s.attempts i).promise = .pending := by
  simp [settled]

/-- Once a socket has its permanent listeners no task comes before `connect` has gone on. -/
theorem Attached.continued_of_permanent (att : Attached s) (hsettled : s.settled = true) {i : Nat}
    (hperm : (s.attempts i).permanentListeners = true) :
    s.ws = some i ∧ (s.attempts i).continued = true := by
  obtain ⟨hws, hpromise⟩ := att.permanent i hperm
  have hlt : i < s.started := Nat.lt_of_succ_le (Nat.le_of_eq (att.wsLast i hws))
  rcases (settled_iff s).mp hsettled i hlt with h | h
  · exact ⟨hws, h⟩
  · exact absurd h hpromise

theorem task_rule {P : PQCSession → Prop} {f : PQCSession → PQCSession} (hs : P s)
    (hf : s.settled = true → P (f s)) : P (s.task f) := by
  unfold PQCSession.task
  by_cases h : s.settled = true
  · rw [if_pos h]; exact hf h
  · rw [if_neg h]; exact hs

/-- Which listeners have run, in an event of attempt `i`'s socket: the handshake's or none of
them, and then the permanent ones if they were up. -/
theorem dispatch_cases (s : PQCSession) (i : Nat) (handshake permanent : PQCSession → PQCSession) :
    ∃ s', (s = s' ∨ handshake s = s') ∧ (s.dispatch i handshake permanent = s' ∨
      ((s.attempts i).permanentListeners = true ∧
        s.dispatch i handshake permanent = permanent s')) := by
  refine ⟨if (s.attempts i).handshakeListeners then handshake s else s, ?_, ?_⟩
  · cases (s.attempts i).handshakeListeners with
    | false => exact Or.inl rfl
    | true => exact Or.inr rfl
  · cases hperm : (s.attempts i).permanentListeners with
    | false => exact Or.inl (by simp [dispatch, hperm])
    | true => exact Or.inr ⟨rfl, by simp [dispatch, hperm]⟩

theorem wsOpen_inner (s : PQCSession) (i : Nat) : Inner s (s.wsOpen i) := by
  unfold wsOpen
  by_cases h : (s.attempts i).socket = some .connecting
  · rw [if_pos h]
    exact setSocket_inner s i (by rw [h]; rfl) fun _ => Or.inl h
  · rw [if_neg h]; exact .refl s

theorem Attached.wsMessage_inner (att : Attached s) (i : Nat) (data : Bytes) :
    Inner s (s.wsMessage i data) := by
  unfold wsMessage
  by_cases h : (s.attempts i).socket = some .opened
  · rw [if_pos h]
    have hws := att.live i (Or.inr h)
    have hworker : ∀ j, s.worker = some j → j = i := fun j hj =>
      Nat.succ.inj ((att.workerLast j hj).trans (att.wsLast i hws).symm)
    have hmsg : Inner s (s.onMessage i data) := onMessage_inner (by rw [h]; rfl) hworker data
    obtain ⟨s', rfl | rfl, heq | ⟨-, heq⟩⟩ := dispatch_cases s i (·.onMessage i data) id
    · rw [heq]; exact .refl s
    · rw [heq]; exact .refl s
    · rw [heq]; exact hmsg
    · rw [heq]; exact hmsg
  · rw [if_neg h]; exact .refl s

theorem wsError_inner (s : PQCSession) (i : Nat) : Inner s (s.wsError i) := by
  unfold wsError
  by_cases h : unclosed (s.attempts i) = true
  · rw [if_pos h]
    obtain ⟨s', rfl | rfl, heq | ⟨-, heq⟩⟩ :=
      dispatch_cases s i (·.onError i) PQCSession.handleWsError
    · rw [heq]; exact .refl s
    · rw [heq]; exact handleWsError_inner s
    · rw [heq]; exact onError_inner s i
    · rw [heq]; exact (onError_inner s i).trans (handleWsError_inner _)
  · rw [if_neg h]; exact .refl s

theorem wsClose_cases (s : PQCSession) (i : Nat) : Inner s (s.wsClose i) ∨
    ((s.attempts i).permanentListeners = true ∧ s.state ≠ .closed ∧ ∃ s', Inner s s' ∧
      ¬ (s'.attempts i).Live ∧ s.wsClose i = s'.ended s'.intentionalClose) := by
  -- before its permanent listeners have run nothing is done to the session itself
  have hend {s' : PQCSession} (h : Inner s s') (hdown : ¬ (s'.attempts i).Live)
      (hperm : (s.attempts i).permanentListeners = true) (heq : s.wsClose i = s'.handleWsClose) :
      Inner s (s.wsClose i) ∨ ((s.attempts i).permanentListeners = true ∧ s.state ≠ .closed ∧
        ∃ s', Inner s s' ∧ ¬ (s'.attempts i).Live ∧
          s.wsClose i = s'.ended s'.intentionalClose) := by
    rw [heq]
    rcases handleWsClose_cases s' with hskip | ⟨hopen, hend⟩
    · rw [hskip]; exact Or.inl h
    · exact Or.inr ⟨hperm, fun hclosed => hopen (h.state.trans hclosed), s', h, hdown, hend⟩
  by_cases h : unclosed (s.attempts i) = true
  · have hwsClose : s.wsClose i =
        (s.setSocket i .closed).dispatch i (·.onClose i) PQCSession.handleWsClose := if_pos h
    have hsome : (s.attempts i).socket.isSome = true := by
      cases hsock : (s.attempts i).socket with
      | none => simp [unclosed, hsock] at h
      | some r => rfl
    have hset : Inner s (s.setSocket i .closed) := setSocket_inner s i hsome (by simp)
    have hdown : ¬ ((s.setSocket i .closed).attempts i).Live := by
      simp [setSocket, Attempt.Live]
    have hperm : ((s.setSocket i .closed).attempts i).permanentListeners =
        (s.attempts i).permanentListeners := by simp [setSocket]
    have hclose := onClose_inner (s.setSocket i .closed) i
    obtain ⟨s', rfl | rfl, heq | ⟨hp, heq⟩⟩ :=
      dispatch_cases (s.setSocket i .closed) i (·.onClose i) PQCSession.handleWsClose
    · rw [hwsClose, heq]; exact Or.inl hset
    · exact hend hset hdown (hperm ▸ hp) (hwsClose.trans heq)
    · rw [hwsClose, heq]; exact Or.inl (hset.trans hclose)
    · exact hend (hset.trans hclose) (fun hl => hdown ((hclose.attempts i).live hl)) (hperm ▸ hp)
        (hwsClose.trans heq)
  · rw [wsClose, if_neg h]; exact Or.inl (.refl s)

theorem Attached.open_of_alive (att : Attached s) {j : Nat}
    (halive : (s.attempts j).workerAlive = true) : s.state ≠ .closed := by
  intro hclosed
  have hworker := att.alive j halive
  rw [(att.unset (Or.inl hclosed)).2] at hworker
  exact absurd hworker (by simp)

theorem Attached.workerMessage_inner (att : Attached s) (j : Nat) (msg : WorkerOutMessage) :
    Inner s (s.workerMessage j msg) := by
  unfold workerMessage
  by_cases halive : (s.attempts j).workerAlive = true
  · rw [if_pos halive]
    have hfirst := onWorkerMessage_inner (att.open_of_alive halive) msg
    refine hfirst.trans (workerHandlers_inner _ (?_) msg)
    intro i hi
    obtain ⟨rfl, hsome⟩ := att.handlers j i hi
    exact hfirst.ws.trans (att.paired i (att.alive i halive) hsome)
  · rw [if_neg halive]; exact .refl s

theorem Attached.workerError_inner (att : Attached s) (j : Nat) (message : String) :
    Inner s (s.workerError j message) := by
  unfold workerError
  by_cases halive : (s.attempts j).workerAlive = true
  · rw [if_pos halive]
    exact .emit (by simp) (att.open_of_alive halive)
  · rw [if_neg halive]; exact .refl s

/-! ## Events -/

/-- The attempt of a `connect` that has its socket. Its timer runs and its listeners are up. -/
def handshaking : Attempt :=
  { socket := some .connecting, handshakeListeners := true, timer := true, workerAlive := true,
    promise := .pending, continued := false }

/-- The attempt of a `connect` whose socket could not be made. The worker is there already. -/
def socketless (e : String) : Attempt :=
  { workerAlive := true, promise := .rejected e, continued := false }

/-- What an event leaves of a session. The cases say everything that a step can do; an invariant
of sessions is proved by them and never unfolds the step itself. -/
inductive Effect (s : PQCSession) : SessionEvent → PQCSession → Prop
  | inner {e : SessionEvent} {i : Nat} (attempt : e.attempt? = some i) {s' : PQCSession}
      (inner : Inner s s') : Effect s e s'
  /-- `connect` throws because of the state. -/
  | refused (workerThrows socketThrows : Option String)
      (busy : s.state ≠ .idle ∧ s.state ≠ .closed) :
      Effect s (.connect workerThrows socketThrows)
        { s with intentionalClose := false, since := [] }
  /-- `connect` finds no worker. -/
  | workerless (e : String) (socketThrows : Option String)
      (free : s.state = .closed ∨ s.state = .idle) :
      Effect s (.connect (some e) socketThrows)
        { s with state := .error, intentionalClose := false, since := [.emitted (.error e)] }
  | socketless (e : String) (free : s.state = .closed ∨ s.state = .idle) :
      Effect s (.connect none (some e)) (s.begin s.ws (PQCSession.socketless e))
  | begun (free : s.state = .closed ∨ s.state = .idle) :
      Effect s (.connect none none) (s.begin (some s.started) handshaking)
  | ready (i : Nat) (waits : (s.attempts i).continued = false)
      (resolved : (s.attempts i).promise = .resolved) :
      Effect s (.continue_ i)
        ({ s with state := .ready }.modify i fun a => { a with continued := true })
  | failed (i : Nat) (e : String) (waits : (s.attempts i).continued = false)
      (rejected : (s.attempts i).promise = .rejected e) :
      Effect s (.continue_ i)
        (({ s with state := .error }.modify i fun a => { a with continued := true }).emit (.error e))
  | closedAgain (closed : s.state = .closed) : Effect s .close s.returned
  | closed (isOpen : s.state ≠ .closed) : Effect s .close (s.shut.ended true).returned
  /-- The socket of an established session closes; its handshake listeners have run, if any. -/
  | dropped (i : Nat) (isOpen : s.state ≠ .closed) (settled : s.settled = true)
      (permanent : (s.attempts i).permanentListeners = true) {s' : PQCSession} (inner : Inner s s')
      (down : ¬ (s'.attempts i).Live) : Effect s (.wsClose i) (s'.ended s'.intentionalClose)

theorem connect_effect (s : PQCSession) (workerThrows socketThrows : Option String) :
    Effect s (.connect workerThrows socketThrows) (s.connect workerThrows socketThrows) := by
  by_cases hbusy : s.state ≠ .idle ∧ s.state ≠ .closed
  · simp only [connect, if_pos hbusy]
    exact .refused workerThrows socketThrows hbusy
  · have hfree : s.state = .closed ∨ s.state = .idle := by
      rcases not_and_or.mp hbusy with h | h
      · exact Or.inr (not_not.mp h)
      · exact Or.inl (not_not.mp h)
    simp only [connect, if_neg hbusy]
    cases workerThrows with
    | some e => exact .workerless e socketThrows hfree
    | none =>
      cases socketThrows with
      | some e => exact .socketless e hfree
      | none => exact .begun hfree

theorem continueConnect_effect (s : PQCSession) (i : Nat) :
    Effect s (.continue_ i) (s.continueConnect i) := by
  unfold continueConnect
  cases hi : (s.attempts i).continued with
  | true => exact .inner rfl (.refl s)
  | false =>
    simp only [Bool.false_eq_true, if_false]
    cases hp : (s.attempts i).promise with
    | pending => exact .inner rfl (.refl s)
    | resolved => exact .ready i hi hp
    | rejected e => exact .failed i e hi hp

theorem close_effect (s : PQCSession) : Effect s .close s.close := by
  by_cases hclosed : s.state = .closed
  · rw [close_of_closed hclosed]; exact .closedAgain hclosed
  · rw [close_of_open hclosed]; exact .closed hclosed

theorem wsClose_effect (s : PQCSession) (i : Nat) (hsettled : s.settled = true) :
    Effect s (.wsClose i) (s.wsClose i) := by
  rcases wsClose_cases s i with h | ⟨hperm, hopen, s', h, hdown, heq⟩
  · exact .inner rfl h
  · rw [heq]
    exact .dropped i hopen hsettled hperm h hdown

theorem Attached.step_effect (att : Attached s) (e : SessionEvent) : Effect s e (s.step e) := by
  have htask {e : SessionEvent} {i : Nat} (he : e.attempt? = some i) (f : PQCSession → PQCSession)
      (h : Inner s (f s)) : Effect s e (s.task f) :=
    .inner he (task_rule (.refl s) fun _ => h)
  cases e with
  | connect workerThrows socketThrows => exact connect_effect s workerThrows socketThrows
  | close => exact close_effect s
  | continue_ i => exact continueConnect_effect s i
  | wsOpen i => exact htask rfl (·.wsOpen i) (wsOpen_inner s i)
  | wsMessage i data => exact htask rfl (·.wsMessage i data) (att.wsMessage_inner i data)
  | wsError i => exact htask rfl (·.wsError i) (wsError_inner s i)
  | wsClose i => exact task_rule (.inner rfl (.refl s)) (wsClose_effect s i)
  | workerMessage i msg => exact htask rfl (·.workerMessage i msg) (att.workerMessage_inner i msg)
  | workerError i message =>
    exact htask rfl (·.workerError i message) (att.workerError_inner i message)
  | timeout i => exact htask rfl (·.timeout i) (timeout_inner s i)

theorem Attached.effect (att : Attached s) {e : SessionEvent} (h : Effect s e s') :
    Attached s' := by
  cases h with
  | inner attempt inner => exact att.inner inner
  | refused workerThrows socketThrows busy => exact att.forget busy.2 id
  | workerless e socketThrows free => exact att.forget (by simp) (fun h => SessionState.noConfusion h)
  | socketless e free =>
    obtain ⟨hws, hworker⟩ := att.unset free
    exact att.begin hws hworker (fun i hi => absurd (hws ▸ hi) (by simp))
      (fun h => Bool.noConfusion h) rfl rfl
  | begun free =>
    obtain ⟨hws, hworker⟩ := att.unset free
    exact att.begin hws hworker (fun i hi => (Option.some.inj hi).symm) (fun _ => rfl) rfl rfl
  | ready i waits resolved => exact att.resume i (Or.inl rfl)
  | failed i e waits rejected => exact (att.resume i (Or.inr rfl)).inner (error_inner s i e)
  | closedAgain closed => exact att.returned
  | closed isOpen => exact ((att.inner (shut_inner s)).ended (shut_down s) true).returned
  | dropped i isOpen settled permanent inner down =>
    refine (att.inner inner).ended (?_) _
    intro k hk
    rw [inner.ws, (att.permanent i permanent).1] at hk
    exact Option.some.inj hk ▸ down

theorem Attached.step (att : Attached s) (e : SessionEvent) : Attached (s.step e) :=
  att.effect (att.step_effect e)

/-- Only a `close`, or the close of a socket with its permanent listeners, sets the state to
'closed'. -/
theorem Effect.closes {e : SessionEvent} (h : Effect s e s') (hopen : s.state ≠ .closed)
    (hclosed : s'.state = .closed) :
    e = .close ∨ ∃ i, e = .wsClose i ∧ (s.attempts i).permanentListeners = true := by
  cases h with
  | inner attempt inner => exact absurd (inner.state ▸ hclosed) hopen
  | refused workerThrows socketThrows busy => exact absurd hclosed hopen
  | workerless e socketThrows free => exact SessionState.noConfusion hclosed
  | socketless e free => exact SessionState.noConfusion hclosed
  | begun free => exact SessionState.noConfusion hclosed
  | ready i waits resolved => exact SessionState.noConfusion hclosed
  | failed i e waits rejected => exact SessionState.noConfusion hclosed
  | closedAgain closed => exact Or.inl rfl
  | closed isOpen => exact Or.inl rfl
  | dropped i isOpen settled permanent inner down => exact Or.inr ⟨i, rfl, permanent⟩

theorem Effect.close (h : Effect s .close s') : s'.state = .closed := by
  cases h with
  | inner attempt inner => exact absurd attempt (by simp [SessionEvent.attempt?])
  | closedAgain closed => exact closed
  | closed isOpen => rfl

theorem Attached.wsMessage_state (att : Attached s) (i : Nat) (data : Bytes) :
    (s.step (.wsMessage i data)).state = s.state :=
  task_rule (P := fun s' => s'.state = s.state) rfl fun _ => (att.wsMessage_inner i data).state

theorem Attached.workerMessage_state (att : Attached s) (j : Nat) (msg : WorkerOutMessage) :
    (s.step (.workerMessage j msg)).state = s.state :=
  task_rule (P := fun s' => s'.state = s.state) rfl fun _ => (att.workerMessage_inner j msg).state

end PQCSession

end LatticeShield.Js
