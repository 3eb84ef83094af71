import LatticeShield.Js.Traffic
import LatticeShield.Lib.Lists
import LatticeShield.Proof.JsSessionSteps
import LatticeShield.Lib.Runs

/-!
# What becomes of the sends of a session that closes

A call of `send` that has not settled waits for something, and what it waits for is written down:
an entry of `pendingEncrypt`, a place in `sendQueue`, or a microtask (`Tracked`). Closing rejects
the entries of the map. The calls in the queue it *resumes*, and they go on to `encryptAndSend`,
which asks for no state: there is no worker any more, the new entry stays in the map, and the
promise stays pending. The same happens to a call that a finished rotation has just resumed. So
every send settles in the runs that close only when no send waits for a rotation
(`sends_settle_of_unhurried`).
-/

set_option autoImplicit false

namespace LatticeShield.Js

open Lib

namespace Traffic

variable {t : Traffic}

/-! ## What an event does -/

/-- `close`, or the close of the socket of an established session, in another state than 'closed':
the events that drain. -/
def closing (t : Traffic) : TrafficEvent → Bool
  | .close => t.session.state ≠ .closed
  | .wsClose i => t.session.state ≠ .closed && (t.session.attempts i).permanentListeners
  | _ => false

theorem act_of_state {e : SessionEvent} (h : (t.session.step e).state = t.session.state) :
    t.act e = { t with session := t.session.step e } := by
  unfold act
  rw [if_neg]
  rintro ⟨hopen, hclosed⟩
  exact hopen (h ▸ hclosed)

theorem act_cases (t : Traffic) (e : SessionEvent) :
    (t.act e = { t with session := t.session.step e } ∧
      ((t.session.step e).state = .closed → t.session.state = .closed)) ∨
    (t.act e = { t with session := t.session.step e }.drainPending ∧
      t.session.state ≠ .closed ∧ (t.session.step e).state = .closed) := by
  unfold act
  by_cases h : t.session.state ≠ .closed ∧ (t.session.step e).state = .closed
  · exact Or.inr ⟨if_pos h, h⟩
  · refine Or.inl ⟨if_neg h, ?_⟩
    intro hclosed
    by_contra hopen
    exact h ⟨hopen, hclosed⟩

@[simp] theorem act_session (t : Traffic) (e : SessionEvent) :
    (t.act e).session = t.session.step e := by
  rcases act_cases t e with ⟨h, -⟩ | ⟨h, -⟩
  · rw [h]
  · rw [h]; rfl

@[simp] theorem encryptAndSend_session (t : Traffic) (k : Nat) (data : Bytes)
    (throws : Option String) : (t.encryptAndSend k data throws).session = t.session := by
  unfold encryptAndSend
  simp only
  split <;> rfl

@[simp] theorem send_session (t : Traffic) (data : Bytes) (throws : Option String) :
    (t.send data throws).session = t.session := by
  unfold send
  simp only
  split
  · rfl
  · split
    · rfl
    · exact encryptAndSend_session ..

@[simp] theorem sendFrame_session (t : Traffic) (k : Nat) (frame : Bytes) :
    (t.sendFrame k frame).session = t.session := by
  unfold sendFrame
  split
  · rfl
  · split <;> rfl

@[simp] theorem continueSend_session (t : Traffic) (k : Nat) (throws : Option String) :
    (t.continueSend k throws).session = t.session := by
  unfold continueSend
  split
  · exact encryptAndSend_session ..
  · exact sendFrame_session ..
  · rfl

@[simp] theorem settleEncrypt_session (t : Traffic) (id : Nat) (p : SendPhase) :
    (t.settleEncrypt id p).session = t.session := by
  unfold settleEncrypt
  split <;> rfl

@[simp] theorem onWorkerMessage_session (t : Traffic) (answer : Answer) :
    (t.onWorkerMessage answer).session = t.session := by
  cases answer with
  | cryptoErr id error =>
    simp only [onWorkerMessage]
    split
    · exact settleEncrypt_session ..
    · rfl
  | encrypted id frame => exact settleEncrypt_session ..
  | _ => rfl

@[simp] theorem post_session (t : Traffic) (msg : WorkerInMessage) :
    (t.post msg).session = t.session := by
  unfold post
  cases t.session.worker <;> rfl

@[simp] theorem onFrameMessage_session (t : Traffic) (data : Bytes) :
    (t.onFrameMessage data).session = t.session := by
  unfold onFrameMessage
  split
  · rfl
  · split <;> exact post_session ..

theorem quiet_iff (t : Traffic) : t.quiet = true ↔
    t.session.settled = true ∧ ∀ k < t.sent, (t.sends k).runnable = false := by
  simp [quiet]

/-- What an event comes to. -/
inductive Effect (t : Traffic) (e : TrafficEvent) : Traffic → Prop
  | nothing : Effect t e t
  | send (data : Bytes) (throws : Option String) : Effect t e (t.send data throws)
  | continueSend (k : Nat) (throws : Option String) : Effect t e (t.continueSend k throws)
  /-- An event of the session alone. -/
  | act (e' : SessionEvent) (closes : t.session.state ≠ .closed →
      (t.session.step e').state = .closed → t.closing e = true) : Effect t e (t.act e')
  /-- A frame of a session that is established. -/
  | frame (i : Nat) (data : Bytes) (quiet : t.quiet = true)
      (permanent : (t.session.attempts i).permanentListeners = true) :
      Effect t e (({ t with session := t.session.step (.wsMessage i data) } :
        Traffic).onFrameMessage data)
  | answer (j : Nat) (answer : Answer) (alive : (t.session.attempts j).workerAlive = true) :
      Effect t e { t.onWorkerMessage answer with
        session := t.session.step (.workerMessage j answer.message) }

theorem effect_task {e : TrafficEvent} (f : Traffic → Traffic)
    (h : t.quiet = true → Effect t e (f t)) : Effect t e (t.task f) := by
  unfold task
  by_cases hquiet : t.quiet = true
  · rw [if_pos hquiet]; exact h hquiet
  · rw [if_neg hquiet]; exact .nothing

theorem effect_act (att : t.session.Attached) {e : TrafficEvent} {e' : SessionEvent}
    (hclose : e' = .close → e = .close) (hws : ∀ i, e' = .wsClose i → e = .wsClose i) :
    Effect t e (t.act e') := by
  refine .act e' ?_
  intro hopen hclosed
  rcases (att.step_effect e').closes hopen hclosed with h | ⟨i, h, hperm⟩
  · rw [hclose h]
    simpa [closing] using hopen
  · rw [hws i h]
    simp [closing, hopen, hperm]

theorem effect_wsMessage (att : t.session.Attached) (i : Nat) (data : Bytes)
    (hquiet : t.quiet = true) : Effect t (.wsMessage i data) (t.wsMessage i data) := by
  have hstate := att.wsMessage_state i data
  unfold wsMessage
  by_cases hframe : (t.session.attempts i).socket = some .opened ∧
      (t.session.attempts i).permanentListeners = true
  · simp only [if_pos hframe, act_of_state hstate]
    exact .frame i data hquiet hframe.2
  · simp only [if_neg hframe]
    exact effect_act att (by simp) (by simp)

theorem effect_workerMessage (att : t.session.Attached) (j : Nat) (answer : Answer) :
    Effect t (.workerMessage j answer) (t.workerMessage j answer) := by
  have hstate := att.workerMessage_state j answer.message
  unfold workerMessage
  by_cases halive : (t.session.attempts j).workerAlive = true
  · rw [if_pos halive, act_of_state (by rw [onWorkerMessage_session]; exact hstate),
      onWorkerMessage_session]
    exact .answer j answer halive
  · rw [if_neg halive]
    exact .nothing

theorem step_effect (att : t.session.Attached) (e : TrafficEvent) : Effect t e (t.step e) := by
  cases e with
  | send data throws => exact .send data throws
  | continueSend k throws => exact .continueSend k throws
  | connect workerThrows socketThrows => exact effect_act att (by simp) (by simp)
  | close => exact effect_act att (by simp) (by simp)
  | continueConnect i => exact effect_act att (by simp) (by simp)
  | wsOpen i => exact effect_task (·.act (.wsOpen i)) fun _ => effect_act att (by simp) (by simp)
  | wsMessage i data => exact effect_task (·.wsMessage i data) (effect_wsMessage att i data)
  | wsError i => exact effect_task (·.act (.wsError i)) fun _ => effect_act att (by simp) (by simp)
  | wsClose i => exact effect_task (·.act (.wsClose i)) fun _ => effect_act att (by simp) (by simp)
  | workerMessage j answer =>
    exact effect_task (·.workerMessage j answer) fun _ => effect_workerMessage att j answer
  | workerError j message =>
    exact effect_task (·.act (.workerError j message)) fun _ => effect_act att (by simp) (by simp)
  | timeout i => exact effect_task (·.act (.timeout i)) fun _ => effect_act att (by simp) (by simp)

/-! ## What a send waits for -/

/-- A call that waits is written down where its waiting ends: one that is being encrypted among
the pending operations, one that is held back in the queue of the rotation. Whoever empties one of
the two lists settles the calls in it. -/
structure Tracked (t : Traffic) : Prop where
  ids : ∀ op ∈ t.pendingEncrypt, op.1 < t.opIdCounter
  distinct : ∀ id k k', (id, k) ∈ t.pendingEncrypt → (id, k') ∈ t.pendingEncrypt → k = k'
  encrypting : ∀ k id, t.sends k = .encrypting id → (id, k) ∈ t.pendingEncrypt
  queued : ∀ k data, t.sends k = .queued data → k ∈ t.sendQueue
  called : ∀ k, t.sent ≤ k → t.sends k = .resolved

theorem tracked_new : Tracked new := by
  constructor <;> simp [new]

section

variable (tr : Tracked t)
include tr

theorem Tracked.congr (t' : Traffic) (hops : t'.pendingEncrypt = t.pendingEncrypt)
    (hqueue : t'.sendQueue = t.sendQueue) (hcounter : t.opIdCounter ≤ t'.opIdCounter)
    (hsends : t'.sends = t.sends) (hsent : t'.sent = t.sent) : Tracked t' := by
  constructor
  · intro op hop
    rw [hops] at hop
    exact Nat.lt_of_lt_of_le (tr.ids op hop) hcounter
  · rw [hops]; exact tr.distinct
  · rw [hops, hsends]; exact tr.encrypting
  · rw [hqueue, hsends]; exact tr.queued
  · rw [hsends, hsent]; exact tr.called

/-- A call that waits for nothing that is not written down. -/
theorem Tracked.setSend {k : Nat} {p : SendPhase} (hk : k < t.sent)
    (hencrypting : ∀ id, p = .encrypting id → (id, k) ∈ t.pendingEncrypt)
    (hqueued : ∀ data, p = .queued data → k ∈ t.sendQueue) : Tracked (t.setSend k p) := by
  refine ⟨tr.ids, tr.distinct, ?_, ?_, ?_⟩
  · intro k' id h
    rcases eq_or_ne k' k with rfl | hne
    · exact hencrypting id ((Function.update_self ..).symm.trans h)
    · exact tr.encrypting k' id ((Function.update_of_ne hne ..).symm.trans h)
  · intro k' data h
    rcases eq_or_ne k' k with rfl | hne
    · exact hqueued data ((Function.update_self ..).symm.trans h)
    · exact tr.queued k' data ((Function.update_of_ne hne ..).symm.trans h)
  · intro k' h
    have hne : k' ≠ k := Nat.ne_of_gt (Nat.lt_of_lt_of_le hk h)
    exact (Function.update_of_ne hne ..).trans (tr.called k' h)

theorem Tracked.settled {k : Nat} {p : SendPhase} (hk : k < t.sent) (hp : p.settled = true) :
    Tracked (t.setSend k p) := by
  refine tr.setSend hk (fun id h => ?_) (fun data h => ?_)
  all_goals rw [h] at hp; exact Bool.noConfusion hp

theorem Tracked.call : Tracked { t with sent := t.sent + 1 } :=
  ⟨tr.ids, tr.distinct, tr.encrypting, tr.queued,
    fun k h => tr.called k (Nat.le_of_succ_le h)⟩

/-- The operation is written down before it is posted. -/
theorem Tracked.register (k : Nat) : Tracked { t with
    opIdCounter := t.opIdCounter + 1
    pendingEncrypt := t.pendingEncrypt ++ [(t.opIdCounter, k)] } := by
  refine ⟨?_, ?_, ?_, tr.queued, tr.called⟩
  · refine forall_mem_snoc.mpr ⟨?_, Nat.lt_succ_self _⟩
    intro op hop
    exact Nat.lt_succ_of_lt (tr.ids op hop)
  · intro id k₁ k₂ h₁ h₂
    rcases List.mem_append.mp h₁ with h₁ | h₁ <;> rcases List.mem_append.mp h₂ with h₂ | h₂
    · exact tr.distinct id k₁ k₂ h₁ h₂
    · have hlt := tr.ids _ h₁
      rw [(Prod.mk.inj (List.mem_singleton.mp h₂)).1] at hlt
      exact absurd hlt (Nat.lt_irrefl _)
    · have hlt := tr.ids _ h₂
      rw [(Prod.mk.inj (List.mem_singleton.mp h₁)).1] at hlt
      exact absurd hlt (Nat.lt_irrefl _)
    · rw [(Prod.mk.inj (List.mem_singleton.mp h₁)).2, (Prod.mk.inj (List.mem_singleton.mp h₂)).2]
  · exact fun k' id h => List.mem_append_left _ (tr.encrypting k' id h)

theorem Tracked.encryptAndSend {k : Nat} (hk : k < t.sent) (data : Bytes)
    (throws : Option String) : Tracked (t.encryptAndSend k data throws) := by
  have hreg := tr.register k
  have hwait : (t.opIdCounter, k) ∈ t.pendingEncrypt ++ [(t.opIdCounter, k)] :=
    List.mem_append_right _ (List.mem_singleton_self _)
  have hwaits (posted : List (Nat × WorkerInMessage)) : Tracked ({ t with
      opIdCounter := t.opIdCounter + 1
      pendingEncrypt := t.pendingEncrypt ++ [(t.opIdCounter, k)]
      posted }.setSend k (.encrypting t.opIdCounter)) := by
    have hpost : Tracked { t with
        opIdCounter := t.opIdCounter + 1
        pendingEncrypt := t.pendingEncrypt ++ [(t.opIdCounter, k)]
        posted } := hreg.congr _ rfl rfl (Nat.le_refl _) rfl rfl
    refine hpost.setSend hk (?_) (fun data h => SendPhase.noConfusion h)
    intro id h
    rw [← SendPhase.encrypting.inj h]
    exact hwait
  unfold Traffic.encryptAndSend
  simp only
  split
  · exact hwaits t.posted
  · exact hreg.settled hk rfl
  · exact hwaits _

theorem Tracked.send (data : Bytes) (throws : Option String) :
    Tracked (t.send data throws) := by
  have hcall := tr.call
  have hk : t.sent < t.sent + 1 := Nat.lt_succ_self _
  unfold Traffic.send
  simp only
  split
  · exact hcall.settled hk rfl
  · split
    · have hqueue : Tracked { t with
          sent := t.sent + 1, sendQueue := t.sendQueue ++ [t.sent] } :=
        ⟨hcall.ids, hcall.distinct, hcall.encrypting,
          fun k data h => List.mem_append_left _ (hcall.queued k data h), hcall.called⟩
      exact hqueue.setSend hk (fun id h => SendPhase.noConfusion h)
        (fun _ _ => List.mem_append_right _ (List.mem_singleton_self _))
    · exact hcall.encryptAndSend hk data throws

theorem Tracked.sendFrame {k : Nat} (hk : k < t.sent) (frame : Bytes) :
    Tracked (t.sendFrame k frame) := by
  unfold Traffic.sendFrame
  split
  · exact tr.settled hk rfl
  · split
    · exact tr.settled hk rfl
    · exact (tr.congr { t with written := t.written ++ [_] } rfl rfl (Nat.le_refl _) rfl
        rfl).settled hk rfl

theorem Tracked.lt_of_unsettled {k : Nat} (h : t.sends k ≠ .resolved) : k < t.sent := by
  by_contra hle
  exact h (tr.called k (Nat.le_of_not_lt hle))

theorem Tracked.continueSend (k : Nat) (throws : Option String) :
    Tracked (t.continueSend k throws) := by
  unfold Traffic.continueSend
  split
  · rename_i data hk
    exact tr.encryptAndSend (tr.lt_of_unsettled (by rw [hk]; simp)) data throws
  · rename_i frame hk
    exact tr.sendFrame (tr.lt_of_unsettled (by rw [hk]; simp)) frame
  · exact tr

omit tr in
theorem resumeQueue_sends (t : Traffic) (k : Nat) :
    t.resumeQueue.sends k = t.sends k ∨
      ∃ data, t.sends k = .queued data ∧ k ∈ t.sendQueue ∧ t.resumeQueue.sends k = .resumed data := by
  cases h : t.sends k with
  | queued data =>
    by_cases hk : k ∈ t.sendQueue
    · exact Or.inr ⟨data, rfl, hk, by simp [resumeQueue, h, hk]⟩
    · exact Or.inl (by simp [resumeQueue, h, hk])
  | _ => exact Or.inl (by simp [resumeQueue, h])

theorem Tracked.resumeQueue : Tracked t.resumeQueue := by
  refine ⟨tr.ids, tr.distinct, ?_, ?_, ?_⟩
  · intro k id h
    rcases resumeQueue_sends t k with heq | ⟨data, -, -, heq⟩ <;> rw [heq] at h
    · exact tr.encrypting k id h
    · exact SendPhase.noConfusion h
  · intro k data h
    -- a call that is still queued would have been in the queue
    have hk : t.resumeQueue.sends k ≠ t.sends k := by
      intro heq
      rw [heq] at h
      simp [Traffic.resumeQueue, h, tr.queued k data h] at heq
    rcases resumeQueue_sends t k with heq | ⟨data', -, -, heq⟩
    · exact absurd heq hk
    · rw [heq] at h
      exact SendPhase.noConfusion h
  · intro k h
    rcases resumeQueue_sends t k with heq | ⟨data, hq, -⟩
    · exact heq.trans (tr.called k h)
    · rw [tr.called k h] at hq
      exact SendPhase.noConfusion hq

/-- With the operations gone every call that waited for one is rejected. What a rotation held back
is resumed, and not rejected. -/
theorem Tracked.drainPending : Tracked t.drainPending := by
  refine Tracked.resumeQueue ⟨by simp, by simp, ?_, ?_, ?_⟩
  · intro k id h
    cases hk : t.sends k with
    | encrypting id' =>
      simp [hk, tr.encrypting k id' hk] at h
    | _ => simp [hk] at h
  · intro k data h
    cases hk : t.sends k with
    | encrypting id' => simp [hk, tr.encrypting k id' hk] at h
    | queued data' => exact tr.queued k data' hk
    | _ => simp [hk] at h
  · intro k h
    simp [tr.called k h]

omit tr in
/-- The one call that waits for the operation, if there is one, hears of it. Ids are drawn once,
so no other call can wait for it. -/
theorem settleEncrypt_cases (t : Traffic) (id : Nat) (p : SendPhase) :
    t.settleEncrypt id p = t ∨
    ∃ k sends, (id, k) ∈ t.pendingEncrypt ∧
      t.settleEncrypt id p =
        { t with pendingEncrypt := t.pendingEncrypt.filter fun op => op.1 ≠ id, sends } ∧
      ∀ k', (sends k' = t.sends k' ∧ (k' = k → t.sends k ≠ .encrypting id)) ∨
        (k' = k ∧ t.sends k = .encrypting id ∧ sends k = p) := by
  unfold settleEncrypt
  cases hop : t.pendingEncrypt.lookup id with
  | none => exact Or.inl rfl
  | some k =>
    obtain ⟨before, after, hsplit, -⟩ := List.lookup_eq_some_iff.mp hop
    refine Or.inr ⟨k, _, by rw [hsplit]; simp, rfl, ?_⟩
    intro k'
    by_cases hk : t.sends k = .encrypting id
    · rw [if_pos hk]
      rcases eq_or_ne k' k with rfl | hne
      · exact Or.inr ⟨rfl, hk, Function.update_self ..⟩
      · exact Or.inl ⟨Function.update_of_ne hne .., fun h => absurd h hne⟩
    · rw [if_neg hk]
      exact Or.inl ⟨rfl, fun _ => hk⟩

theorem Tracked.settleEncrypt (id : Nat) {p : SendPhase} (hencrypting : ∀ id', p ≠ .encrypting id')
    (hqueued : ∀ data, p ≠ .queued data) : Tracked (t.settleEncrypt id p) := by
  rcases settleEncrypt_cases t id p with heq | ⟨k, sends, hmem, heq, hsends⟩
  · rw [heq]; exact tr
  · rw [heq]
    refine ⟨fun op hop => tr.ids op (List.mem_of_mem_filter hop),
      fun id' k₁ k₂ h₁ h₂ => tr.distinct id' k₁ k₂ (List.mem_of_mem_filter h₁)
        (List.mem_of_mem_filter h₂), ?_, ?_, ?_⟩
    · intro k' id' h
      rcases hsends k' with ⟨hsame, hk⟩ | ⟨rfl, -, hp⟩
      · replace h : t.sends k' = .encrypting id' := hsame.symm.trans h
        have hold := tr.encrypting k' id' h
        -- an operation of this number would be that of `k`
        have hne : id' ≠ id := by
          rintro rfl
          obtain rfl := tr.distinct id' k' k hold hmem
          exact hk rfl h
        exact List.mem_filter.mpr ⟨hold, by simpa using hne⟩
      · exact absurd (hp.symm.trans h) (hencrypting id')
    · intro k' data h
      rcases hsends k' with ⟨hsame, -⟩ | ⟨rfl, -, hp⟩
      · exact tr.queued k' data (hsame.symm.trans h)
      · exact absurd (hp.symm.trans h) (hqueued data)
    · intro k' h
      rcases hsends k' with ⟨hsame, -⟩ | ⟨rfl, hk, -⟩
      · exact hsame.trans (tr.called k' h)
      · rw [tr.called k' h] at hk
        exact SendPhase.noConfusion hk

theorem Tracked.onWorkerMessage (answer : Answer) : Tracked (t.onWorkerMessage answer) := by
  have hdelete (id : Nat) : Tracked (t.deleteDecrypt id) :=
    tr.congr _ rfl rfl (Nat.le_refl _) rfl rfl
  have hrotated : Tracked { t with rotating := false }.resumeQueue :=
    Tracked.resumeQueue (tr.congr _ rfl rfl (Nat.le_refl _) rfl rfl)
  cases answer with
  | initOk clientResponse => exact tr
  | initErr error => exact tr
  | encrypted id frame => exact tr.settleEncrypt id (by simp) (by simp)
  | decrypted id plaintext => exact hdelete id
  | cryptoErr id error =>
    simp only [Traffic.onWorkerMessage]
    split
    · exact tr.settleEncrypt id (by simp) (by simp)
    · exact hdelete id
  | keyRotated => exact hrotated
  | keyRotateErr error => exact hrotated

theorem Tracked.post (msg : WorkerInMessage) : Tracked (t.post msg) := by
  unfold Traffic.post
  cases t.session.worker with
  | none => exact tr
  | some j => exact tr.congr _ rfl rfl (Nat.le_refl _) rfl rfl

theorem Tracked.onFrameMessage (data : Bytes) : Tracked (t.onFrameMessage data) := by
  unfold Traffic.onFrameMessage
  split
  · exact tr
  · split
    · have hrot : Tracked { t with rotating := true } :=
        tr.congr _ rfl rfl (Nat.le_refl _) rfl rfl
      exact hrot.post _
    · have hop : Tracked { t with
          opIdCounter := t.opIdCounter + 1, pendingDecrypt := t.pendingDecrypt ++ [t.opIdCounter] } :=
        tr.congr _ rfl rfl (Nat.le_succ _) rfl rfl
      exact hop.post _

theorem Tracked.act (e : SessionEvent) : Tracked (t.act e) := by
  have hsame : Tracked { t with session := t.session.step e } :=
    tr.congr _ rfl rfl (Nat.le_refl _) rfl rfl
  rcases act_cases t e with ⟨h, -⟩ | ⟨h, -⟩ <;> rw [h]
  · exact hsame
  · exact hsame.drainPending

theorem Tracked.effect {e : TrafficEvent} {t' : Traffic} (h : Effect t e t') : Tracked t' := by
  cases h with
  | nothing => exact tr
  | send data throws => exact tr.send data throws
  | continueSend k throws => exact tr.continueSend k throws
  | act e' closes => exact tr.act e'
  | frame i data quiet permanent =>
    have hsame : Tracked { t with session := t.session.step (.wsMessage i data) } :=
      tr.congr _ rfl rfl (Nat.le_refl _) rfl rfl
    exact hsame.onFrameMessage data
  | answer j answer alive =>
    exact (tr.onWorkerMessage answer).congr _ rfl rfl (Nat.le_refl _) rfl rfl

end

/-! ## Every send settles -/

/-- Nothing is waited for, and no call is about to ask for more. It is what a close leaves behind,
and what keeps a closed session quiet. -/
structure Drained (t : Traffic) : Prop where
  encrypt : t.pendingEncrypt = []
  decrypt : t.pendingDecrypt = []
  queue : t.sendQueue = []
  resumed : ∀ k data, t.sends k ≠ .resumed data

theorem Drained.setSend (d : Drained t) (k : Nat) {p : SendPhase}
    (hp : ∀ data, p ≠ .resumed data) : Drained (t.setSend k p) := by
  refine ⟨d.encrypt, d.decrypt, d.queue, ?_⟩
  intro k' data h
  rcases eq_or_ne k' k with rfl | hne
  · exact hp data ((Function.update_self ..).symm.trans h)
  · exact d.resumed k' data ((Function.update_of_ne hne ..).symm.trans h)

theorem Drained.continueSend (d : Drained t) (k : Nat) (throws : Option String) :
    Drained (t.continueSend k throws) := by
  unfold Traffic.continueSend
  split
  · rename_i data hk
    exact absurd hk (d.resumed k data)
  · have hwritten (written : List (Nat × Bytes)) : Drained { t with written } :=
      ⟨d.encrypt, d.decrypt, d.queue, d.resumed⟩
    unfold sendFrame
    split
    · exact d.setSend k (by simp)
    · split
      · exact d.setSend k (by simp)
      · exact (hwritten _).setSend k (by simp)
  · exact d

theorem Drained.send (d : Drained t) (hstate : t.session.state ≠ .ready) (data : Bytes)
    (throws : Option String) : Drained (t.send data throws) := by
  have hcall : Drained { t with sent := t.sent + 1 } := ⟨d.encrypt, d.decrypt, d.queue, d.resumed⟩
  simp only [Traffic.send, if_pos hstate]
  exact hcall.setSend _ (by simp)

theorem drainPending_drained (hqueue : t.sendQueue = [])
    (hresumed : ∀ k data, t.sends k ≠ .resumed data) : Drained t.drainPending := by
  refine ⟨rfl, rfl, rfl, ?_⟩
  intro k data h
  cases hk : t.sends k with
  | resumed data' => exact hresumed k data' hk
  | encrypting id =>
    simp only [drainPending, resumeQueue, hk] at h
    by_cases hop : (id, k) ∈ t.pendingEncrypt <;> simp [hop] at h
  | _ => simp [drainPending, resumeQueue, hk, hqueue] at h

/-- No call that a rotation had held back has still to go on. -/
def NoneResumed (t : Traffic) : Prop := ∀ k < t.sent, (t.sends k).isResumed = false

instance (t : Traffic) : Decidable (NoneResumed t) :=
  inferInstanceAs (Decidable (∀ k < t.sent, _))

theorem Tracked.none_resumed (tr : Tracked t) (h : NoneResumed t) (k : Nat) (data : Bytes) :
    t.sends k ≠ .resumed data := by
  intro hk
  have hlt := tr.lt_of_unsettled (k := k) (by rw [hk]; simp)
  have hflag := h k hlt
  rw [hk] at hflag
  exact Bool.noConfusion hflag

structure Settling (t : Traffic) : Prop where
  attached : t.session.Attached
  tracked : Tracked t
  drained : t.session.state = .closed → Drained t

theorem settling_new : Settling new :=
  ⟨PQCSession.attached_new, tracked_new, fun h => SessionState.noConfusion h⟩

/-- The session closes only when no call waits for a rotation, or has just waited for one. The
close rejects the pending operations and resolves the queue; a call from the queue then goes on as
if the rotation were over. -/
def Unhurried (t : Traffic) (e : TrafficEvent) : Prop :=
  t.closing e = true → t.sendQueue = [] ∧ NoneResumed t

instance (t : Traffic) (e : TrafficEvent) : Decidable (Unhurried t e) :=
  inferInstanceAs (Decidable (_ → _))

theorem Settling.step (st : Settling t) {e : TrafficEvent} (he : Unhurried t e) :
    Settling (t.step e) := by
  have heffect := step_effect st.attached e
  generalize t.step e = t' at heffect
  have htr := st.tracked.effect heffect
  cases heffect with
  | nothing => exact st
  | send data throws =>
    refine ⟨by rw [send_session]; exact st.attached, htr, ?_⟩
    intro hclosed
    rw [send_session] at hclosed
    exact (st.drained hclosed).send (by rw [hclosed]; simp) data throws
  | continueSend k throws =>
    refine ⟨by rw [continueSend_session]; exact st.attached, htr, ?_⟩
    intro hclosed
    rw [continueSend_session] at hclosed
    exact (st.drained hclosed).continueSend k throws
  | act e' closes =>
    refine ⟨by rw [act_session]; exact st.attached.step e', htr, ?_⟩
    intro hclosed
    rw [act_session] at hclosed
    rcases act_cases t e' with ⟨h, hold⟩ | ⟨h, hopen, hnow⟩ <;> rw [h]
    · have d := st.drained (hold hclosed)
      exact ⟨d.encrypt, d.decrypt, d.queue, d.resumed⟩
    · obtain ⟨hqueue, hnone⟩ := he (closes hopen hnow)
      exact drainPending_drained hqueue (st.tracked.none_resumed hnone)
  | frame i data quiet permanent =>
    -- the session points to the socket
    have hopen : t.session.state ≠ .closed := by
      intro hclosed
      have hws := (st.attached.permanent i permanent).1
      rw [(st.attached.unset (Or.inl hclosed)).1] at hws
      exact absurd hws (by simp)
    have hstate := st.attached.wsMessage_state i data
    refine ⟨by rw [onFrameMessage_session]; exact st.attached.step (.wsMessage i data), htr, ?_⟩
    intro hclosed
    rw [onFrameMessage_session] at hclosed
    exact absurd (hstate.symm.trans hclosed) hopen
  | answer j answer alive =>
    have hstate := st.attached.workerMessage_state j answer.message
    exact ⟨st.attached.step (.workerMessage j answer.message), htr,
      fun hclosed => absurd (hstate.symm.trans hclosed) (st.attached.open_of_alive alive)⟩

/-- Once the session is closed and the microtasks have run, every send has come to its end and
nothing is left waiting. -/
def SendsSettle (t : Traffic) : Prop :=
  t.session.state = .closed → t.quiet = true →
    (∀ k < t.sent, (t.sends k).settled = true) ∧
      t.pendingEncrypt = [] ∧ t.pendingDecrypt = [] ∧ t.sendQueue = []

theorem Settling.sends_settle (st : Settling t) : SendsSettle t := by
  intro hclosed hquiet
  have d := st.drained hclosed
  refine ⟨?_, d.encrypt, d.decrypt, d.queue⟩
  intro k hk
  have hrun := ((quiet_iff t).mp hquiet).2 k hk
  cases hphase : t.sends k with
  | queued data =>
    have hmem := st.tracked.queued k data hphase
    rw [d.queue] at hmem
    exact absurd hmem List.not_mem_nil
  | encrypting id =>
    have hmem := st.tracked.encrypting k id hphase
    rw [d.encrypt] at hmem
    exact absurd hmem List.not_mem_nil
  | resumed data => rw [hphase] at hrun; exact Bool.noConfusion hrun
  | encrypted frame => rw [hphase] at hrun; exact Bool.noConfusion hrun
  | resolved => rfl
  | rejected reason => rfl

/-- **Every send settles** in every run that closes the session only when no `send` waits for a
rotation: once the session is closed and the microtasks have run, each promise is resolved or
rejected. -/
theorem sends_settle_of_unhurried (events : List TrafficEvent)
    (h : Meets step Unhurried new events) : SendsSettle (run events) :=
  (h.invariant (I := Settling) (fun _ _ st he => st.step he) settling_new).sends_settle

/-- The events of a handshake that succeeds, in the `i`-th attempt. -/
def handshake (i : Nat) : List TrafficEvent :=
  [.connect none none, .wsOpen i, .wsMessage i (List.replicate serverHelloSignedLen 0),
    .workerMessage i (.initOk (List.replicate clientResponseLen 0))]

def established (i : Nat) : List TrafficEvent := handshake i ++ [.continueConnect i]

def rotateFrame : Bytes := frameKeyRotate :: List.replicate 60 0

/-- A send that a rotation holds back and that ends well, and one that the close rejects. -/
theorem sends_settle_after_rotation :
    let t := run (established 0 ++ [.wsMessage 0 rotateFrame, .send [7] none,
      .workerMessage 0 .keyRotated, .continueSend 0 none, .workerMessage 0 (.encrypted 0 [1]),
      .continueSend 0 none, .send [8] none, .wsClose 0])
    t.session.state = .closed ∧ t.quiet = true ∧ t.sends 0 = .resolved ∧
      t.sends 1 = .rejected sessionClosedError ∧ SendsSettle t := by
  intro t
  have hevaluated : t.session.state = .closed ∧ t.quiet = true ∧ t.sends 0 = .resolved ∧
      t.sends 1 = .rejected sessionClosedError := by decide +kernel
  obtain ⟨hclosed, hquiet, hfirst, hsecond⟩ := hevaluated
  refine ⟨hclosed, hquiet, hfirst, hsecond, ?_⟩
  apply sends_settle_of_unhurried
  decide +kernel

/-- **Held back.** The rotation is not over when the session closes. The call goes on without a
worker and waits for ever: `encryptAndSend` has no state guard, and posts to a worker that is
`null`. -/
theorem queued_send_never_settles :
    ¬ SendsSettle (run (established 0 ++ [.wsMessage 0 rotateFrame, .send [7] none, .close,
      .continueSend 0 none])) := by
  intro h
  generalize hrun : run _ = t at h
  have hevaluated : t.session.state = .closed ∧ t.quiet = true ∧ t.pendingEncrypt ≠ [] := by
    rw [← hrun]
    decide +kernel
  obtain ⟨hclosed, hquiet, hpending⟩ := hevaluated
  obtain ⟨-, hops, -⟩ := h hclosed hquiet
  exact hpending hops

end Traffic

end LatticeShield.Js
