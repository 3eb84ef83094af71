import Mathlib.Data.List.Nodup
import LatticeShield.Lib.Lists
import LatticeShield.Js.Inbox
import LatticeShield.Proof.JsSessionSteps
import LatticeShield.Lib.Runs

/-!
# Which messages reach `recv`

The calls of `recv` that wait are the last ones (`Waiting`): a message resolves all of them, with
the same data, and an error rejects all of them. So a message that finds two calls waiting is
delivered twice, and one that finds none is not kept for the next call. The calls of `recv` see
every message, in order and each once, exactly in the runs in which a message finds at most one call
waiting, and in which no call is made once a message has found none (`recv_in_order_iff`). -/

set_option autoImplicit false

namespace LatticeShield.Js

open Lib

/-! ## What a session emits -/

namespace PQCSession

variable {s : PQCSession}

/-- At most one event is emitted, so a step tells the listeners of one thing at most. -/
def Emits (s s' : PQCSession) : Prop :=
  s'.since = s.since ∨ ∃ x, s'.since = s.since ++ [.emitted x]

theorem onMessage_since (s : PQCSession) (i : Nat) (data : Bytes) :
    (s.onMessage i data).since = s.since := by
  unfold onMessage
  split
  · split <;> rfl
  · rfl

theorem workerHandler_since (s : PQCSession) (i : Nat) (msg : WorkerOutMessage) :
    (s.workerHandler i msg).since = s.since := by
  cases msg with
  | initOk clientResponse =>
    unfold workerHandler
    cases s.worker with
    | none => rfl
    | some j =>
      simp only [Option.elim_some]
      split
      · rfl
      · split <;> rfl
  | initErr error =>
    unfold workerHandler
    cases s.worker <;> rfl
  | _ => rfl

theorem workerHandlers_since (s : PQCSession) (handlers : List Nat) (msg : WorkerOutMessage) :
    (handlers.foldl (fun s i => s.workerHandler i msg) s).since = s.since := by
  induction handlers generalizing s with
  | nil => rfl
  | cons i handlers ih => rw [List.foldl_cons, ih, workerHandler_since]

theorem onWorkerMessage_emits (s : PQCSession) (msg : WorkerOutMessage) :
    Emits s (s.onWorkerMessage msg) := by
  cases msg with
  | initOk clientResponse => exact Or.inl rfl
  | initErr error => exact Or.inl rfl
  | encrypted => exact Or.inl rfl
  | decrypted plaintext => exact Or.inr ⟨_, rfl⟩
  | cryptoErr error => exact Or.inr ⟨_, rfl⟩
  | keyRotated => exact Or.inr ⟨_, rfl⟩
  | keyRotateErr error => exact Or.inr ⟨_, rfl⟩

/-- Of the listeners on a socket only the permanent ones emit. The handshake's settle its promise,
which emits later or not at all. -/
theorem dispatch_emits (s : PQCSession) (i : Nat) {handshake permanent : PQCSession → PQCSession}
    (hhandshake : ∀ s, (handshake s).since = s.since) (hpermanent : ∀ s, Emits s (permanent s)) :
    Emits s (s.dispatch i handshake permanent) := by
  obtain ⟨s', hs', heq | ⟨-, heq⟩⟩ := dispatch_cases s i handshake permanent
  all_goals
    have hsame : s'.since = s.since := by
      rcases hs' with rfl | rfl
      · rfl
      · exact hhandshake s
    rw [heq]
  · exact Or.inl hsame
  · rcases hpermanent s' with h | ⟨x, h⟩
    · exact Or.inl (h.trans hsame)
    · exact Or.inr ⟨x, by rw [h, hsame]⟩

theorem handleWsError_emits (s : PQCSession) : Emits s s.handleWsError := by
  unfold handleWsError
  split
  · exact Or.inr ⟨_, rfl⟩
  · exact Or.inl rfl

theorem handleWsClose_emits (s : PQCSession) : Emits s s.handleWsClose := by
  rcases handleWsClose_cases s with h | ⟨-, h⟩ <;> rw [h]
  · exact Or.inl rfl
  · exact Or.inr ⟨_, rfl⟩

theorem wsError_emits (s : PQCSession) (i : Nat) : Emits s (s.wsError i) := by
  unfold wsError
  split
  · exact dispatch_emits s i (fun _ => rfl) handleWsError_emits
  · exact Or.inl rfl

theorem wsClose_emits (s : PQCSession) (i : Nat) : Emits s (s.wsClose i) := by
  unfold wsClose
  split
  · exact dispatch_emits (s.setSocket i .closed) i (fun _ => rfl) handleWsClose_emits
  · exact Or.inl rfl

theorem wsMessage_emits (s : PQCSession) (i : Nat) (data : Bytes) : Emits s (s.wsMessage i data) := by
  unfold wsMessage
  split
  · exact dispatch_emits s i (fun s => onMessage_since s i data) fun _ => Or.inl rfl
  · exact Or.inl rfl

theorem workerMessage_emits (s : PQCSession) (j : Nat) (msg : WorkerOutMessage) :
    Emits s (s.workerMessage j msg) := by
  unfold workerMessage Emits
  split
  · rw [workerHandlers_since]
    exact onWorkerMessage_emits s msg
  · exact Or.inl rfl

theorem step_emits (s : PQCSession) {e : SessionEvent} {i : Nat} (he : e.attempt? = some i) :
    Emits s (s.step e) := by
  have htask {f : PQCSession → PQCSession} (h : Emits s (f s)) : Emits s (s.task f) :=
    task_rule (Or.inl rfl) fun _ => h
  cases e with
  | connect workerThrows socketThrows => exact absurd he (by simp [SessionEvent.attempt?])
  | close => exact absurd he (by simp [SessionEvent.attempt?])
  | continue_ k =>
    simp only [step, continueConnect]
    split
    · exact Or.inl rfl
    · split
      · exact Or.inl rfl
      · exact Or.inl rfl
      · exact Or.inr ⟨_, rfl⟩
  | wsOpen k =>
    refine htask ?_
    split <;> exact Or.inl rfl
  | wsMessage k data => exact htask (wsMessage_emits s k data)
  | wsError k => exact htask (wsError_emits s k)
  | wsClose k => exact htask (wsClose_emits s k)
  | workerMessage k msg => exact htask (workerMessage_emits s k msg)
  | workerError k message =>
    refine htask ?_
    split
    · exact Or.inr ⟨_, rfl⟩
    · exact Or.inl rfl
  | timeout k =>
    refine htask ?_
    split <;> exact Or.inl rfl

theorem emissions_eq {e : SessionEvent} (es : List Entry) (he : ∀ w t, e ≠ .connect w t)
    (h : (s.step e).since = s.since ++ es) : s.emissions e = es.filterMap Entry.emission? := by
  have hdrop : (s.step e).since.drop s.since.length = es := by rw [h]; simp
  cases e with
  | connect workerThrows socketThrows => exact absurd rfl (he _ _)
  | _ => simp only [emissions, hdrop]

theorem emissions_of_emits {e : SessionEvent} (he : ∀ w t, e ≠ .connect w t)
    (h : Emits s (s.step e)) : s.emissions e = [] ∨ ∃ x, s.emissions e = [x] := by
  rcases h with h | ⟨x, h⟩
  · exact Or.inl (emissions_eq [] he (by simpa using h))
  · exact Or.inr ⟨x, emissions_eq _ he h⟩

theorem not_connect {e : SessionEvent} {i : Nat} (he : e.attempt? = some i)
    (workerThrows socketThrows : Option String) : e ≠ .connect workerThrows socketThrows := by
  rintro rfl
  exact absurd he (by simp [SessionEvent.attempt?])

theorem emissions_cases (s : PQCSession) (e : SessionEvent) :
    s.emissions e = [] ∨ ∃ x, s.emissions e = [x] := by
  cases hattempt : e.attempt? with
  | some i => exact emissions_of_emits (not_connect hattempt) (step_emits s hattempt)
  | none =>
    cases e with
    | connect workerThrows socketThrows =>
      have heffect := connect_effect s workerThrows socketThrows
      simp only [emissions, step]
      generalize s.connect workerThrows socketThrows = s' at heffect
      cases heffect with
      | inner attempt inner => exact absurd attempt (by simp [SessionEvent.attempt?])
      | workerless e _ free => exact Or.inr ⟨.error e, rfl⟩
      | _ => exact Or.inl rfl
    | close =>
      have heffect := close_effect s
      simp only [emissions, step]
      generalize s.close = s' at heffect
      cases heffect with
      | inner attempt inner => exact absurd attempt (by simp [SessionEvent.attempt?])
      | closedAgain closed => exact Or.inl (by simp [returned, Entry.emission?])
      | closed isOpen =>
        have hshut : s.shut.since = s.since := by
          unfold shut
          cases s.ws <;> rfl
        exact Or.inr ⟨.close, by simp [returned, ended, hshut, Entry.emission?]⟩
    | _ => exact absurd hattempt (by simp [SessionEvent.attempt?])

end PQCSession

/-! ## The listeners of `recv` -/

namespace Inbox

variable {b b' b'' : Inbox} {r : Recv} {d : Nat}

/-- What listeners of the calls in `l` do that settle their promises with `r`. Each of them takes
its own two listeners down, and a promise that is settled stays so. -/
structure Settles (r : Recv) (l : List Nat) (b b' : Inbox) : Prop where
  recvs : ∀ k, b'.recvs k = if k ∈ l ∧ b.recvs k = .pending then r else b.recvs k
  messageListeners : b'.messageListeners = l.foldl List.erase b.messageListeners
  errorListeners : ∀ k ∈ b'.errorListeners, k ∈ b.errorListeners
  calls : b'.calls = b.calls
  arrivals : b'.arrivals = b.arrivals
  unheard : b'.unheard = b.unheard

theorem Settles.cons (hr : r ≠ .pending) {k : Nat} {l : List Nat} (h : Settles r [k] b b')
    (h' : Settles r l b' b'') : Settles r (k :: l) b b'' := by
  refine ⟨?_, ?_, fun j hj => h.errorListeners j (h'.errorListeners j hj),
    h'.calls.trans h.calls, h'.arrivals.trans h.arrivals, h'.unheard.trans h.unheard⟩
  · intro j
    rw [h'.recvs, h.recvs]
    by_cases hp : b.recvs j = .pending
    · by_cases hj : j = k
      · subst hj
        simp [hp, hr]
      · simp [hj, hp]
    · simp [hp]
  · rw [h'.messageListeners, h.messageListeners]
    rfl

theorem foldl_settles (hr : r ≠ .pending) {f : Inbox → Nat → Inbox}
    (hf : ∀ b k, Settles r [k] b (f b k)) (l : List Nat) (b : Inbox) :
    Settles r l b (l.foldl f b) := by
  induction l generalizing b with
  | nil => exact ⟨fun k => by simp, rfl, fun _ => id, rfl, rfl, rfl⟩
  | cons k l ih => exact (hf b k).cons hr (ih (f b k))

theorem settle_recvs (b : Inbox) (k : Nat) (r : Recv) (j : Nat) : (b.settle k r).recvs j =
    if j ∈ [k] ∧ b.recvs j = .pending then r else b.recvs j := by
  rcases eq_or_ne j k with rfl | hne
  · simp [settle]
  · simp [settle, hne]

theorem handler_settles (data : Bytes) (arrival : Nat) (b : Inbox) (k : Nat) :
    Settles (.resolved data arrival) [k] b (b.handler k data arrival) :=
  ⟨settle_recvs (b.offMessage k) k _, rfl, fun _ => id, rfl, rfl, rfl⟩

theorem errHandler_settles (reason : String) (b : Inbox) (k : Nat) :
    Settles (.rejected reason) [k] b (b.errHandler k reason) := by
  refine ⟨?_, rfl, fun j hj => List.mem_of_mem_erase hj, rfl, rfl, rfl⟩
  intro j
  exact settle_recvs ({ b with errorListeners := b.errorListeners.erase k } : Inbox) k _ j

/-! ## Who is waiting -/

/-- The calls from the `d`-th on are waiting. Calls are settled in groups: whatever settles one
that waits settles all of them, since every call has put up its own listeners. -/
structure Waiting (b : Inbox) (d : Nat) : Prop where
  le : d ≤ b.calls
  pending : ∀ k, b.recvs k = .pending ↔ d ≤ k
  listeners : b.messageListeners = List.range' d (b.calls - d)
  errors : ∀ k, d ≤ k → k < b.calls → k ∈ b.errorListeners
  bound : ∀ k ∈ b.errorListeners, k < b.calls

theorem Waiting.recv (w : Waiting b d) : Waiting b.recv d := by
  refine ⟨Nat.le_succ_of_le w.le, w.pending, ?_, ?_, ?_⟩
  · have hlen : b.calls + 1 - d = b.calls - d + 1 := Nat.succ_sub w.le
    simp only [Inbox.recv, w.listeners, hlen, List.range'_concat]
    rw [Nat.one_mul, Nat.add_sub_cancel' w.le]
  · intro k hk hlt
    rcases Nat.lt_succ_iff_lt_or_eq.mp hlt with hlt | rfl
    · exact List.mem_append_left _ (w.errors k hk hlt)
    · exact List.mem_append_right _ (List.mem_singleton_self _)
  · refine forall_mem_snoc.mpr ⟨?_, Nat.lt_succ_self _⟩
    intro k hk
    exact Nat.lt_succ_of_lt (w.bound k hk)

theorem foldl_erase_eq_nil {l l' : List Nat} (hnodup : l'.Nodup) (h : ∀ k ∈ l', k ∈ l) :
    l.foldl List.erase l' = [] := by
  rw [← List.diff_eq_foldl]
  apply List.eq_nil_iff_forall_not_mem.mpr
  intro k hk
  obtain ⟨hmem, hnot⟩ := hnodup.mem_sdiff_iff.mp hk
  exact hnot (h k hmem)

/-- When all that wait are settled, nobody is waiting. The calls made before `d` were settled
earlier and stay as they are. -/
theorem Waiting.settles (w : Waiting b d) {l : List Nat} (h : Settles r l b b') (hr : r ≠ .pending)
    (hall : ∀ k, d ≤ k → k < b.calls → k ∈ l) (hlt : ∀ k ∈ l, k < b.calls) :
    Waiting b' b'.calls := by
  refine ⟨Nat.le_refl _, ?_, ?_, fun k hk hlt => absurd hlt (Nat.not_lt.mpr hk),
    fun k hk => h.calls ▸ w.bound k (h.errorListeners k hk)⟩
  · intro k
    rw [h.recvs, h.calls]
    by_cases hmem : k ∈ l ∧ b.recvs k = .pending
    · rw [if_pos hmem]
      exact iff_of_false hr (Nat.not_le.mpr (hlt k hmem.1))
    · rw [if_neg hmem, w.pending]
      refine ⟨?_, fun hk => Nat.le_trans w.le hk⟩
      intro hd
      by_contra hk
      exact hmem ⟨hall k hd (Nat.lt_of_not_le hk), (w.pending k).mpr hd⟩
  · rw [h.messageListeners, Nat.sub_self, List.range'_zero]
    refine foldl_erase_eq_nil ?_ ?_
    · rw [w.listeners]
      exact List.nodup_range'
    · intro k hk
      rw [w.listeners, List.mem_range'_1] at hk
      exact hall k hk.1 (by omega)

/-! ## What has been delivered -/

def value : Recv → Option (Bytes × Nat)
  | .resolved data arrival => some (data, arrival)
  | _ => none

/-- The values calls have been resolved with, in the order of the calls. -/
def delivered (b : Inbox) : List (Bytes × Nat) :=
  (List.range b.calls).filterMap fun k => value (b.recvs k)

theorem range_split {d n : Nat} (h : d ≤ n) :
    List.range n = List.range d ++ List.range' d (n - d) := by
  have happend := @List.range'_append_1 0 d (n - d)
  rw [Nat.zero_add, Nat.add_sub_cancel' h] at happend
  rw [List.range_eq_range', List.range_eq_range', happend]

/-- Settling those that wait adds what they are settled with. -/
theorem Waiting.delivered (w : Waiting b d) {l : List Nat} (h : Settles r l b b')
    (hall : ∀ k, d ≤ k → k < b.calls → k ∈ l) :
    b'.delivered = b.delivered ++ (List.replicate (b.calls - d) r).filterMap value := by
  have hbefore : ∀ k ∈ List.range d, value (b'.recvs k) = value (b.recvs k) := by
    intro k hk
    rw [h.recvs, if_neg]
    rintro ⟨-, hp⟩
    exact absurd ((w.pending k).mp hp) (Nat.not_le.mpr (List.mem_range.mp hk))
  have hold : ∀ k ∈ List.range' d (b.calls - d), value (b.recvs k) = none := by
    intro k hk
    rw [(w.pending k).mpr (List.mem_range'_1.mp hk).1]
    rfl
  have hnew : ∀ k ∈ List.range' d (b.calls - d), value (b'.recvs k) = value r := by
    intro k hk
    obtain ⟨hd, hlt⟩ := List.mem_range'_1.mp hk
    rw [h.recvs, if_pos ⟨hall k hd (by have := w.le; omega), (w.pending k).mpr hd⟩]
  have hconst : (List.range' d (b.calls - d)).filterMap (fun _ => value r) =
      (List.replicate (b.calls - d) r).filterMap value := by
    have hmap : List.replicate (b.calls - d) r =
        (List.range' d (b.calls - d)).map fun _ => r := by
      rw [List.map_const', List.length_range']
    rw [hmap, List.filterMap_map]
    rfl
  unfold Inbox.delivered
  rw [h.calls, range_split w.le, List.filterMap_append, List.filterMap_append,
    List.filterMap_congr hbefore, List.filterMap_congr hold, List.filterMap_congr hnew, hconst,
    List.filterMap_none, List.append_nil]

theorem Waiting.message (w : Waiting b d) (data : Bytes) :
    Waiting (b.emit (.message data)) (b.emit (.message data)).calls ∧
      (b.emit (.message data)).delivered = b.delivered ++
        List.replicate b.messageListeners.length (data, b.arrivals.length) ∧
      (b.emit (.message data)).arrivals = b.arrivals ++ [data] ∧
      (b.emit (.message data)).unheard = (b.unheard || b.messageListeners.isEmpty) := by
  have hsettles := foldl_settles (r := .resolved data b.arrivals.length) (by simp)
    (handler_settles data b.arrivals.length) b.messageListeners
    { b with
      arrivals := b.arrivals ++ [data]
      unheard := b.unheard || b.messageListeners.isEmpty }
  have w' : Waiting { b with
      arrivals := b.arrivals ++ [data]
      unheard := b.unheard || b.messageListeners.isEmpty } d :=
    ⟨w.le, w.pending, w.listeners, w.errors, w.bound⟩
  have hmem (k : Nat) : k ∈ b.messageListeners ↔ d ≤ k ∧ k < b.calls := by
    rw [w.listeners, List.mem_range'_1, Nat.add_sub_cancel' w.le]
  have hall : ∀ k, d ≤ k → k < b.calls → k ∈ b.messageListeners :=
    fun k hd hlt => (hmem k).mpr ⟨hd, hlt⟩
  have hlen : b.calls - d = b.messageListeners.length := by
    rw [w.listeners, List.length_range']
  refine ⟨w'.settles hsettles (by simp) hall fun k hk => ((hmem k).mp hk).2, ?_,
    hsettles.arrivals, hsettles.unheard⟩
  refine (w'.delivered hsettles hall).trans ?_
  simp only [hlen]
  rw [List.filterMap_replicate_of_isSome (by rfl)]
  rfl

theorem Waiting.error (w : Waiting b d) (reason : String) :
    Waiting (b.emit (.error reason)) (b.emit (.error reason)).calls ∧
      (b.emit (.error reason)).delivered = b.delivered ∧
      (b.emit (.error reason)).arrivals = b.arrivals ∧
      (b.emit (.error reason)).unheard = b.unheard := by
  have hsettles := foldl_settles (r := .rejected reason) (by simp) (errHandler_settles reason)
    b.errorListeners b
  refine ⟨w.settles hsettles (by simp) w.errors w.bound, ?_, hsettles.arrivals, hsettles.unheard⟩
  refine (w.delivered hsettles w.errors).trans ?_
  rw [List.filterMap_replicate_of_none rfl, List.append_nil]

theorem Waiting.delivered_recv (w : Waiting b d) : b.recv.delivered = b.delivered := by
  have hnone : value (b.recvs b.calls) = none := by
    rw [(w.pending b.calls).mpr w.le]
    rfl
  unfold Inbox.delivered
  rw [show b.recv.calls = b.calls + 1 from rfl, List.range_succ, List.filterMap_append]
  simp [Inbox.recv, hnone]

/-! ## In order -/

/-- What has been delivered are the first of the messages, in their order and each once; and while
a call is waiting there is no message that it should have had. -/
def InOrder (b : Inbox) : Prop :=
  b.delivered <+: b.arrivals.zipIdx ∧
    ((∃ k < b.calls, b.recvs k = .pending) → b.delivered = b.arrivals.zipIdx)

/-- As long as every message has found a call waiting, all are delivered. After that no call is,
and what was missed is missed for good. -/
structure Heard (b : Inbox) : Prop where
  waiting : ∃ d, Waiting b d
  all : b.unheard = false → b.delivered = b.arrivals.zipIdx
  missed : b.unheard = true → b.messageListeners = [] ∧ b.delivered <+: b.arrivals.zipIdx ∧
    b.delivered.length < b.arrivals.length

theorem heard_new : Heard new := by
  refine ⟨⟨0, by decide, ?_, rfl, ?_, ?_⟩, fun _ => rfl, ?_⟩
  · intro k
    simp [new]
  · intro k _ h
    exact absurd h (Nat.not_lt_zero k)
  · intro k h
    exact absurd h List.not_mem_nil
  · simp [new]

theorem Heard.inOrder (h : Heard b) : InOrder b := by
  obtain ⟨d, w⟩ := h.waiting
  cases hu : b.unheard with
  | false =>
    have hall := h.all hu
    exact ⟨hall ▸ List.prefix_rfl, fun _ => hall⟩
  | true =>
    obtain ⟨hnone, hpre, -⟩ := h.missed hu
    refine ⟨hpre, ?_⟩
    rintro ⟨k, hk, hp⟩
    -- a call that waits is a listener
    have hmem : k ∈ b.messageListeners := by
      rw [w.listeners, List.mem_range'_1, Nat.add_sub_cancel' w.le]
      exact ⟨(w.pending k).mp hp, hk⟩
    rw [hnone] at hmem
    exact absurd hmem List.not_mem_nil

theorem Heard.recv (h : Heard b) (hu : b.unheard = false) : Heard b.recv := by
  obtain ⟨d, w⟩ := h.waiting
  refine ⟨⟨d, w.recv⟩, fun _ => w.delivered_recv.trans (h.all hu), ?_⟩
  intro hu'
  exact absurd (hu.symm.trans hu') Bool.false_ne_true

theorem Heard.message (h : Heard b) (data : Bytes) (hone : b.messageListeners.length ≤ 1) :
    Heard (b.emit (.message data)) := by
  obtain ⟨d, w⟩ := h.waiting
  obtain ⟨w', hdel, harr, hun⟩ := w.message data
  have hnil : (b.emit (.message data)).messageListeners = [] := by
    rw [w'.listeners, Nat.sub_self, List.range'_zero]
  refine ⟨⟨_, w'⟩, ?_, ?_⟩
  · intro hu
    -- there was one call waiting
    rw [hun, Bool.or_eq_false_iff, List.isEmpty_eq_false_iff, ← List.length_pos_iff] at hu
    rw [hdel, harr, h.all hu.1, Nat.le_antisymm hone hu.2, List.zipIdx_append]
    simp
  · intro hu
    refine ⟨hnil, ?_⟩
    rw [hun, Bool.or_eq_true, List.isEmpty_iff] at hu
    -- there was none, now or because there is none any more
    have hnone : b.messageListeners = [] := hu.elim (fun hu => (h.missed hu).1) id
    have hsame : (b.emit (.message data)).delivered = b.delivered := by rw [hdel, hnone]; simp
    have hold : b.delivered <+: b.arrivals.zipIdx ∧ b.delivered.length ≤ b.arrivals.length := by
      cases hbefore : b.unheard with
      | false =>
        rw [h.all hbefore]
        exact ⟨List.prefix_rfl, Nat.le_of_eq List.length_zipIdx⟩
      | true => exact ⟨(h.missed hbefore).2.1, Nat.le_of_lt (h.missed hbefore).2.2⟩
    rw [hsame, harr, List.zipIdx_append, List.length_append]
    exact ⟨hold.1.trans (List.prefix_append _ _), Nat.lt_succ_of_le hold.2⟩

theorem Heard.error (h : Heard b) (reason : String) : Heard (b.emit (.error reason)) := by
  obtain ⟨d, w⟩ := h.waiting
  obtain ⟨w', hdel, harr, hun⟩ := w.error reason
  refine ⟨⟨_, w'⟩, ?_, ?_⟩
  · intro hu
    rw [hdel, harr]
    exact h.all (hun.symm.trans hu)
  · intro hu
    rw [hdel, harr, w'.listeners, Nat.sub_self, List.range'_zero]
    exact ⟨rfl, (h.missed (hun.symm.trans hu)).2⟩

theorem Heard.emit (h : Heard b) (x : Emission)
    (hone : ∀ data, x = .message data → b.messageListeners.length ≤ 1) : Heard (b.emit x) := by
  cases x with
  | message data => exact h.message data (hone data rfl)
  | error reason => exact h.error reason
  | close => exact h
  | keyrotate => exact h

/-- A call made after a message was lost waits for it in vain. So calls are in order only as long
as none was lost. -/
theorem Heard.of_recv (h : Heard b) (hin : InOrder b.recv) : b.unheard = false := by
  by_contra hne
  have hu : b.unheard = true := by simpa using hne
  obtain ⟨d, w⟩ := h.waiting
  have hall := hin.2 ⟨b.calls, Nat.lt_succ_self _, (w.pending b.calls).mpr w.le⟩
  have hlen := congrArg List.length hall
  rw [w.delivered_recv, List.length_zipIdx] at hlen
  exact absurd hlen (Nat.ne_of_lt (h.missed hu).2.2)

/-- A message that several calls wait for is delivered more than once. In order means that one
call at most was waiting. -/
theorem Heard.of_message (h : Heard b) {data : Bytes} (hin : InOrder (b.emit (.message data))) :
    b.messageListeners.length ≤ 1 := by
  obtain ⟨d, w⟩ := h.waiting
  obtain ⟨-, hdel, harr, -⟩ := w.message data
  cases hu : b.unheard with
  | true =>
    rw [(h.missed hu).1]
    exact Nat.zero_le 1
  | false =>
    have hle := hin.1.length_le
    rw [hdel, harr, h.all hu] at hle
    simp only [List.length_append, List.length_replicate, List.length_zipIdx,
      List.length_singleton] at hle
    omega

end Inbox

namespace Reader

variable {r : Reader}

/-- A message finds at most one call of `recv` waiting, and `recv` is called only if every message
so far has found one. The emitter keeps no message that nobody listens for. -/
def Awaited (r : Reader) : ReaderEvent → Prop
  | .recv => r.inbox.unheard = false
  | .session e => ∀ data, .message data ∈ r.session.emissions e →
      r.inbox.messageListeners.length ≤ 1

theorem step_heard (h : r.inbox.Heard) {e : ReaderEvent} (he : Awaited r e) :
    (r.step e).inbox.Heard := by
  cases e with
  | recv => exact h.recv he
  | session e =>
    rcases r.session.emissions_cases e with hnone | ⟨x, hone⟩
    · simp only [step, hnone, List.foldl_nil]
      exact h
    · simp only [step, hone, List.foldl_cons, List.foldl_nil]
      refine h.emit x fun data hx => he data ?_
      rw [hone, hx]
      exact List.mem_singleton_self _

theorem awaited_of_step (h : r.inbox.Heard) {e : ReaderEvent} (hin : (r.step e).inbox.InOrder) :
    Awaited r e := by
  cases e with
  | recv => exact h.of_recv hin
  | session e =>
    intro data hmem
    rcases r.session.emissions_cases e with hnone | ⟨x, hone⟩
    · rw [hnone] at hmem
      exact absurd hmem List.not_mem_nil
    · rw [hone, List.mem_singleton] at hmem
      simp only [step, hone, ← hmem, List.foldl_cons, List.foldl_nil] at hin
      exact h.of_message hin

theorem heard_of_awaited {events : List ReaderEvent} (h : Meets step Awaited new events) :
    (run events).inbox.Heard :=
  h.invariant (I := fun r => r.inbox.Heard) (fun _ _ hr he => step_heard hr he) Inbox.heard_new

/-- **In order.** The calls of `recv` see every message in all states of a run, exactly when every
message finds one call waiting, or, once no more calls are made, none. One direction is the
invariant `Heard`; for the other, the first step that is not awaited already breaks the order. -/
theorem recv_in_order_iff (events : List ReaderEvent) :
    (∀ before, before <+: events → (run before).inbox.InOrder) ↔
      Meets step Awaited new events := by
  constructor
  · intro h
    induction events using List.reverseRecOn with
    | nil => trivial
    | append_singleton events e ih =>
      have hmeets := ih fun before hbefore => h before (hbefore.trans (List.prefix_append _ _))
      refine meets_snoc.mpr ⟨hmeets, awaited_of_step (heard_of_awaited hmeets) ?_⟩
      have hin := h (events ++ [e]) List.prefix_rfl
      rw [run, List.foldl_append] at hin
      exact hin
  · rintro h before ⟨after, rfl⟩
    exact (heard_of_awaited (meets_append.mp h).1).inOrder

/-- The events of a handshake that succeeds. -/
def established : List ReaderEvent :=
  ([.connect none none, .wsOpen 0, .wsMessage 0 (List.replicate serverHelloSignedLen 0),
    .workerMessage 0 (.initOk (List.replicate clientResponseLen 0)), .continue_ 0] :
    List SessionEvent).map .session

/-- **Between two calls.** Of two messages that come before the caller has called again the second
is lost. -/
theorem message_between_recvs_lost :
    let r := run (established ++ [.recv, .session (.workerMessage 0 (.decrypted [1])),
      .session (.workerMessage 0 (.decrypted [2])), .recv])
    r.session.state = .ready ∧ r.inbox.arrivals = [[1], [2]] ∧
      r.inbox.recvs 0 = .resolved [1] 0 ∧ r.inbox.recvs 1 = .pending ∧ ¬ r.inbox.InOrder := by
  intro r
  have hevaluated : r.session.state = .ready ∧ r.inbox.arrivals = [[1], [2]] ∧
      r.inbox.recvs 0 = .resolved [1] 0 ∧ r.inbox.recvs 1 = .pending ∧ 1 < r.inbox.calls ∧
      r.inbox.delivered.length = 1 := by decide +kernel
  obtain ⟨hready, harrivals, hfirst, hsecond, hcalls, hdelivered⟩ := hevaluated
  refine ⟨hready, harrivals, hfirst, hsecond, ?_⟩
  intro h
  have hall := congrArg List.length (h.2 ⟨1, hcalls, hsecond⟩)
  rw [hdelivered, harrivals] at hall
  exact absurd hall (by decide)

end Reader

end LatticeShield.Js
