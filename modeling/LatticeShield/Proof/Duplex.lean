import LatticeShield.Lib.Runs
import LatticeShield.Relay.Duplex

/-!
# What the two relays owe their peers at the end

The HTTPS relay returns with the first of its copies. If that is the backend's, the client has the
whole response, because a copy is done only when it has written all it was sent. If it is the
client's, because the client has ended its stream, the response is cut off wherever it is. So the
response arrives in the runs in which the client's copy ends last (`EndsLast`).

The QUIC relay waits for both copies and so cuts nothing off. But nothing tells the backend that
the client has finished: its write half stays open until the relay returns, and the relay does not
return before the backend has closed. The backend learns of the client's end exactly in the runs in
which the client's copy is the last to complete (`JoinsLast`), where it no longer matters.
-/

set_option autoImplicit false

namespace LatticeShield.Bridge

open Lib

/-- What a step of a relay is: a move of the peers, or one of the copies before it has returned.
After it has returned, the copies are dropped and only the peers go on. -/
theorem Duplex.step_cases (returns : CopyStatus → CopyStatus → Bool) (r : Duplex)
    (s : DuplexStep) :
    r.step returns s = r.peer s ∨ r.returned = false ∧
      ((∃ c, s = .up c ∧ r.step returns s = r.poll returns (.up c)) ∨
        ∃ c, s = .down c ∧ r.step returns s = r.poll returns (.down c)) := by
  rw [Duplex.step]
  split
  · exact .inl rfl
  · rename_i hret
    rw [Bool.not_eq_true] at hret
    cases s with
    | up c => exact .inr ⟨hret, .inl ⟨c, rfl, rfl⟩⟩
    | down c => exact .inr ⟨hret, .inr ⟨c, rfl, rfl⟩⟩
    | clientSends bs => exact .inl rfl
    | clientCloses => exact .inl rfl
    | backendSends n => exact .inl rfl
    | backendCloses => exact .inl rfl

/-! ## The HTTPS relay -/

namespace HttpRelay

/-- The client-to-backend copy ends only when nothing of the response is left to deliver.
`tokio::select!` in the HTTP relay drops the copy that has not ended, and this is the copy that
carries the response. -/
def EndsLast (r : Duplex) : DuplexStep → Prop
  | .up s => r.returned = false → r.up.Finishes s ∨ s = .fail → r.down.Drained
  | _ => True

/-- What is known of the response while the relay runs, and once it has returned: what the backend
has sent and what it has still to send are the response, the copy loses nothing of it, and a relay
that has returned has nothing left to deliver. -/
structure Delivering (response : Bytes) (r : Duplex) : Prop where
  sound : r.down.Sound
  sent : r.down.sent ++ r.response = response
  all_sent : r.down.ended = true → r.response = []
  running : r.returned = false → r.down.status = .running ∧ r.up.status = .running
  returned : r.returned = true → r.down.Drained

theorem Delivering.start (response : Bytes) : Delivering response (.start response) where
  sound := .new
  sent := rfl
  all_sent := by simp [Duplex.start]
  running := fun _ => ⟨rfl, rfl⟩
  returned := by simp [Duplex.start]

theorem Delivering.peer {response : Bytes} {r : Duplex} (h : Delivering response r)
    (s : DuplexStep) : Delivering response (r.peer s) := by
  -- the two client steps touch only the upward copy; the backend's send and close are the work
  cases s with
  | up s => exact h
  | down s => exact h
  | clientSends bs =>
    refine ⟨h.sound, h.sent, h.all_sent, ?_, h.returned⟩
    intro hret
    refine ⟨(h.running hret).1, ?_⟩
    show (r.up.arrive bs).status = _
    rw [Copy.arrive_status]
    exact (h.running hret).2
  | clientCloses => exact ⟨h.sound, h.sent, h.all_sent, h.running, h.returned⟩
  | backendSends n =>
    by_cases hended : r.down.ended = true
    · -- it has sent everything
      have hnil := h.all_sent hended
      have hsame : r.peer (.backendSends n) = r := by
        simp [Duplex.peer, Copy.arrive, hended, hnil]
        rw [← hnil]
      rw [hsame]
      exact h
    · have harrive : r.down.arrive (r.response.take n) =
          { r.down with unread := r.down.unread ++ r.response.take n } := if_neg hended
      refine ⟨h.sound.arrive _, ?_, ?_, ?_, ?_⟩
      · show (r.down.arrive _).sent ++ r.response.drop n = _
        rw [Copy.sent_arrive, if_neg hended, List.append_assoc, List.take_append_drop, h.sent]
      · show (r.down.arrive _).ended = true → _
        rw [harrive]
        intro hended'
        exact absurd hended' hended
      · show _ → (r.down.arrive _).status = _ ∧ _
        rw [harrive]
        exact h.running
      · intro hret
        exact absurd (h.returned hret).ended hended
  | backendCloses =>
    by_cases hnil : r.response = []
    · rw [Duplex.peer, if_pos hnil]
      refine ⟨h.sound.close, h.sent, fun _ => hnil, h.running, ?_⟩
      intro hret
      exact ⟨rfl, (h.returned hret).unread, (h.returned hret).buf⟩
    · rw [Duplex.peer, if_neg hnil]
      exact h

theorem selectReturns_eq_false (up down : CopyStatus) :
    selectReturns up down = false ↔ up = .running ∧ down = .running := by
  simp [selectReturns]

theorem Delivering.up {response : Bytes} {r : Duplex} (h : Delivering response r)
    (hret : r.returned = false) (s : CopyStep)
    (hlast : r.up.Finishes s ∨ s = .fail → r.down.Drained) :
    Delivering response (r.poll selectReturns (.up s)) := by
  obtain ⟨hdown, hup⟩ := h.running hret
  refine ⟨h.sound, h.sent, h.all_sent, ?_, ?_⟩
  · intro hgoes
    exact ⟨hdown, ((selectReturns_eq_false _ _).mp hgoes).1⟩
  · intro hreturns
    apply hlast
    by_contra hgoes
    rw [not_or] at hgoes
    have hstatus := r.up.step_status_of_ne_fail hgoes.2
    rw [if_neg hgoes.1, hup] at hstatus
    simp [Duplex.poll, selectReturns, hstatus, hdown] at hreturns

theorem Delivering.down {response : Bytes} {r : Duplex} (h : Delivering response r)
    (hret : r.returned = false) {s : CopyStep} (hs : s ≠ .fail) :
    Delivering response (r.poll selectReturns (.down s)) := by
  obtain ⟨hdown, hup⟩ := h.running hret
  have hsound := h.sound.step s
  refine ⟨hsound, ?_, ?_, ?_, ?_⟩
  · show (r.down.step s).sent ++ r.response = response
    rw [Copy.step_sent, h.sent]
  · show (r.down.step s).ended = true → _
    rw [Copy.step_ended]
    exact h.all_sent
  · intro hgoes
    exact ⟨((selectReturns_eq_false _ _).mp hgoes).2, hup⟩
  · intro hreturns
    apply hsound.drained
    -- the relay has returned, so the copy has ended, and it has not failed
    have hstatus := r.down.step_status_of_ne_fail hs
    by_cases hfinish : r.down.Finishes s
    · rw [hstatus, if_pos hfinish]
    · rw [if_neg hfinish, hdown] at hstatus
      simp [Duplex.poll, selectReturns, hstatus, hup] at hreturns

theorem Delivering.step {response : Bytes} {r : Duplex} {s : DuplexStep}
    (h : Delivering response r) (hs : EndsLast r s ∧ s ≠ .down .fail) :
    Delivering response (HttpRelay.step r s) := by
  rw [HttpRelay.step]
  rcases r.step_cases selectReturns s with hstep | ⟨hret, ⟨c, rfl, hstep⟩ | ⟨c, rfl, hstep⟩⟩
  · rw [hstep]
    exact h.peer s
  · rw [hstep]
    exact h.up hret c (hs.1 hret)
  · rw [hstep]
    apply h.down hret
    rintro rfl
    exact hs.2 rfl

/-- **The whole response**, in every run in which the client's copy ends last: once the relay has
returned, every byte of it has been written to the client. The client keeps reading, so its copy
does not fail. -/
theorem http_relay_delivers_response (response : Bytes) (steps : List DuplexStep)
    (hclient : ∀ s ∈ steps, s ≠ .down .fail)
    (hlast : Meets HttpRelay.step EndsLast (.start response) steps)
    (hret : (after response steps).returned = true) :
    (after response steps).down.written = response := by
  have hinv : Delivering response (after response steps) :=
    (hlast.and_mem hclient).invariant (fun r s h hs => h.step hs) (.start response)
  have hdrained := hinv.returned hret
  rw [hdrained.written_eq]
  have hsent := hinv.sent
  rwa [hinv.all_sent hdrained.ended, List.append_nil] at hsent

/-- A response that is read and written before either side is done. -/
theorem http_relay_delivers_two_bytes :
    let steps : List DuplexStep := [.clientSends [7], .up (.read 0), .up (.write 0),
      .backendSends 2, .down (.read 0), .down (.write 0), .clientCloses, .backendCloses,
      .down (.read 5), .down (.write 5), .down (.read 0), .down .finish]
    (∀ s ∈ steps, s ≠ .down .fail) ∧ Meets HttpRelay.step EndsLast (.start [1, 2]) steps ∧
      (after [1, 2] steps).returned = true ∧ (after [1, 2] steps).down.written = [1, 2] := by
  intro steps
  have hclient : ∀ s ∈ steps, s ≠ .down .fail := by decide
  have hlast : Meets HttpRelay.step EndsLast (.start [1, 2]) steps := by
    refine ⟨trivial, ?_, ?_, trivial, trivial, trivial, trivial, trivial, trivial, trivial,
      trivial, trivial, trivial⟩
    · rintro - (⟨hfinish, -⟩ | hfail)
      · cases hfinish
      · cases hfail
    · rintro - (⟨hfinish, -⟩ | hfail)
      · cases hfinish
      · cases hfail
  have hret : (after [1, 2] steps).returned = true := by decide
  exact ⟨hclient, hlast, hret, http_relay_delivers_response [1, 2] steps hclient hlast hret⟩

/-- The client has sent its request and ends its stream; the backend has answered and closed. The
client's copy reads the end first, and the answer is dropped. A client that shuts down its write
half behind its request is an ordinary HTTP client. -/
theorem http_relay_drops_response :
    ¬ ∀ (response : Bytes) (steps : List DuplexStep), (∀ s ∈ steps, s ≠ .down .fail) →
      (after response steps).returned = true →
      (after response steps).down.written = response := by
  intro h
  have hwritten := h [1] [.clientCloses, .backendSends 1, .backendCloses, .up (.read 0),
    .up .finish] (by decide) (by decide)
  exact absurd hwritten (by decide)

end HttpRelay

/-! ## The QUIC relay -/

namespace QuicRelay

/-- The backend sees the end of its input: only when the relay returns and drops the connection.
Nothing shuts its write half down before, for `tokio::io::copy` flushes and does not shut down. -/
def backendSeesEof (r : Duplex) : Bool := r.returned

/-- A client that has finished, all its bytes written, has been followed by the end of the
backend's input. So the relay does not wait for a backend that waits for it. -/
def HalfClosed (r : Duplex) : Prop := r.up.status = .done → backendSeesEof r = true

/-- The client-to-backend copy completes only when the other one has. It is a condition on the
state before the step. -/
def JoinsLast (r : Duplex) : DuplexStep → Prop
  | .up s => r.returned = false → r.up.Finishes s → r.down.status = .done
  | _ => True

/-- The peers neither end a copy nor make the relay return. Whether it has returned is thus a
matter of its own steps. -/
structure SameStatus (r r' : Duplex) : Prop where
  returned : r'.returned = r.returned
  up : r'.up.status = r.up.status
  down : r'.down.status = r.down.status

theorem peer_sameStatus (r : Duplex) (s : DuplexStep) : SameStatus r (r.peer s) := by
  cases s with
  | up s => exact ⟨rfl, rfl, rfl⟩
  | down s => exact ⟨rfl, rfl, rfl⟩
  | clientSends bs => exact ⟨rfl, Copy.arrive_status _ _, rfl⟩
  | clientCloses => exact ⟨rfl, rfl, rfl⟩
  | backendSends n => exact ⟨rfl, rfl, Copy.arrive_status _ _⟩
  | backendCloses =>
    rw [Duplex.peer]
    split <;> exact ⟨rfl, rfl, rfl⟩

/-- A copy that has failed has ended the join. A copy that is done has not: `try_join!` waits for
both. -/
def Joined (r : Duplex) : Prop := r.down.status = .failed → r.returned = true

theorem Joined.step {r : Duplex} (h : Joined r) (s : DuplexStep) :
    Joined (QuicRelay.step r s) := by
  rw [QuicRelay.step]
  rcases r.step_cases tryJoinReturns s with hstep | ⟨-, ⟨c, -, hstep⟩ | ⟨c, -, hstep⟩⟩
  · have hsame := peer_sameStatus r s
    rw [hstep]
    intro hfailed
    rw [hsame.down] at hfailed
    rw [hsame.returned]
    exact h hfailed
  · rw [hstep]
    intro hfailed
    have hdown : r.down.status = .failed := hfailed
    simp [Duplex.poll, tryJoinReturns, hdown]
  · rw [hstep]
    intro hfailed
    have hdown : (r.down.step c).status = .failed := hfailed
    simp [Duplex.poll, tryJoinReturns, hdown]

theorem joined_after (response : Bytes) (steps : List DuplexStep) :
    Joined (after response steps) := by
  induction steps using List.reverseRecOn with
  | nil =>
    intro hfailed
    cases hfailed
  | append_singleton steps s ih =>
    rw [after, List.foldl_append]
    exact ih.step s

theorem HalfClosed.step {r : Duplex} {s : DuplexStep} (h : HalfClosed r) (hlast : JoinsLast r s) :
    HalfClosed (QuicRelay.step r s) := by
  rw [QuicRelay.step]
  rcases r.step_cases tryJoinReturns s with hstep | ⟨hret, ⟨c, rfl, hstep⟩ | ⟨c, rfl, hstep⟩⟩
  · have hsame := peer_sameStatus r s
    rw [hstep]
    intro hdone
    rw [hsame.up] at hdone
    rw [backendSeesEof, hsame.returned]
    exact h hdone
  · rw [hstep]
    intro hdone
    -- the copy was not done before, or the relay had returned
    have hfinish : r.up.Finishes c := by
      by_contra hfinish
      have hstatus : (r.up.step c).status = .done := hdone
      rw [Copy.step_status, if_neg hfinish] at hstatus
      split at hstatus
      · cases hstatus
      · have hreturned := h hstatus
        rw [backendSeesEof, hret] at hreturned
        cases hreturned
    have hdown := hlast hret hfinish
    have hup : (r.up.step c).status = .done := hdone
    simp [backendSeesEof, Duplex.poll, tryJoinReturns, hup, hdown]
  · rw [hstep]
    intro hdone
    have hreturned := h hdone
    rw [backendSeesEof, hret] at hreturned
    cases hreturned

/-- A step that keeps the half-close has let the other copy complete first. A relay that joins
both of them ends only then. -/
theorem JoinsLast.of_halfClosed {r : Duplex} {s : DuplexStep} (hjoined : Joined r)
    (h : HalfClosed (QuicRelay.step r s)) : JoinsLast r s := by
  cases s with
  | up c =>
    intro hret hfinish
    have hstep : QuicRelay.step r (.up c) = r.poll tryJoinReturns (.up c) := by
      rw [QuicRelay.step, Duplex.step, hret]
      rfl
    have hup : (r.up.step c).status = .done := by rw [Copy.step_status, if_pos hfinish]
    rw [hstep] at h
    have hreturns : tryJoinReturns (r.up.step c).status r.down.status = true := h hup
    cases hdown : r.down.status with
    | done => rfl
    | running => simp [tryJoinReturns, hup, hdown] at hreturns
    | failed =>
      have hreturned := hjoined hdown
      rw [hret] at hreturned
      cases hreturned
  | down c => trivial
  | clientSends bs => trivial
  | clientCloses => trivial
  | backendSends n => trivial
  | backendCloses => trivial

/-- **A half-close gets through exactly when the backend has closed before it.** In every state of
a run the end of the client's stream has been passed on, if and only if the client's copy never
completes before the backend's. A backend that answers at the end of its input therefore never
answers, and `try_join!` waits for it. -/
theorem quic_half_close_iff (response : Bytes) (steps : List DuplexStep) :
    (∀ done rest, steps = done ++ rest → HalfClosed (after response done)) ↔
      Meets QuicRelay.step JoinsLast (.start response) steps := by
  constructor
  · intro h
    induction steps using List.reverseRecOn with
    | nil => trivial
    | append_singleton steps s ih =>
      rw [meets_snoc]
      refine ⟨?_, ?_⟩
      · apply ih
        rintro done rest rfl
        exact h done (rest ++ [s]) (List.append_assoc _ _ _)
      · apply JoinsLast.of_halfClosed (joined_after response steps)
        have hlast := h (steps ++ [s]) [] (List.append_nil _).symm
        rw [after, List.foldl_append] at hlast
        exact hlast
  · rintro h done rest rfl
    have hstart : HalfClosed (.start response) := by
      intro hdone
      cases hdone
    exact (meets_append.mp h).1.invariant (fun r s h hs => h.step hs) hstart

/-- The client finishes, its bytes are written, and the backend is not told. Both wait for the
other until one of them gives up. -/
theorem quic_half_close_lost :
    ¬ ∀ (response : Bytes) (steps done rest : List DuplexStep), steps = done ++ rest →
      HalfClosed (after response done) := by
  intro h
  have hhalf := h [] _ [.clientSends [7], .clientCloses, .up (.read 0), .up (.write 0),
    .up (.read 0), .up .finish] [] rfl
  exact absurd (hhalf (by decide)) (by decide)

end QuicRelay

end LatticeShield.Bridge
