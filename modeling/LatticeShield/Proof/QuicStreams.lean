import LatticeShield.Proof.Duplex
import LatticeShield.Relay.QuicConnection

/-!
# The streams of a QUIC connection do not touch each other

Every stream is a copy of its own with its own connection to the backend, so it runs on what
happens to it alone (`QuicConnection.streams_run`). On it nothing is reordered or made up: what the
backend has been given is how the client's stream begins, and what the client has been given is how
the response does (`Relayed`).

The client sees the end of its stream when `relay_stream` calls `finish`, behind the `try_join!`.
That is after both copies are done, and then everything has been delivered; but the join also ends
when one copy fails, its error is dropped, and the client sees the same end.
-/

set_option autoImplicit false

namespace LatticeShield.Bridge

open Lib

/-! ## What a client sends -/

/-- What the client sends on a stream, up to where it ends it. -/
def clientStream : List StreamEvent → Bytes
  | [] => []
  | .moves (.clientSends bs) :: es => bs ++ clientStream es
  | .moves .clientCloses :: _ => []
  | _ :: es => clientStream es

def clientClosed (es : List StreamEvent) : Prop := .moves .clientCloses ∈ es

/-- What an event adds to an open stream. -/
def StreamEvent.sends : StreamEvent → Bytes
  | .moves (.clientSends bs) => bs
  | _ => []

theorem clientStream_snoc_of_open {es : List StreamEvent} (h : ¬ clientClosed es)
    (e : StreamEvent) : clientStream (es ++ [e]) = clientStream es ++ e.sends := by
  induction es with
  | nil =>
    cases e with
    | moves s => cases s <;> simp [clientStream, StreamEvent.sends]
    | _ => rfl
  | cons e' es ih =>
    have hopen : ¬ clientClosed es := fun hmem => h (List.mem_cons_of_mem _ hmem)
    cases e' with
    | moves s =>
      cases s with
      | clientSends bs =>
        show bs ++ clientStream (es ++ [e]) = bs ++ clientStream es ++ e.sends
        rw [ih hopen, List.append_assoc]
      | clientCloses => exact absurd List.mem_cons_self h
      | _ => exact ih hopen
    | _ => exact ih hopen

theorem clientStream_snoc_of_closed {es : List StreamEvent} (h : clientClosed es)
    (e : StreamEvent) : clientStream (es ++ [e]) = clientStream es := by
  induction es with
  | nil => exact absurd h List.not_mem_nil
  | cons e' es ih =>
    have hrest : e' ≠ .moves .clientCloses → clientClosed es :=
      fun hne => (List.mem_cons.mp h).resolve_left (Ne.symm hne)
    cases e' with
    | moves s =>
      cases s with
      | clientSends bs =>
        show bs ++ clientStream (es ++ [e]) = bs ++ clientStream es
        rw [ih (hrest (by simp))]
      | clientCloses => rfl
      | _ => exact ih (hrest (by simp))
    | _ => exact ih (hrest (by simp))

theorem clientStream_prefix_snoc (es : List StreamEvent) (e : StreamEvent) :
    clientStream es <+: clientStream (es ++ [e]) := by
  by_cases h : clientClosed es
  · have hsame := clientStream_snoc_of_closed h (e := e)
    exact hsame ▸ List.prefix_rfl
  · rw [clientStream_snoc_of_open h]
    exact List.prefix_append _ _

theorem clientClosed_snoc {es : List StreamEvent} {e : StreamEvent}
    (h : e ≠ .moves .clientCloses) : clientClosed (es ++ [e]) ↔ clientClosed es := by
  unfold clientClosed
  rw [List.mem_append, List.mem_singleton]
  exact or_iff_left (Ne.symm h)

/-! ## The client's copy -/

/-- The copy has taken the client's stream as far as it has come. What was sent behind the end of
the stream is not part of it. -/
structure Takes (own : List StreamEvent) (c : Copy UInt8) : Prop where
  sound : c.Sound
  sent : c.sent = clientStream own
  ended : c.ended = true ↔ clientClosed own

/-- What is left of that when the relay is over and looks at the stream no more: the backend has
been given a beginning of what the client has sent, and all of it if the copy has read the end. -/
structure Took (own : List StreamEvent) (c : Copy UInt8) : Prop where
  sound : c.Sound
  sent : c.sent <+: clientStream own
  ended : c.ended = true → clientClosed own ∧ c.sent = clientStream own

variable {own : List StreamEvent} {c : Copy UInt8}

theorem Takes.took (h : Takes own c) : Took own c :=
  ⟨h.sound, h.sent ▸ List.prefix_rfl, fun hended => ⟨h.ended.mp hended, h.sent⟩⟩

theorem Took.snoc (h : Took own c) (e : StreamEvent) : Took (own ++ [e]) c := by
  refine ⟨h.sound, h.sent.trans (clientStream_prefix_snoc own e), ?_⟩
  intro hended
  obtain ⟨hclosed, hsent⟩ := h.ended hended
  exact ⟨List.mem_append_left _ hclosed, hsent.trans (clientStream_snoc_of_closed hclosed e).symm⟩

/-- An event that is none of the client's adds nothing to its stream, and the copy has taken what
it had. -/
theorem Takes.snoc (h : Takes own c) {e : StreamEvent} (hsends : e.sends = [])
    (hcloses : e ≠ .moves .clientCloses) : Takes (own ++ [e]) c := by
  refine ⟨h.sound, ?_, h.ended.trans (clientClosed_snoc hcloses).symm⟩
  rw [h.sent]
  by_cases hclosed : clientClosed own
  · rw [clientStream_snoc_of_closed hclosed]
  · rw [clientStream_snoc_of_open hclosed, hsends, List.append_nil]

theorem Takes.arrive (h : Takes own c) (bs : Bytes) :
    Takes (own ++ [.moves (.clientSends bs)]) (c.arrive bs) := by
  refine ⟨h.sound.arrive bs, ?_, ?_⟩
  · rw [Copy.sent_arrive, h.sent]
    by_cases hclosed : clientClosed own
    · rw [if_pos (h.ended.mpr hclosed), clientStream_snoc_of_closed hclosed]
    · rw [if_neg fun hended => hclosed (h.ended.mp hended), clientStream_snoc_of_open hclosed]
      rfl
  · rw [clientClosed_snoc (by simp), ← h.ended]
    unfold Copy.arrive
    split <;> exact Iff.rfl

theorem Takes.close (h : Takes own c) : Takes (own ++ [.moves .clientCloses]) c.close := by
  refine ⟨h.sound.close, ?_, iff_of_true rfl (List.mem_append_right _ List.mem_cons_self)⟩
  rw [Copy.sent_close, h.sent]
  by_cases hclosed : clientClosed own
  · rw [clientStream_snoc_of_closed hclosed]
  · rw [clientStream_snoc_of_open hclosed]
    exact (List.append_nil _).symm

theorem Takes.copy (h : Takes own c) (step : CopyStep) {e : StreamEvent} (hsends : e.sends = [])
    (hcloses : e ≠ .moves .clientCloses) : Takes (own ++ [e]) (c.step step) := by
  have hsnoc := h.snoc hsends hcloses
  refine ⟨h.sound.step step, ?_, ?_⟩
  · rw [Copy.step_sent]
    exact hsnoc.sent
  · rw [Copy.step_ended]
    exact hsnoc.ended

theorem Takes.clientMoves {d : Duplex} (h : Takes own d.up) (m : DuplexStep) :
    Takes (own ++ [.moves m]) (d.clientMoves m).up := by
  cases m with
  | clientSends bs => exact h.arrive bs
  | clientCloses => exact h.close
  | up step => exact h.snoc rfl (by simp)
  | down step => exact h.snoc rfl (by simp)
  | backendSends n => exact h.snoc rfl (by simp)
  | backendCloses => exact h.snoc rfl (by simp)

theorem Takes.peer {d : Duplex} (h : Takes own d.up) (m : DuplexStep) :
    Takes (own ++ [.moves m]) (d.peer m).up := by
  cases m with
  | clientSends bs => exact h.arrive bs
  | clientCloses => exact h.close
  | up step => exact h.snoc rfl (by simp)
  | down step => exact h.snoc rfl (by simp)
  | backendSends n => exact h.snoc rfl (by simp)
  | backendCloses =>
    have hsame : (d.peer .backendCloses).up = d.up := by
      rw [Duplex.peer]
      split <;> rfl
    rw [hsame]
    exact h.snoc rfl (by simp)

theorem Takes.relay {d : Duplex} (h : Takes own d.up) (returns : CopyStatus → CopyStatus → Bool)
    (hgoes : d.returned = false) (m : DuplexStep) :
    Takes (own ++ [.moves m]) (d.step returns m).up := by
  rw [Duplex.step, hgoes]
  cases m with
  | up step => exact h.copy step rfl (by simp)
  | _ => exact h.peer _

/-! ## The backend's copy -/

/-- The client is given the response, and the backend closes behind it. What has been read of it
and what is still to come are the response at any time. -/
structure Answers (response : Bytes) (d : Duplex) : Prop where
  sound : d.down.Sound
  sent : d.down.sent ++ d.response = response
  ended : d.down.ended = true → d.response = []

variable {response : Bytes} {d : Duplex}

theorem Answers.start (hdown : d.down = {}) (response : Bytes) :
    Answers response { d with response } := by
  refine ⟨?_, ?_, ?_⟩
  · show d.down.Sound
    rw [hdown]
    exact .new
  · show d.down.sent ++ response = response
    rw [hdown]
    rfl
  · show d.down.ended = true → response = []
    rw [hdown]
    exact nofun

theorem Answers.peer (h : Answers response d) (m : DuplexStep) : Answers response (d.peer m) := by
  cases m with
  | backendSends n =>
    refine ⟨h.sound.arrive _, ?_, ?_⟩
    · show (d.down.arrive _).sent ++ d.response.drop n = response
      rw [Copy.sent_arrive]
      by_cases hended : d.down.ended = true
      · rw [if_pos hended, ← h.sent, h.ended hended, List.drop_nil]
      · rw [if_neg hended, List.append_assoc, List.take_append_drop, h.sent]
    · show (d.down.arrive _).ended = true → d.response.drop n = []
      intro hended
      have hbefore : d.down.ended = true := by
        unfold Copy.arrive at hended
        split at hended <;> exact hended
      rw [h.ended hbefore, List.drop_nil]
  | backendCloses =>
    rw [Duplex.peer]
    split
    · next hnil => exact ⟨h.sound.close, h.sent, fun _ => hnil⟩
    · exact h
  | _ => exact ⟨h.sound, h.sent, h.ended⟩

theorem Answers.step (h : Answers response d) (returns : CopyStatus → CopyStatus → Bool)
    (m : DuplexStep) : Answers response (d.step returns m) := by
  rcases d.step_cases returns m with hpeer | ⟨-, ⟨c, -, hpoll⟩ | ⟨c, -, hpoll⟩⟩
  · rw [hpeer]
    exact h.peer m
  · rw [hpoll]
    exact ⟨h.sound, h.sent, h.ended⟩
  · rw [hpoll]
    refine ⟨h.sound.step c, ?_, ?_⟩
    · show (d.down.step c).sent ++ d.response = response
      rw [Copy.step_sent, h.sent]
    · show (d.down.step c).ended = true → d.response = []
      rw [Copy.step_ended]
      exact h.ended

/-! ## A stream -/

/-- What is known of a stream by what has happened to it, phase by phase: while it waits for the
backend the client's bytes are kept, and from then on the relay has them. -/
structure Relayed (own : List StreamEvent) (s : QuicStream) : Prop where
  took : Took own s.duplex.up
  takes : s.phase ≠ .finished → s.phase ≠ .refused → Takes own s.duplex.up
  /-- Nothing comes back before the backend is connected. -/
  silent : s.phase ≠ .relaying → s.phase ≠ .finished →
    s.duplex.down = {} ∧ s.duplex.returned = false
  answers : s.phase = .relaying ∨ s.phase = .finished →
    ∃ response, .connected (some response) ∈ own ∧ Answers response s.duplex
  relaying : s.phase = .relaying → s.duplex.returned = false
  joined : s.phase = .finished →
    tryJoinReturns s.duplex.up.status s.duplex.down.status = true

theorem Relayed.new : Relayed [] .new where
  took := ⟨.new, List.nil_prefix, nofun⟩
  takes _ _ := ⟨.new, rfl, by simp [QuicStream.new, Duplex.start, clientClosed]⟩
  silent _ _ := ⟨rfl, rfl⟩
  answers h := by rcases h with h | h <;> cases h
  relaying _ := rfl
  joined h := by cases h

variable {s : QuicStream}

theorem Relayed.snoc (h : Relayed own s) {e : StreamEvent}
    (hclient : s.phase = .finished ∨ s.phase = .refused ∨
      e.sends = [] ∧ e ≠ .moves .clientCloses) : Relayed (own ++ [e]) s := by
  refine ⟨h.took.snoc e, ?_, h.silent, ?_, h.relaying, h.joined⟩
  · intro hfinished hrefused
    rcases hclient with hphase | hphase | ⟨hsends, hcloses⟩
    · exact absurd hphase hfinished
    · exact absurd hphase hrefused
    · exact (h.takes hfinished hrefused).snoc hsends hcloses
  · intro hphase
    obtain ⟨response, hmem, hanswers⟩ := h.answers hphase
    exact ⟨response, List.mem_append_left _ hmem, hanswers⟩

/-- What a relay's step returns, it returns for its copies. -/
theorem returns_of_returned (returns : CopyStatus → CopyStatus → Bool) {d : Duplex}
    (hgoes : d.returned = false) (m : DuplexStep) (h : (d.step returns m).returned = true) :
    returns (d.step returns m).up.status (d.step returns m).down.status = true := by
  rcases d.step_cases returns m with hpeer | ⟨-, ⟨c, -, hpoll⟩ | ⟨c, -, hpoll⟩⟩
  · rw [hpeer, (QuicRelay.peer_sameStatus d m).returned, hgoes] at h
    cases h
  · rw [hpoll] at h ⊢
    exact h
  · rw [hpoll] at h ⊢
    exact h

theorem Relayed.accepted (h : Relayed own s) : Relayed (own ++ [.accepted]) (s.step .accepted) := by
  have hsnoc := h.snoc (e := .accepted) (Or.inr (Or.inr ⟨rfl, by simp⟩))
  rw [QuicStream.step]
  by_cases hwaiting : s.phase = .waiting
  · rw [if_pos hwaiting]
    have htakes := hsnoc.takes (by simp [hwaiting]) (by simp [hwaiting])
    have hsilent := h.silent (by simp [hwaiting]) (by simp [hwaiting])
    refine ⟨hsnoc.took, fun _ _ => htakes, fun _ _ => hsilent, ?_, nofun, nofun⟩
    rintro (hphase | hphase) <;> cases hphase
  · rw [if_neg hwaiting]
    exact hsnoc

theorem Relayed.connected (h : Relayed own s) (response : Option Bytes) :
    Relayed (own ++ [.connected response]) (s.step (.connected response)) := by
  have hsnoc := h.snoc (e := .connected response) (Or.inr (Or.inr ⟨rfl, by simp⟩))
  by_cases hconnecting : s.phase = .connecting
  · simp only [QuicStream.step, if_pos hconnecting]
    have htakes := hsnoc.takes (by simp [hconnecting]) (by simp [hconnecting])
    obtain ⟨hsilent, hgoes⟩ := h.silent (by simp [hconnecting]) (by simp [hconnecting])
    cases response with
    | some response =>
      have hanswers := Answers.start hsilent response
      exact ⟨hsnoc.took, fun _ _ => htakes, fun hne => absurd rfl hne,
        fun _ => ⟨response, List.mem_append_right _ List.mem_cons_self, hanswers⟩,
        fun _ => hgoes, nofun⟩
    | none =>
      refine ⟨hsnoc.took, fun _ hne => absurd rfl hne, fun _ _ => ⟨hsilent, hgoes⟩, ?_, nofun,
        nofun⟩
      rintro (hphase | hphase) <;> cases hphase
  · simp only [QuicStream.step, if_neg hconnecting]
    exact hsnoc

/-- What the client sends waits for the backend. -/
theorem Relayed.buffered (h : Relayed own s) (hphase : s.phase = .waiting ∨ s.phase = .connecting)
    (m : DuplexStep) :
    Relayed (own ++ [.moves m]) { s with duplex := s.duplex.clientMoves m } := by
  have hlive : s.phase ≠ .relaying ∧ s.phase ≠ .finished ∧ s.phase ≠ .refused := by
    rcases hphase with hphase | hphase <;> simp [hphase]
  have htakes := (h.takes hlive.2.1 hlive.2.2).clientMoves m
  obtain ⟨hsilent, hgoes⟩ := h.silent hlive.1 hlive.2.1
  have hrest : (s.duplex.clientMoves m).down = s.duplex.down ∧
      (s.duplex.clientMoves m).returned = s.duplex.returned := by
    cases m <;> exact ⟨rfl, rfl⟩
  refine ⟨htakes.took, fun _ _ => htakes, fun _ _ => ⟨hrest.1.trans hsilent, hrest.2.trans hgoes⟩,
    ?_, fun _ => hrest.2.trans hgoes, fun hfinished => absurd hfinished hlive.2.1⟩
  rintro (hrelaying | hfinished)
  · exact absurd hrelaying hlive.1
  · exact absurd hfinished hlive.2.1

theorem Relayed.relay (h : Relayed own s) (hphase : s.phase = .relaying) (m : DuplexStep) :
    Relayed (own ++ [.moves m]) (s.step (.moves m)) := by
  have hgoes := h.relaying hphase
  have htakes := (h.takes (by simp [hphase]) (by simp [hphase])).relay tryJoinReturns hgoes m
  obtain ⟨response, hmem, hanswers⟩ := h.answers (Or.inl hphase)
  have hanswered : ∃ response, .connected (some response) ∈ own ++ [.moves m] ∧
      Answers response (QuicRelay.step s.duplex m) :=
    ⟨response, List.mem_append_left _ hmem, hanswers.step tryJoinReturns m⟩
  simp only [QuicStream.step, hphase]
  cases hreturned : (QuicRelay.step s.duplex m).returned with
  | true =>
    exact ⟨htakes.took, fun hne => absurd rfl hne, fun _ hne => absurd rfl hne,
      fun _ => hanswered, nofun, fun _ => returns_of_returned tryJoinReturns hgoes m hreturned⟩
  | false =>
    exact ⟨htakes.took, fun _ _ => htakes, fun hne => absurd rfl hne, fun _ => hanswered,
      fun _ => hreturned, nofun⟩

theorem Relayed.step (h : Relayed own s) (e : StreamEvent) : Relayed (own ++ [e]) (s.step e) := by
  cases e with
  | accepted => exact h.accepted
  | connected response => exact h.connected response
  | moves m =>
    cases hphase : s.phase with
    | waiting =>
      have hbuffered := h.buffered (Or.inl hphase) m
      simpa only [QuicStream.step, hphase] using hbuffered
    | connecting =>
      have hbuffered := h.buffered (Or.inr hphase) m
      simpa only [QuicStream.step, hphase] using hbuffered
    | relaying => exact h.relay hphase m
    | finished =>
      simp only [QuicStream.step, hphase]
      exact h.snoc (Or.inl hphase)
    | refused =>
      simp only [QuicStream.step, hphase]
      exact h.snoc (Or.inr (Or.inl hphase))

theorem relayed_run (own : List StreamEvent) : Relayed own (own.foldl QuicStream.step .new) := by
  induction own using List.reverseRecOn with
  | nil => exact .new
  | append_singleton own e ih =>
    rw [List.foldl_append]
    exact ih.step e

/-! ## The connection -/

namespace QuicConnection

/-- An event moves the stream it is for, and no other. -/
theorem step_streams (c : QuicConnection) (e : QuicEvent) :
    (c.step e).streams =
      (c.select e).elim c.streams (Family.step QuicStream.step c.streams) := by
  cases e with
  | acceptBi stream =>
    unfold step select
    cases c.result with
    | none =>
      cases stream with
      | ok _ => rfl
      | error e => rfl
    | some r => rfl
  | connected k response => rfl
  | moves k s => rfl

/-- What happens to stream `k` in a run. -/
def eventsOf (k : Nat) (events : List QuicEvent) : List StreamEvent :=
  Family.eventsOf k (trace step select new events)

theorem streams_run (events : List QuicEvent) (k : Nat) :
    (run events).streams k = (eventsOf k events).foldl QuicStream.step .new := by
  rw [run, foldl_trace step_streams, Family.foldl_apply]
  rfl

end QuicConnection

/-- **The streams of a connection.** Whatever happens on a connection and on its other streams, a
stream is what its own events make of it: the backend has been given a beginning of what the
client has sent on it, and the client a beginning of the backend's response. When its end has been
signalled to the client, all of both has arrived, or one of its two copies has failed. -/
theorem quic_streams_relayed (events : List QuicEvent) (k : Nat) :
    let own := QuicConnection.eventsOf k events
    let s := (QuicConnection.run events).streams k
    s = own.foldl QuicStream.step .new ∧
    s.duplex.up.written <+: clientStream own ∧
    (s.duplex.down.written = [] ∨ ∃ response, .connected (some response) ∈ own ∧
      s.duplex.down.written <+: response) ∧
    (s.phase = .finished → s.duplex.up.status = .failed ∨ s.duplex.down.status = .failed ∨
      clientClosed own ∧ s.duplex.up.written = clientStream own ∧
        .connected (some s.duplex.down.written) ∈ own) := by
  intro own s
  have hrun : s = own.foldl QuicStream.step .new := QuicConnection.streams_run events k
  have hrelayed : Relayed own s := hrun ▸ relayed_run own
  refine ⟨hrun, (Copy.written_prefix_sent _).trans hrelayed.took.sent, ?_, ?_⟩
  -- before the backend's connection there is nothing to answer from
  · by_cases hphase : s.phase = .relaying ∨ s.phase = .finished
    · obtain ⟨response, hmem, hanswers⟩ := hrelayed.answers hphase
      refine Or.inr ⟨response, hmem, (Copy.written_prefix_sent _).trans ?_⟩
      rw [← hanswers.sent]
      exact List.prefix_append _ _
    · rw [not_or] at hphase
      rw [(hrelayed.silent hphase.1 hphase.2).1]
      exact Or.inl rfl
  · intro hfinished
    have hjoined := hrelayed.joined hfinished
    obtain ⟨response, hmem, hanswers⟩ := hrelayed.answers (Or.inr hfinished)
    simp only [tryJoinReturns, Bool.or_eq_true, Bool.and_eq_true, decide_eq_true_eq] at hjoined
    -- `try_join!` returns at the first failure, or when both directions are over
    rcases hjoined with (hup | hdown) | ⟨hup, hdown⟩
    · exact Or.inl hup
    · exact Or.inr (Or.inl hdown)
    · have htook := hrelayed.took.sound.drained hup
      have hgave := hanswers.sound.drained hdown
      obtain ⟨hclosed, hsent⟩ := hrelayed.took.ended htook.ended
      have hwhole : s.duplex.down.written = response := by
        rw [hgave.written_eq, ← hanswers.sent, hanswers.ended hgave.ended, List.append_nil]
      refine Or.inr (Or.inr ⟨hclosed, htook.written_eq.trans hsent, ?_⟩)
      rw [hwhole]
      exact hmem

end LatticeShield.Bridge
