import LatticeShield.Bridge.Metrics
import LatticeShield.Proof.KeyExchange

/-!
# An order to rotate reaches every session

The admin channel and the control plane order a rotation by modifying one `watch` channel; every
session has a receiver of its own on it, and its loop rotates when `changed()` reports that it has
not seen the last change. A `watch` does not queue: several orders may be one change to a session
that was busy, so the number of its rotations says little. What must not happen is that a session
goes on with a key that is older than an order.

It does not, once `changed()` has nothing left to report to it: what a session has seen grows only
by a rotation (`seen_of_turn`, `Since.seen_of_not_turn`), so having seen the order it has rotated
since (`orders_reach_session`).

A session subscribes behind its connection to the backend, which it makes once; an order that comes
before that is none to it.
-/

set_option autoImplicit false

namespace LatticeShield.Bridge

open Lib EncryptedChannel Session

variable {H : HandshakeSuite} {C : CipherSuite} {server : Server}

/-! ## One session -/

/-- A manual rotation gives the session a new key, or ends it. It does not ask whether rotation is
enabled. -/
theorem Relay.iterate_manual (C : CipherSuite) (cfg : ValidConfig) (r : Relay) (env : Env) :
    (r.iterate C cfg (.manual true) env).1.finished.isSome = true ∨
      (r.iterate C cfg (.manual true) env).1.channel.keyBytes =
        rotateAll C r.channel.keyBytes [env.nonce] := by
  unfold Relay.iterate
  rw [if_pos (show Arm.enabled cfg (.manual true) = true from rfl)]
  simp only [Relay.select, if_true]
  unfold Relay.rotate doRotate
  dsimp only
  cases hresult : (EncryptedChannel.sendKeyRotate C r.channel env.rotateWriter env.gcmNonce
      env.nonce).result with
  | ok u =>
    refine Or.inr ?_
    have hsent : (EncryptedChannel.sendKeyRotate C r.channel env.rotateWriter env.gcmNonce
        env.nonce).channel.keyBytes = r.channel.keyBytes := by
      rw [sendKeyRotate_channel]
      split <;> rfl
    simp only [EncryptedChannel.rotateKey, hsent]
    rfl
  | error e => exact Or.inl rfl

theorem Connection.step_manual (C : CipherSuite) (server : Server) {c : Connection H}
    {relay : Relay} (hp : c.phase = .relaying relay) (env : Env) :
    (c.step C server (.arm (.manual true) env)).1.phase = .closed ∨
      ∃ relay', (c.step C server (.arm (.manual true) env)).1.phase = .relaying relay' ∧
        relay'.channel.keyBytes = rotateAll C relay.channel.keyBytes [env.nonce] := by
  simp only [Connection.step, hp, Connection.goto, afterRelay]
  rcases Relay.iterate_manual C server.config.toValidConfig relay env with hfinished | hkey
  · exact Or.inl (if_pos hfinished)
  · split
    · exact Or.inl rfl
    · exact Or.inr ⟨_, rfl, hkey⟩

theorem Connection.step_closed {c : Connection H} (hp : c.phase = .closed) (event : Event) :
    (c.step C server event).1.phase = .closed := by
  cases event with
  | accept listener => cases listener <;> simp only [Connection.step, hp]
  | _ => simp only [Connection.step, hp]

/-! ## The watch channel -/

/-- The event is an order to rotate. -/
def MeteredEvent.orders (server : Server) : MeteredEvent → Bool
  | .adminRotate => true
  | .command .rotate => server.commanded
  | _ => false

namespace Metered

variable {s : Metered H} {i : Nat}

/-- `changed()` has nothing to report to session `i`. A watch channel holds one value, so several
orders before the session looks are one change. -/
def CaughtUp (s : Metered H) (i : Nat) : Prop := s.seen i = s.rotateTx

theorem guard_fields (s : Metered H) (i : Nat) (phase : Phase H) :
    (s.guard i phase).sessions = s.sessions ∧ (s.guard i phase).seen = s.seen ∧
      (s.guard i phase).rotateTx = s.rotateTx := by
  unfold guard
  split
  · exact ⟨rfl, rfl, rfl⟩
  · split
    · exact ⟨rfl, rfl, rfl⟩
    · exact ⟨rfl, rfl, rfl⟩

theorem sees_fields (s : Metered H) (j : Nat) (phase : Phase H) (event : Event) :
    (s.sees j phase event).sessions = s.sessions ∧ (s.sees j phase event).rotateTx = s.rotateTx ∧
      ((s.sees j phase event).seen = s.seen ∨
        (s.sees j phase event).seen = Function.update s.seen j s.rotateTx) := by
  unfold sees
  split
  · exact ⟨rfl, rfl, Or.inr rfl⟩
  · exact ⟨rfl, rfl, Or.inr rfl⟩
  · exact ⟨rfl, rfl, Or.inl rfl⟩

theorem move_sessions (s : Metered H) (j : Nat) (event : Event) :
    (s.move C server j event).sessions = s.sessions.step C server (j, event) := by
  unfold move
  rw [(guard_fields _ j _).1, (sees_fields _ j _ event).1]
  rfl

theorem move_rotateTx (s : Metered H) (j : Nat) (event : Event) :
    (s.move C server j event).rotateTx = s.rotateTx := by
  unfold move
  rw [(guard_fields _ j _).2.2, (sees_fields _ j _ event).2.1]
  rfl

theorem move_seen (s : Metered H) (j : Nat) (event : Event) :
    (s.move C server j event).seen = (s.sees j (s.sessions.conns j).phase event).seen := by
  unfold move
  rw [(guard_fields _ j _).2.1]
  generalize (s.sessions.conns j).phase = phase
  cases event with
  | connected ok =>
    cases ok with
    | true => cases phase <;> rfl
    | false => rfl
  | arm arm env =>
    cases arm with
    | manual alive => cases alive <;> rfl
    | _ => rfl
  | _ => rfl

theorem step_rotateTx (s : Metered H) (e : MeteredEvent) :
    (s.step C server e).rotateTx = s.rotateTx + if e.orders server then 1 else 0 := by
  cases e with
  | session j event =>
    simp only [step, MeteredEvent.orders]
    split
    · exact move_rotateTx s j event
    · rfl
  | abort j =>
    simp only [step, MeteredEvent.orders]
    exact (guard_fields _ j _).2.2
  | command cmd =>
    cases cmd with
    | rotate =>
      show (if server.commanded then _ else s).rotateTx =
        s.rotateTx + if server.commanded then 1 else 0
      split <;> rfl
    | unknown => rfl
  | adminRotate => rfl

/-- A session has seen no more than there is, as it marks what is there when it looks. -/
theorem seen_le_step (h : ∀ i, s.seen i ≤ s.rotateTx) (e : MeteredEvent) (i : Nat) :
    (s.step C server e).seen i ≤ (s.step C server e).rotateTx := by
  rw [step_rotateTx]
  refine le_trans ?_ (Nat.le_add_right s.rotateTx _)
  cases e with
  | session j event =>
    simp only [step]
    split
    · rw [move_seen]
      rcases (sees_fields s j _ event).2.2 with hsame | hseen
      · rw [hsame]
        exact h i
      · rw [hseen]
        by_cases hi : i = j
        · rw [hi, Function.update_self]
        · rw [Function.update_of_ne hi]
          exact h i
    · exact h i
  | abort j =>
    simp only [step]
    rw [(guard_fields _ j _).2.1]
    exact h i
  | command cmd =>
    cases cmd with
    | rotate =>
      simp only [step]
      split <;> exact h i
    | unknown => exact h i
  | adminRotate => exact h i

theorem run_snoc (events : List MeteredEvent) (e : MeteredEvent) :
    (run C server (events ++ [e]) : Metered H) = (run C server events).step C server e := by
  rw [run, List.foldl_append]
  rfl

theorem seen_le_run (C : CipherSuite) (server : Server) (events : List MeteredEvent) :
    ∀ i, (run C server events : Metered H).seen i ≤ (run C server events : Metered H).rotateTx := by
  induction events using List.reverseRecOn with
  | nil => exact fun _ => le_rfl
  | append_singleton events e ih =>
    intro i
    rw [run_snoc]
    exact seen_le_step ih e i

/-! ## The rotations a session is told to make -/

/-- The event is a rotation of session `i` that `changed()` has asked for. Rotations by the timer
and by the byte count are no turns. -/
def turn (s : Metered H) (i : Nat) : MeteredEvent → Bool
  | .session j (.arm (.manual true) _) => decide (j = i ∧ s.seen i ≠ s.rotateTx)
  | _ => false

/-- How many of the events are. -/
def turns (C : CipherSuite) (server : Server) (i : Nat) : Metered H → List MeteredEvent → Nat
  | _, [] => 0
  | s, e :: events => (if s.turn i e then 1 else 0) + turns C server i (s.step C server e) events

/-- Such a rotation shows the session all changes: `changed()` marks the newest value as seen,
however many there have been since the last time. -/
theorem seen_of_turn (C : CipherSuite) (server : Server) {e : MeteredEvent}
    (hturn : s.turn i e = true) :
    s.seen i ≠ s.rotateTx ∧ (s.step C server e).seen i = s.rotateTx := by
  unfold turn at hturn
  split at hturn
  · next j env =>
    obtain ⟨rfl, hne⟩ := of_decide_eq_true hturn
    have hready : s.ready j (.arm (.manual true) env) = true := decide_eq_true hne
    refine ⟨hne, ?_⟩
    simp only [step, if_pos hready, move_seen]
    exact Function.update_self ..
  · cases hturn

theorem rotateTx_foldl (events : List MeteredEvent) (s : Metered H) :
    (events.foldl (Metered.step C server) s).rotateTx =
      s.rotateTx + events.countP (MeteredEvent.orders server) := by
  induction events generalizing s with
  | nil => rfl
  | cons e events ih =>
    rw [List.foldl_cons, ih, step_rotateTx, List.countP_cons]
    omega

/-! ## The key of a session from one point of a run on -/

/-- Session `i` has ended, or its key is what `key` was rotated to in at least `n` rotations.
Those that `changed()` did not ask for count as well, which is why it is not an equation. -/
def Since (C : CipherSuite) (i : Nat) (key : Key) (n : Nat) (s : Metered H) : Prop :=
  (s.sessions.conns i).phase = .closed ∨
    ∃ relay names, (s.sessions.conns i).phase = .relaying relay ∧
      relay.channel.keyBytes = rotateAll C key names ∧ n ≤ names.length

theorem conns_step_self (sessions : State H) (j : Nat) (event : Event) :
    (sessions.step C server (j, event)).conns j =
      ((sessions.conns j).step C server event).1 := Function.update_self ..

theorem conns_step_of_ne (sessions : State H) {j k : Nat} (hk : k ≠ j) (event : Event) :
    (sessions.step C server (j, event)).conns k = sessions.conns k := Function.update_of_ne hk ..

theorem Since.session {key : Key} {n : Nat} (h : s.Since C i key n) (server : Server)
    (event : Event) :
    (s.move C server i event).Since C i key
      (n + if s.turn i (.session i event) then 1 else 0) := by
  unfold Since at h ⊢
  rw [move_sessions, conns_step_self]
  rcases h with hclosed | ⟨relay, names, hphase, hkey, hn⟩
  · exact Or.inl (Connection.step_closed hclosed event)
  -- it is relaying: `rotate_rx` has its turn and the relay rotates once, or the event is another
  -- one
  · by_cases hmanual : ∃ env, event = .arm (.manual true) env
    · obtain ⟨env, rfl⟩ := hmanual
      rcases Connection.step_manual C server hphase env with hclosed |
        ⟨relay', hphase', hkey'⟩
      · exact Or.inl hclosed
      · refine Or.inr ⟨relay', names ++ [env.nonce], hphase', ?_, ?_⟩
        · rw [hkey', hkey, rotateAll_append]
        · rw [List.length_append]
          refine Nat.add_le_add hn ?_
          split
          · exact le_rfl
          · exact Nat.zero_le _
    · have hturn : s.turn i (.session i event) = false := by
        unfold turn
        split
        · next heq =>
          cases heq
          exact absurd ⟨_, rfl⟩ hmanual
        · rfl
      rw [hturn]
      -- it may rotate all the same, by its timer or its counter, and then the list only gets longer
      rcases Connection.step_relaying C server hphase event with hclosed |
        ⟨relay', more, hphase', hmore⟩
      · exact Or.inl hclosed
      · refine Or.inr ⟨relay', names ++ more, hphase', ?_, ?_⟩
        · rw [hmore, hkey, rotateAll_append]
        · rw [List.length_append]
          exact hn.trans (Nat.le_add_right ..)

theorem Since.step {key : Key} {n : Nat} (h : s.Since C i key n) (server : Server)
    (e : MeteredEvent) :
    (s.step C server e).Since C i key (n + if s.turn i e then 1 else 0) := by
  -- What another session or the handlers do leaves this one where it is, and is no turn of it.
  have elsewhere : s.turn i e = false →
      (s.step C server e).sessions.conns i = s.sessions.conns i →
      (s.step C server e).Since C i key (n + if s.turn i e then 1 else 0) := by
    intro hturn hconn
    rw [hturn]
    unfold Since
    rw [hconn]
    exact h
  cases e with
  | session j event =>
    by_cases hready : s.ready j event = true
    -- the session's own move is `Since.session`
    · by_cases hj : j = i
      · subst hj
        have hmove := h.session server event
        rw [Metered.step, if_pos hready]
        exact hmove
      · refine elsewhere ?_ ?_
        · unfold turn
          split
          · next heq =>
            cases heq
            exact decide_eq_false fun hand => hj hand.1
          · rfl
        · simp only [Metered.step, if_pos hready, move_sessions]
          exact conns_step_of_ne _ (Ne.symm hj) event
    -- an arm that is not ready is not polled: `rotate_rx.changed()` has nothing new for this
    -- session
    · refine elsewhere ?_ ?_
      · unfold turn
        split
        · next heq =>
          cases heq
          refine decide_eq_false ?_
          rintro ⟨rfl, hne⟩
          exact hready (decide_eq_true hne)
        · rfl
      · simp only [Metered.step, if_neg hready]
  | abort j =>
    have hsessions := (guard_fields
      ({ s with sessions := { s.sessions with
        conns := Function.update s.sessions.conns j ((s.sessions.conns j).goto .closed) } } :
          Metered H) j .closed).1
    by_cases hj : j = i
    · subst hj
      refine Or.inl ?_
      simp only [Metered.step, hsessions]
      show (Function.update s.sessions.conns j _ j).phase = _
      rw [Function.update_self]
      rfl
    · refine elsewhere rfl ?_
      simp only [Metered.step, hsessions]
      exact Function.update_of_ne (Ne.symm hj) ..
  | command cmd =>
    refine elsewhere rfl ?_
    cases cmd with
    | rotate =>
      simp only [Metered.step]
      split <;> rfl
    | unknown => rfl
  | adminRotate => exact elsewhere rfl rfl

theorem Since.foldl {key : Key} {n : Nat} (h : s.Since C i key n) (server : Server)
    (events : List MeteredEvent) :
    (events.foldl (Metered.step C server) s).Since C i key (n + turns C server i s events) := by
  induction events generalizing s n with
  | nil => exact h
  | cons e events ih =>
    have hrest := ih (h.step server e)
    rw [Nat.add_assoc] at hrest
    exact hrest

/-! ## What it has seen since -/

theorem Since.not_connecting {key : Key} {n : Nat} (h : s.Since C i key n) (sessionKey : Key) :
    (s.sessions.conns i).phase ≠ .connecting sessionKey := by
  intro hp
  rcases h with hclosed | ⟨relay, names, hrelaying, -⟩
  · exact absurd (hp.symm.trans hclosed) (by simp)
  · exact absurd (hp.symm.trans hrelaying) (by simp)

/-- A session behind its connection to the backend sees nothing by anything else. -/
theorem Since.seen_of_not_turn {key : Key} {n : Nat} (h : s.Since C i key n) {server : Server}
    {e : MeteredEvent} (hturn : s.turn i e = false) : (s.step C server e).seen i = s.seen i := by
  cases e with
  | session j event =>
    by_cases hready : s.ready j event = true
    · simp only [Metered.step, if_pos hready, move_seen]
      by_cases hj : j = i
      · subst hj
        unfold sees
        split
        · next heq => exact absurd heq (h.not_connecting _)
        · exact absurd hturn (by simp [turn, of_decide_eq_true hready])
        · rfl
      · rcases (sees_fields s j _ event).2.2 with hsame | hseen
        · rw [hsame]
        · rw [hseen, Function.update_of_ne (Ne.symm hj)]
    · simp only [Metered.step, if_neg hready]
  | abort j =>
    simp only [Metered.step]
    rw [(guard_fields _ j _).2.1]
  | command cmd =>
    cases cmd with
    | rotate =>
      simp only [Metered.step]
      split <;> rfl
    | unknown => rfl
  | adminRotate => rfl

/-- A session that is never told has seen nothing new. -/
theorem Since.seen_of_turns_eq_zero {key : Key} {n : Nat} (h : s.Since C i key n) {server : Server}
    {events : List MeteredEvent} (hzero : turns C server i s events = 0) :
    (events.foldl (Metered.step C server) s).seen i = s.seen i := by
  induction events generalizing s n with
  | nil => rfl
  | cons e events ih =>
    obtain ⟨hturn, hrest⟩ := Nat.add_eq_zero_iff.mp hzero
    have hnot : s.turn i e = false := by
      cases ht : s.turn i e with
      | false => rfl
      | true => simp [ht] at hturn
    rw [List.foldl_cons, ih (h.step server e) hrest]
    exact h.seen_of_not_turn hnot

/-- A session is told no more often than there are changes it has not seen. Several changes may be
one notification, which is why this is a bound. -/
theorem Since.turns_le {key : Key} {n : Nat} (h : s.Since C i key n) {server : Server}
    (hseen : ∀ j, s.seen j ≤ s.rotateTx) (events : List MeteredEvent) :
    turns C server i s events + s.seen i ≤
      s.rotateTx + events.countP (MeteredEvent.orders server) := by
  induction events generalizing s n with
  | nil => exact (Nat.zero_add _).trans_le (hseen i)
  | cons e events ih =>
    have hrest := ih (h.step server e) (seen_le_step hseen e)
    have hgrows : (if s.turn i e then 1 else 0) + s.seen i ≤ (s.step C server e).seen i := by
      cases hturn : s.turn i e with
      | false =>
        rw [h.seen_of_not_turn hturn]
        exact (Nat.zero_add _).le
      | true =>
        obtain ⟨hne, hsees⟩ := seen_of_turn C server hturn
        rw [hsees, if_pos rfl, Nat.add_comm]
        exact Nat.lt_of_le_of_ne (hseen i) hne
    rw [step_rotateTx] at hrest
    rw [List.countP_cons]
    show _ + turns C server i (s.step C server e) events + _ ≤ _
    omega

end Metered

/-! ## All together -/

open Metered in
/-- **Every order reaches every session.** From one point of a run to a later one that a session
gets to, where nothing is left for `changed()` to report to it, its key has been rotated: once or
more if there was an order in between, and through orders no more often than there were changes it
had not seen. -/
theorem orders_reach_session (C : CipherSuite) (server : Server) (earlier events :
    List MeteredEvent) (i : Nat) {relay relay' : Relay}
    (hrelay : ((run C server earlier : Metered H).sessions.conns i).phase = .relaying relay)
    (hrelay' : ((run C server (earlier ++ events) : Metered H).sessions.conns i).phase =
      .relaying relay')
    (hcaught : (run C server (earlier ++ events) : Metered H).CaughtUp i) :
    ∃ names, relay'.channel.keyBytes = rotateAll C relay.channel.keyBytes names ∧
      turns C server i (run C server earlier : Metered H) events ≤ names.length ∧
      ((∃ e ∈ events, e.orders server = true) →
        0 < turns C server i (run C server earlier : Metered H) events) ∧
      turns C server i (run C server earlier : Metered H) events +
          (run C server earlier : Metered H).seen i ≤
        (run C server earlier : Metered H).rotateTx +
          events.countP (MeteredEvent.orders server) := by
  have hrun : (run C server (earlier ++ events) : Metered H) =
      events.foldl (Metered.step C server) (run C server earlier) := List.foldl_append
  have hle := seen_le_run (H := H) C server earlier
  rw [hrun] at hrelay' hcaught
  have hstart : (run C server earlier : Metered H).Since C i relay.channel.keyBytes 0 :=
    Or.inr ⟨relay, [], hrelay, rfl, le_rfl⟩
  rcases hstart.foldl server events with hclosed | ⟨relay₁, names, hphase, hkey, hn⟩
  · rw [hrelay'] at hclosed
    cases hclosed
  · rw [hrelay'] at hphase
    cases hphase
    rw [Nat.zero_add] at hn
    refine ⟨names, hkey, hn, ?_, hstart.turns_le hle events⟩
    intro horder
    refine Nat.pos_of_ne_zero fun hzero => ?_
    have hseen := hstart.seen_of_turns_eq_zero hzero
    have hcount : 0 < events.countP (MeteredEvent.orders server) :=
      List.countP_pos_iff.mpr horder
    have hlast : (events.foldl (Metered.step C server) (run C server earlier : Metered H)).seen i =
        _ := hcaught
    rw [hseen, rotateTx_foldl] at hlast
    have hi := hle i
    omega

section Sample

/-- A rotation that is written does not end the session. -/
theorem Relay.iterate_manual_accepts (C : CipherSuite) (cfg : ValidConfig) (r : Relay)
    (gcmNonce : Nonce) (nonce : RotationNonce) (h : r.finished = none) :
    (r.iterate C cfg (.manual true) ⟨.accepts, .accepts, nonce, gcmNonce⟩).1.finished = none := by
  obtain ⟨c, t, hct⟩ := C.aead.exists_encrypt (p := nonce.toList) r.channel.keyBytes gcmNonce
    (u64ToBe r.channel.keyRotateSendSeq).toList (by rw [C.pMax, nonce.toList_length]; decide)
  have hsent : (EncryptedChannel.sendKeyRotate C r.channel .accepts gcmNonce nonce).result =
      .ok () := by
    unfold EncryptedChannel.sendKeyRotate
    dsimp only
    rw [hct]
  unfold Relay.iterate
  rw [if_pos (show Arm.enabled cfg (.manual true) = true from rfl)]
  simp only [Relay.select, if_true]
  unfold Relay.rotate doRotate
  dsimp only
  rw [hsent]
  exact h

theorem Connection.step_manual_accepts (C : CipherSuite) (server : Server) {c : Connection H}
    {relay : Relay} (hp : c.phase = .relaying relay) (h : relay.finished = none) (gcmNonce : Nonce)
    (nonce : RotationNonce) : ∃ relay',
      (c.step C server (.arm (.manual true) ⟨.accepts, .accepts, nonce, gcmNonce⟩)).1.phase =
        .relaying relay' := by
  have hgoes := Relay.iterate_manual_accepts C server.config.toValidConfig relay gcmNonce nonce h
  simp only [Connection.step, hp, Connection.goto, afterRelay, hgoes]
  exact ⟨_, rfl⟩

def sampleRotation : Env := ⟨.accepts, .accepts, Sample.rot 1, Sample.gcm 1⟩

/-- Without an order, a session moves in the metered system as it does outside of it; so the runs
of connections that other modules know are runs of this system. -/
theorem Metered.sessions_run (C : CipherSuite) (server : Server) (events : List (Nat × Event))
    (h : ∀ e ∈ events, ∀ env, e.2 ≠ .arm (.manual true) env) :
    (Metered.run C server (events.map fun e => .session e.1 e.2) : Metered H).sessions =
      State.run C server events := by
  induction events using List.reverseRecOn with
  | nil => rfl
  | append_singleton events e ih =>
    obtain ⟨hevents, he⟩ := List.forall_mem_append.mp h
    replace he := he e List.mem_cons_self
    have hready (s : Metered H) : s.ready e.1 e.2 = true := by
      unfold Metered.ready
      split
      · next env heq => exact absurd heq (he env)
      · rfl
    rw [List.map_append, List.map_singleton, Metered.run_snoc, Metered.step, if_pos (hready _),
      Metered.move_sessions, ih hevents, State.run, State.run, List.foldl_append]
    rfl

/-- A client with its key gets to the relay loop of a bridge that asks for one. -/
theorem exists_relaying (server : Server) (hvk : server.clientVk = some Sample.clientKeys.2) :
    ∃ events key, (∀ e ∈ events, ∀ env, e.2 ≠ Event.arm (.manual true) env) ∧
      ((State.run Sample.suite server events : State Sample.allSigned).conns 0).phase =
        .relaying (.new server.config.toValidConfig key) := by
  obtain ⟨_, _, hhello⟩ := Sample.serverHelloSignedBytes_succeeds (fun _ _ => true)
    (ServerHandshake.new (Sample.rng 3)).1 server.identity.signingKey rfl
    (ServerHandshake.new (H := Sample.allSigned) (Sample.rng 3)).2
  obtain ⟨signed, key, hcomplete⟩ := Sample.exists_response (Sample.rng 3)
  have hrespond : respond (some Sample.clientKeys.2)
      (ServerHandshake.new (H := Sample.allSigned) (Sample.rng 3)).1 signed.toList =
        some (signed.toList, .ok key) := by
    have htake : signed.toList.take clientResponseSignedLen = signed.toList :=
      List.take_of_length_le signed.toList_length.le
    rw [respond, htake, ByteArr.tryInto_toList, Option.map_some, hcomplete]
  refine ⟨[(0, .accept .pqc), (0, .hello (Sample.rng 3) true), (0, .arrive signed.toList),
    (0, .readResponse), (0, .connected true)], key, ?_, ?_⟩
  · intro e he env
    simp only [List.mem_cons, List.not_mem_nil, or_false] at he
    rcases he with rfl | rfl | rfl | rfl | rfl <;> exact fun heq => by cases heq
  · simp only [State.run, List.foldl_cons, List.foldl_nil, State.step, State.new,
      Function.update_self, Connection.new, Connection.step, Connection.goto, Server.context, hhello,
      if_true, hvk, hrespond, List.nil_append]

/-- An order of the admin channel, and the rotation that a session of the sample bridge makes of
it. -/
theorem orders_reach_session_once : ∃ (server : Server) (earlier : List MeteredEvent) (key : Key)
    (relay : Relay) (names : List RotationNonce),
    ((Metered.run Sample.suite server earlier : Metered Sample.allSigned).sessions.conns 0).phase =
      .relaying (.new server.config.toValidConfig key) ∧
    relay.channel.keyBytes = rotateAll Sample.suite key names ∧ 0 < names.length := by
  obtain ⟨-, server, -, -, hvk⟩ := sample_starts
  obtain ⟨events, key, hevents, hphase⟩ := exists_relaying server hvk
  have hsessions := Metered.sessions_run (H := Sample.allSigned) Sample.suite server events hevents
  rw [← hsessions] at hphase
  let earlier : List MeteredEvent := events.map fun e => .session e.1 e.2
  let rotates : List MeteredEvent := [.adminRotate, .session 0 (.arm (.manual true) sampleRotation)]
  let told : Metered Sample.allSigned :=
    (Metered.run Sample.suite server earlier).step Sample.suite server .adminRotate
  have hlast : (Metered.run Sample.suite server (earlier ++ rotates) : Metered Sample.allSigned) =
      told.step Sample.suite server (.session 0 (.arm (.manual true) sampleRotation)) :=
    List.foldl_append
  have hready : told.ready 0 (.arm (.manual true) sampleRotation) = true :=
    decide_eq_true (Nat.ne_of_lt (Nat.lt_succ_of_le
      (Metered.seen_le_run Sample.suite server earlier 0)))
  have hmove : told.step Sample.suite server (.session 0 (.arm (.manual true) sampleRotation)) =
      told.move Sample.suite server 0 (.arm (.manual true) sampleRotation) := if_pos hready
  rw [hmove] at hlast
  obtain ⟨relay, hrelay⟩ := Connection.step_manual_accepts Sample.suite server
    (c := told.sessions.conns 0) hphase rfl (Sample.gcm 1) (Sample.rot 1)
  have hafter : ((Metered.run Sample.suite server (earlier ++ rotates) :
      Metered Sample.allSigned).sessions.conns 0).phase = .relaying relay := by
    rw [hlast, Metered.move_sessions, Metered.conns_step_self]
    exact hrelay
  have hcaught : (Metered.run Sample.suite server (earlier ++ rotates) :
      Metered Sample.allSigned).CaughtUp 0 := by
    unfold Metered.CaughtUp
    rw [hlast, Metered.move_seen, Metered.move_rotateTx]
    show Function.update told.seen 0 told.rotateTx 0 = told.rotateTx
    exact Function.update_self ..
  obtain ⟨names, hkey, hturns, horders, -⟩ := orders_reach_session Sample.suite server earlier
    rotates 0 hphase hafter hcaught
  exact ⟨server, earlier, key, relay, names, hphase, hkey,
    (horders ⟨.adminRotate, List.mem_cons_self, rfl⟩).trans_le hturns⟩

end Sample

end LatticeShield.Bridge
