import LatticeShield.Proof.Reconnect

/-!
# The user's stream across reconnects

The user's side is split once and outlives every connection to the bridge, and `run_relay` may be
left at any arm of it. What holds at every moment is that the bytes passed to `write_frame`, over
all connections in their order, are the ones taken from the user; and that the bytes written to the
user are those of the accepted payloads in their order, up to the one write that failed, after which
the session is over. -/

set_option autoImplicit false

namespace LatticeShield.Client

open Lib

/-! ## What one iteration of the relay passes on -/

namespace Relay

variable {C : CipherSuite} {cfg : ValidClientConfig} {r : Relay}

/-- Whether or not `write_frame` succeeds. -/
theorem onUser_payload (r : Relay) (w : Writer) {buf : Bytes} (hbuf : buf ≠ []) :
    (onUser C r w (.ok buf)).2.map Sent.payload = [.data buf] := by
  cases buf with
  | nil => exact absurd rfl hbuf
  | cons b rest =>
    cases hres : (r.channel.writeFrame C w (b :: rest)).result with
    | error e => simp only [onUser, hres, List.map_cons, List.map_nil]
    | ok u => simp only [onUser, hres, List.map_cons, List.map_nil]

/-- A read of the user goes to `write_frame` as it is, and nothing else does. -/
theorem iterate_passed (hopen : r.userEof = false) (buf : Bytes) (w : Writer) :
    (Session.plaintexts ((r.iterate C cfg (.ok buf) w).2.map Sent.payload)).flatten =
      buf.take cfg.maxFrameSize := by
  unfold iterate
  rw [if_neg (by rw [hopen]; exact Bool.false_ne_true), SocketRead.into]
  cases hbuf : buf.take cfg.maxFrameSize with
  | nil => rfl
  | cons b rest =>
    rw [onUser_payload { r with taken := [] } w (List.cons_ne_nil b rest)]
    exact List.append_nil _

/-- A write to the user that fails ends the relay. -/
theorem receive_userError {b : UInt8} {data : Bytes}
    (h : (r.receive C b false).2 = some (.ok (.data data))) :
    (r.receive C b false).1.outcome = some .userError := by
  unfold receive at h ⊢
  cases hpoll : r.channel.pollFrame C r.taken b with
  | none => rw [hpoll] at h; exact absurd h (by simp)
  | some out =>
    obtain ⟨result, ch⟩ := out
    rw [hpoll] at h
    obtain rfl := Option.some.inj h
    rfl

end Relay

namespace Handle

variable {C : CipherSuite} {cfg : ValidClientConfig} {p : Params} {stream : Bytes} {h : Handle}

def segments (h : Handle) : List Bytes := h.conns.map fun conn => conn.passed.flatten

/-- The payloads accepted so far, as one piece. -/
def acceptedBytes (h : Handle) : Bytes := (h.conns.map fun conn => conn.accepted.flatten).flatten

/-! ## The invariant -/

structure Inv (stream : Bytes) (h : Handle) : Prop where
  /-- A relay runs only where the loop waits for it. -/
  relaying : h.live.isSome = true → h.control.phase = .relaying
  sent : h.segments.flatten ++ h.unread = stream
  received : h.control.phase ≠ .returned → h.toUser = h.acceptedBytes
  written : h.toUser <+: h.acceptedBytes

theorem inv_init (stream : Bytes) : Inv stream (init stream) :=
  ⟨fun h => Bool.noConfusion h, rfl, fun _ => rfl, List.prefix_rfl⟩

/-! ## What a step adds -/

theorem control_settle (relay : Relay) (conn : Conn) :
    (h.settle p relay conn).control = h.control ∨
      ∃ o, (h.settle p relay conn).control = h.control.step p o := by
  unfold settle
  cases relay.outcome with
  | none => exact Or.inl rfl
  | some outcome => exact Or.inr ⟨_, rfl⟩

theorem conns_settle (relay : Relay) (conn : Conn) :
    (h.settle p relay conn).conns = h.past ++ [conn] := by
  unfold settle
  cases relay.outcome with
  | none => rfl
  | some outcome => exact List.append_nil _

theorem toUser_settle (relay : Relay) (conn : Conn) :
    (h.settle p relay conn).toUser = h.toUser := by
  unfold settle
  cases relay.outcome <;> rfl

theorem unread_settle (relay : Relay) (conn : Conn) :
    (h.settle p relay conn).unread = h.unread := by
  unfold settle
  cases relay.outcome <;> rfl

/-- While a relay runs, the loop waits for it; when it has ended, it does not. -/
theorem relaying_settle (hphase : h.control.phase = .relaying) (relay : Relay) (conn : Conn)
    (hlive : (h.settle p relay conn).live.isSome = true) :
    (h.settle p relay conn).control.phase = .relaying := by
  unfold settle at hlive ⊢
  cases houtcome : relay.outcome with
  | none => exact hphase
  | some outcome => rw [houtcome] at hlive; exact absurd hlive (by simp)

/-- A relay that has ended at the user ends the loop. -/
theorem returned_settle (hphase : h.control.phase = .relaying) {relay : Relay}
    (houtcome : relay.outcome = some .userError) (conn : Conn) :
    (h.settle p relay conn).control.phase = .returned := by
  simp only [settle, houtcome, Control.step, hphase, Control.onRelay]

theorem conns_of_live {relay : Relay} {conn : Conn} (hlive : h.live = some (relay, conn)) :
    h.conns = h.past ++ [conn] := by
  rw [conns, hlive]
  rfl

section Live

variable {relay relay' : Relay} {conn conn' : Conn}

/-- An event of the relay that moves bytes from `unread` to the connection, and payloads `got` of
the connection to the user, of which `out` is written. All events of a relay are of this kind,
with one of the two empty. -/
theorem Inv.settle (inv : Inv stream h) (hlive : h.live = some (relay, conn)) {h' : Handle}
    (hcontrol : h'.control = h.control) (hpast : h'.past = h.past) {out got : Bytes}
    (htoUser : h'.toUser = h.toUser ++ out)
    (hpassed : conn'.passed.flatten ++ h'.unread = conn.passed.flatten ++ h.unread)
    (hgot : conn'.accepted.flatten = conn.accepted.flatten ++ got)
    (hout : out = got ∨ (out <+: got ∧ relay'.outcome = some .userError)) :
    Inv stream (h'.settle p relay' conn') := by
  have hphase := inv.relaying (by rw [hlive]; rfl)
  have hphase' : h'.control.phase = .relaying := by rw [hcontrol]; exact hphase
  have hreceived := inv.received (by rw [hphase]; exact Phase.noConfusion)
  have hsent := inv.sent
  have hacc : (h'.settle p relay' conn').acceptedBytes = h.acceptedBytes ++ got := by
    simp only [acceptedBytes, conns_settle, conns_of_live hlive, hpast, List.map_append,
      List.map_cons, List.map_nil, List.flatten_append, List.flatten_cons, List.flatten_nil,
      List.append_nil, hgot, List.append_assoc]
  constructor
  · exact relaying_settle hphase' relay' conn'
  · simp only [segments, conns_of_live hlive, List.map_append, List.map_cons, List.map_nil,
      List.flatten_append, List.flatten_cons, List.flatten_nil, List.append_nil,
      List.append_assoc] at hsent
    simp only [segments, conns_settle, unread_settle, hpast, List.map_append, List.map_cons,
      List.map_nil, List.flatten_append, List.flatten_cons, List.flatten_nil, List.append_nil,
      List.append_assoc, hpassed]
    exact hsent
  · intro hne
    rw [toUser_settle, hacc, htoUser]
    rcases hout with rfl | ⟨-, herr⟩
    · rw [hreceived]
    · exact absurd (returned_settle hphase' herr conn') hne
  · rw [toUser_settle, hacc, htoUser, hreceived]
    rcases hout with rfl | ⟨hpre, -⟩
    · exact List.prefix_rfl
    · exact (List.prefix_append_right_inj _).mpr hpre

theorem passed_append (conn : Conn) (wrote : List FrameResult) :
    ({ conn with wrote := conn.wrote ++ wrote } : Conn).passed.flatten =
      conn.passed.flatten ++ (Session.plaintexts wrote).flatten := by
  rw [Conn.passed, Session.plaintexts_append, List.flatten_append]
  rfl

theorem accepted_append (conn : Conn) (reads : List (Except FrameError FrameResult)) :
    ({ conn with reads := conn.reads ++ reads } : Conn).accepted.flatten =
      conn.accepted.flatten ++ (Session.plaintexts (Session.accepted reads)).flatten := by
  rw [Conn.accepted, Session.accepted_append, Session.plaintexts_append, List.flatten_append]
  rfl

theorem Inv.user (inv : Inv stream h) (hlive : h.live = some (relay, conn)) (n : Nat) (w : Writer) :
    Inv stream (h.onUser C cfg p relay conn n w) := by
  unfold onUser
  by_cases heof : relay.userEof = true
  · rw [if_pos heof]; exact inv
  · rw [if_neg heof]
    have hbuf : (h.unread.take n).take cfg.maxFrameSize <+: h.unread :=
      (List.take_prefix _ _).trans (List.take_prefix _ _)
    have hpassed := @Relay.iterate_passed C cfg relay (Bool.eq_false_iff.mpr heof)
      (h.unread.take n) w
    rcases hiter : relay.iterate C cfg (.ok (h.unread.take n)) w with ⟨relay', wrote⟩
    rw [hiter] at hpassed
    refine inv.settle hlive rfl rfl (List.append_nil _).symm ?_ (List.append_nil _).symm
      (Or.inl rfl)
    rw [passed_append, hpassed, List.append_assoc, List.prefix_iff_eq_append.mp hbuf]

theorem Inv.userError (inv : Inv stream h) (hlive : h.live = some (relay, conn)) :
    Inv stream (h.onUserError C cfg p relay conn) := by
  unfold onUserError
  by_cases heof : relay.userEof = true
  · rw [if_pos heof]; exact inv
  · rw [if_neg heof]
    exact inv.settle hlive rfl rfl (List.append_nil _).symm rfl (List.append_nil _).symm
      (Or.inl rfl)

theorem Inv.bridge (inv : Inv stream h) (hlive : h.live = some (relay, conn)) (b : UInt8)
    (w : Writer) : Inv stream (h.onBridge C p relay conn b w) := by
  unfold onBridge
  rcases hrec : relay.receive C b (decide (w = .accepts)) with ⟨relay', result⟩
  refine inv.settle hlive rfl rfl rfl rfl (accepted_append conn _) ?_
  rcases result with _ | (e | (data | nonce))
  · exact Or.inl rfl
  · exact Or.inl rfl
  · cases w with
    | accepts => exact Or.inl (List.append_nil _).symm
    | failsAfter n =>
      have herr := Relay.receive_userError (congrArg Prod.snd hrec)
      refine Or.inr ⟨(List.take_prefix n data).trans (List.prefix_append _ _), ?_⟩
      exact (congrArg (fun out => Relay.outcome out.1) hrec).symm.trans herr
  · exact Or.inl rfl

theorem Inv.bridgeEof (inv : Inv stream h) (hlive : h.live = some (relay, conn)) :
    Inv stream (h.onBridgeEof C p relay conn) := by
  unfold onBridgeEof
  exact inv.settle hlive rfl rfl (List.append_nil _).symm rfl (accepted_append conn _)
    (Or.inl rfl)

end Live

/-- A call of the loop returns while no relay is running. -/
theorem Inv.control (inv : Inv stream h) (o : Outcome) (hnot : h.live.isSome = false) :
    Inv stream { h with control := h.control.step p o } := by
  refine ⟨fun hlive => absurd hlive (by simp [hnot]), inv.sent, ?_, inv.written⟩
  intro hne
  refine inv.received fun hret => hne ?_
  have hstep : h.control.step p o = h.control :=
    Control.step_eq_self (by rw [hret]; cases o <;> rfl)
  rw [hstep]
  exact hret

theorem Inv.acquired (inv : Inv stream h) (ok : Bool) :
    Inv stream { h with control := h.control.step p (.acquire ok) } := by
  cases hlive : h.live.isSome with
  | false => exact inv.control _ hlive
  | true =>
    -- the loop is in `run_relay` and cannot call `acquire`
    have hstep : h.control.step p (.acquire ok) = h.control :=
      Control.step_eq_self (by rw [inv.relaying hlive]; rfl)
    rw [hstep]
    exact inv

/-- A new connection, on which nothing has been passed or accepted yet. -/
theorem Inv.enter (inv : Inv stream h) (hnone : h.live = none)
    (hopen : h.control.phase ≠ .returned) {control : Control}
    (hphase : control.phase = .relaying) (relay : Relay) :
    Inv stream { h with control, live := some (relay, {}) } := by
  have hconns : ({ h with control, live := some (relay, {}) } : Handle).conns =
      h.conns ++ [⟨[], []⟩] := by
    simp only [conns, hnone, Option.map_some, Option.map_none, Option.toList_some,
      Option.toList_none, List.append_nil]
  have hacc : ({ h with control, live := some (relay, {}) } : Handle).acceptedBytes =
      h.acceptedBytes := by
    rw [acceptedBytes, hconns, List.map_append, List.flatten_append]
    exact List.append_nil _
  refine ⟨fun _ => hphase, ?_, ?_, ?_⟩
  · rw [segments, hconns, List.map_append, List.flatten_append]
    exact (List.append_nil h.segments.flatten).symm ▸ inv.sent
  · intro _
    rw [hacc]; exact inv.received hopen
  · rw [hacc]; exact inv.written

theorem Inv.handshaken (inv : Inv stream h) (result : Except HandshakeError Key) :
    Inv stream (h.onHandshaken cfg p result) := by
  unfold onHandshaken
  cases hlive : h.live.isSome with
  | true =>
    have hphase := inv.relaying hlive
    have hstep : h.control.step p (.handshake result) = h.control :=
      Control.step_eq_self (by rw [hphase]; rfl)
    rw [hstep]
    simp only [hphase]
    exact inv
  | false =>
    have hother := inv.control (p := p) (.handshake result) hlive
    cases hphase : h.control.phase with
    | handshaking =>
      cases result with
      | error e => exact hother
      | ok key =>
        have hnone : h.live = none := Option.not_isSome_iff_eq_none.mp (by simp [hlive])
        have hopen : h.control.phase ≠ .returned := by rw [hphase]; exact Phase.noConfusion
        refine inv.enter hnone hopen ?_ _
        simp only [Control.step, hphase, Control.onHandshake]
    | acquiring => exact hother
    | relaying => exact hother
    | returned => exact hother

theorem Inv.elim (inv : Inv stream h) {f : Relay × Conn → Handle}
    (hf : ∀ relay conn, h.live = some (relay, conn) → Inv stream (f (relay, conn))) :
    Inv stream (h.live.elim h f) := by
  cases hlive : h.live with
  | none => exact inv
  | some live => exact hf live.1 live.2 hlive

theorem Inv.step (inv : Inv stream h) (event : HandleEvent) :
    Inv stream (h.step C cfg p event) := by
  cases event with
  | acquired ok => exact inv.acquired ok
  | handshaken result => exact inv.handshaken result
  | user n w => exact inv.elim fun relay conn hlive => inv.user hlive n w
  | userError => exact inv.elim fun relay conn hlive => inv.userError hlive
  | bridge b w => exact inv.elim fun relay conn hlive => inv.bridge hlive b w
  | bridgeEof => exact inv.elim fun relay conn hlive => inv.bridgeEof hlive

/-- The loop with its bytes moves as the loop does: an event that is none of a call's end leaves
the control alone, and every other is one outcome of it. -/
theorem control_step (h : Handle) (event : HandleEvent) :
    (h.step C cfg p event).control = h.control ∨
      ∃ o, (h.step C cfg p event).control = h.control.step p o := by
  cases event with
  | acquired ok => exact Or.inr ⟨_, rfl⟩
  | handshaken result =>
    refine Or.inr ⟨.handshake result, ?_⟩
    simp only [step, onHandshaken]
    cases h.control.phase <;> cases result <;> rfl
  | user n w =>
    cases hlive : h.live with
    | none => exact Or.inl (by simp only [step, hlive, Option.elim_none])
    | some live =>
      simp only [step, hlive, Option.elim_some, onUser]
      by_cases heof : live.1.userEof = true
      · exact Or.inl (by rw [if_pos heof])
      · rw [if_neg heof]; exact control_settle _ _
  | userError =>
    cases hlive : h.live with
    | none => exact Or.inl (by simp only [step, hlive, Option.elim_none])
    | some live =>
      simp only [step, hlive, Option.elim_some, onUserError]
      by_cases heof : live.1.userEof = true
      · exact Or.inl (by rw [if_pos heof])
      · rw [if_neg heof]; exact control_settle _ _
  | bridge b w =>
    cases hlive : h.live with
    | none => exact Or.inl (by simp only [step, hlive, Option.elim_none])
    | some live => simp only [step, hlive, Option.elim_some]; exact control_settle _ _
  | bridgeEof =>
    cases hlive : h.live with
    | none => exact Or.inl (by simp only [step, hlive, Option.elim_none])
    | some live => simp only [step, hlive, Option.elim_some]; exact control_settle _ _

/-- So its calls and events are in order too. -/
theorem control_orderly (C : CipherSuite) (cfg : ValidClientConfig) (p : Params) (stream : Bytes)
    (events : List HandleEvent) :
    Orderly p.maxRetries (run C cfg p stream events).control.log := by
  suffices inv : (run C cfg p stream events).control.Inv p from inv.orderly
  induction events using List.reverseRecOn with
  | nil => exact Control.inv_init p
  | append_singleton events event ih =>
    rw [run, List.foldl_append, ← run]
    rcases control_step (run C cfg p stream events) event with hsame | ⟨o, hstep⟩
    · exact hsame ▸ ih
    · exact hstep ▸ ih.step o

theorem inv_run (C : CipherSuite) (cfg : ValidClientConfig) (p : Params) (stream : Bytes)
    (events : List HandleEvent) : Inv stream (run C cfg p stream events) := by
  induction events using List.reverseRecOn with
  | nil => exact inv_init stream
  | append_singleton events event ih =>
    rw [run, List.foldl_append, ← run]
    exact ih.step event

end Handle

/-- **The user's stream.** For every stream of the user, every way of reading and writing it and
every sequence of connections that are made and lost: the plaintexts passed to `write_frame`,
connection after connection, are consecutive pieces of the stream, which together are what has
been read of it; and what has been written to the user is a prefix of the payloads accepted,
connection after connection. -/
theorem handle_preserves_stream (C : CipherSuite) (cfg : ValidClientConfig) (p : Params)
    (stream : Bytes) (events : List HandleEvent) :
    ((Handle.run C cfg p stream events).conns.map fun conn => conn.passed.flatten).flatten ++
        (Handle.run C cfg p stream events).unread = stream ∧
      (Handle.run C cfg p stream events).toUser <+:
        ((Handle.run C cfg p stream events).conns.map fun conn => conn.accepted.flatten).flatten :=
  have inv := Handle.inv_run C cfg p stream events
  ⟨inv.sent, inv.written⟩

end LatticeShield.Client
