import LatticeShield.Proof.Delivery

/-!
# What a step of a session does

One lemma for each way a loop moves, so that an invariant of the session is a case analysis over
these and unfolds neither loop. The bridge's arms come in two halves, as in the source: what the
`select!` leaves (`selected`) and the rotation behind it (`rotated`).

`chunk`, `goesOn`, `rotates` and `writes` say of an arm what it is about to do, from its input and
the state before it.
-/

set_option autoImplicit false

namespace LatticeShield

open Lib EncryptedChannel

/-! ## What an arm is about to do -/

theorem SocketRead.chunk_eq_some {size : Nat} {read : SocketRead} {p : Bytes} :
    read.chunk size = some p ↔ read.into size = .ok p ∧ p ≠ [] := by
  unfold SocketRead.chunk
  cases hread : read.into size with
  | err => simp
  | ok buf =>
    cases buf with
    | nil => simp
    | cons b bs =>
      simp only [Option.some.injEq, SocketRead.ok.injEq, iff_self_and]
      rintro rfl
      exact List.cons_ne_nil _ _

theorem SocketRead.length_chunk_le {size : Nat} {read : SocketRead} {p : Bytes}
    (h : read.chunk size = some p) : p.length ≤ size := by
  obtain ⟨hinto, -⟩ := SocketRead.chunk_eq_some.mp h
  cases read with
  | err => exact absurd hinto (by simp [SocketRead.into])
  | ok buf =>
    obtain rfl := SocketRead.ok.inj hinto
    exact List.length_take_le _ _

namespace Bridge

/-- The plaintext an arm writes to the client. -/
def Arm.chunk (cfg : ValidConfig) : Arm → Option Bytes
  | backend read => read.chunk cfg.maxFrameSize
  | timer => none
  | manual _ => none

/-- The arm can complete and the loop goes on behind it. At the end of the backend's stream, or at
an error, the relay returns. -/
def Arm.goesOn (cfg : ValidConfig) : Arm → Bool
  | backend read => (read.chunk cfg.maxFrameSize).isSome
  | timer => cfg.keyRotationEnabled
  | manual _ => true

theorem Arm.length_chunk_le {cfg : ValidConfig} {p : Bytes} (arm : Arm)
    (h : arm.chunk cfg = some p) : p.length ≤ cfg.maxFrameSize := by
  cases arm with
  | backend read => exact SocketRead.length_chunk_le h
  | timer => exact absurd h (by simp [Arm.chunk])
  | manual alive => exact absurd h (by simp [Arm.chunk])

theorem Arm.enabled_of_goesOn {cfg : ValidConfig} (arm : Arm) (h : arm.goesOn cfg = true) :
    arm.enabled cfg = true := by
  cases arm with
  | backend read => rfl
  | timer => exact h
  | manual alive => rfl

/-- The iteration ends with `should_rotate`. -/
def Relay.rotates (cfg : ValidConfig) (r : Relay) : Arm → Bool
  | .backend read =>
    match read.chunk cfg.maxFrameSize with
    | some p => cfg.keyRotationEnabled &&
        decide (cfg.maxBytesPerKey ≤ r.bytesThisEpoch + UInt64.ofNat p.length)
    | none => false
  | .timer => cfg.keyRotationEnabled
  | .manual alive => alive

end Bridge

/-- The plaintext the user's arm writes to the bridge. -/
def Client.Relay.writes (cfg : ValidClientConfig) (r : Relay) (read : SocketRead) :
    Option Bytes :=
  if r.userEof then none else read.chunk cfg.maxFrameSize

theorem Client.Relay.writes_eq_some {cfg : ValidClientConfig} {r : Relay} {read : SocketRead}
    {p : Bytes} : r.writes cfg read = some p ↔
      r.userEof = false ∧ read.chunk cfg.maxFrameSize = some p := by
  unfold Client.Relay.writes
  cases r.userEof <;> simp

theorem length_le_gcmPMax {size : Nat} (h : ValidFrameSize size) {p : Bytes}
    (hp : p.length ≤ size) : p.length ≤ gcmPMax := by
  have := h.2
  unfold gcmPMax
  omega

/-- A stream that takes everything makes `write_frame` succeed. -/
theorem writeFrame_reliable (C : CipherSuite) (ch : EncryptedChannel) {p : Bytes}
    (hp : p.length ≤ gcmPMax) :
    writeFrame C ch .accepts p =
      ⟨.ok (), { ch with sendSeq := ch.sendSeq + 1 }, (writeFrame C ch .accepts p).bytes⟩ := by
  obtain ⟨ct, tag, -, -, hwrite⟩ := writeFrame_accepts C ch hp
  rw [hwrite]

theorem writeFrame_bytes_ne_nil (C : CipherSuite) (ch : EncryptedChannel) {p : Bytes}
    (hp : p.length ≤ gcmPMax) : (writeFrame C ch .accepts p).bytes ≠ [] := by
  obtain ⟨ct, tag, -, -, hwrite⟩ := writeFrame_accepts C ch hp
  rw [hwrite]
  simp [dataFrame]

namespace Session

variable (C : CipherSuite) (S : Setup) (s : Session)

/-! ## The client's reads -/

/-- Whatever bytes the client reads, it follows a rotation or its sending half stays as it is. A
byte completes one frame at most. -/
theorem client_receive_cases (r : Client.Relay) (b : UInt8) (takes : Bool) :
    (rotations (accepted (r.receive C b takes).2.toList) = 0 ∧
      (r.receive C b takes).1.channel.sendSeq = r.channel.sendSeq) ∨
    rotations (accepted (r.receive C b takes).2.toList) = 1 := by
  unfold Client.Relay.receive pollFrame
  cases hrun : (readFrame C.aead.decrypt r.channel).run (r.taken ++ [b]) with
  | none => exact Or.inl ⟨rfl, rfl⟩
  | some x =>
    obtain ⟨⟨result, ch⟩, rest⟩ := x
    cases result with
    | error e =>
      obtain rfl := readFrame_error hrun
      exact Or.inl ⟨rfl, rfl⟩
    | ok i =>
      rcases readFrame_ok_cases hrun with
        ⟨len, seq, nonce, ct, tag, p, rfl, -, -, rfl⟩ | ⟨gcmNonce, ct, tag, n, rfl, -⟩
      · refine Or.inl ⟨rfl, ?_⟩
        cases takes <;> rfl
      · exact Or.inr rfl

/-- Whatever bytes the bridge reads, its sending half stays as it is: a KEY_ROTATE of the client
does not rotate the bridge. -/
theorem bridge_receive_sending_half (r : Bridge.Relay) (b : UInt8) (takes : Bool) :
    (r.receive C b takes).1.channel.keyBytes = r.channel.keyBytes ∧
      (r.receive C b takes).1.channel.sendSeq = r.channel.sendSeq ∧
      (r.receive C b takes).1.channel.keyRotateSendSeq = r.channel.keyRotateSendSeq := by
  unfold Bridge.Relay.receive pollFrame
  cases hrun : (readFrame C.aead.decrypt r.channel).run (r.taken ++ [b]) with
  | none => exact ⟨rfl, rfl, rfl⟩
  | some x =>
    obtain ⟨⟨result, ch⟩, rest⟩ := x
    have hfinal : ({ r with channel := ch, taken := [] }.onFrame takes result).channel = ch := by
      unfold Bridge.Relay.onFrame Bridge.Relay.finish
      split
      · split
        · rfl
        · split <;> rfl
      · rfl
      · rfl
    simp only [Option.map_some, hfinal]
    cases result with
    | error e =>
      obtain rfl := readFrame_error hrun
      exact ⟨rfl, rfl, rfl⟩
    | ok i =>
      rcases readFrame_ok_cases hrun with
        ⟨len, seq, nonce, ct, tag, p, -, -, -, rfl⟩ | ⟨gcmNonce, ct, tag, n, -, -, -, -, rfl⟩
      · exact ⟨rfl, rfl, rfl⟩
      · exact ⟨rfl, rfl, rfl⟩

/-- Only what it writes is counted. -/
theorem bridge_receive_bytesThisEpoch (r : Bridge.Relay) (b : UInt8) (takes : Bool) :
    (r.receive C b takes).1.bytesThisEpoch = r.bytesThisEpoch := by
  have hframe : ∀ (r : Bridge.Relay) (result : Except FrameError FrameResult),
      (r.onFrame takes result).bytesThisEpoch = r.bytesThisEpoch := by
    intro r result
    rcases result with e | (data | nonce)
    · rfl
    · unfold Bridge.Relay.onFrame
      by_cases hempty : data = []
      · simp [hempty, Bridge.Relay.finish]
      · cases takes <;> simp [hempty, Bridge.Relay.finish]
    · rfl
  unfold Bridge.Relay.receive
  cases r.channel.pollFrame C r.taken b with
  | none => rfl
  | some x => exact hframe _ x.1

/-! ## What reading leaves alone -/

/-- Nothing has been sent, and nothing counted. Steps that read are all of this kind. -/
structure SameSent (s s' : Session) : Prop where
  bridgeSent : s'.bridgeSent = s.bridgeSent
  clientSent : s'.clientSent = s.clientSent
  bytesThisEpoch : s'.bridge.bytesThisEpoch = s.bridge.bytesThisEpoch

theorem bridgeByte_sameSent (takes : Bool) : SameSent s (s.bridgeByte C takes) := by
  unfold Session.bridgeByte
  cases s.up.unread with
  | nil => exact ⟨rfl, rfl, rfl⟩
  | cons b more => exact ⟨rfl, rfl, bridge_receive_bytesThisEpoch C s.bridge b takes⟩

theorem bridgeByte_client (takes : Bool) : (s.bridgeByte C takes).client = s.client := by
  unfold Session.bridgeByte
  cases s.up.unread <;> rfl

theorem bridgeEof_sameSent : SameSent s s.bridgeEof := by
  unfold Session.bridgeEof
  split <;> exact ⟨rfl, rfl, rfl⟩

theorem clientByte_bridge (takes : Bool) : (s.clientByte C takes).bridge = s.bridge := by
  unfold Session.clientByte
  cases s.down.unread <;> rfl

theorem clientByte_sameSent (takes : Bool) : SameSent s (s.clientByte C takes) := by
  unfold Session.clientByte
  cases s.down.unread <;> exact ⟨rfl, rfl, rfl⟩

theorem clientEof_bridge : (s.clientEof C).bridge = s.bridge := by
  unfold Session.clientEof
  split <;> rfl

theorem clientEof_sameSent : SameSent s (s.clientEof C) := by
  unfold Session.clientEof
  split <;> exact ⟨rfl, rfl, rfl⟩

/-! ## The bridge's arms -/

/-- The session after the `select!`, before the rotation it may ask for. Invariants are kept by
each half of the iteration. -/
def selected (arm : Bridge.Arm) : Session :=
  let sel := s.bridge.select C S.bridge .accepts arm
  { s with
    bridge := sel.relay
    down := s.down.write (sel.wrote.map Sent.bytes)
    bridgeSent := s.bridgeSent ++ sel.wrote.map Sent.payload }

def rotated (draw : Draw) : Session :=
  { s with
    bridge := { s.bridge with
      channel := { s.bridge.channel with
        keyRotateSendSeq := s.bridge.channel.keyRotateSendSeq + 1 }.rotateKey C draw.nonce
      bytesThisEpoch := 0 }
    down := s.down.write
      [(sendKeyRotate C s.bridge.channel .accepts draw.gcmNonce draw.nonce).bytes]
    bridgeSent := s.bridgeSent ++ [.keyRotate draw.nonce] }

theorem rotate_reliable (r : Bridge.Relay) (draw : Draw) :
    r.rotate C (reliable draw) =
      ({ r with
          channel := { r.channel with
            keyRotateSendSeq := r.channel.keyRotateSendSeq + 1 }.rotateKey C draw.nonce
          bytesThisEpoch := 0 },
        [⟨.keyRotate draw.nonce,
          (sendKeyRotate C r.channel .accepts draw.gcmNonce draw.nonce).bytes⟩]) := by
  obtain ⟨ct, tag, -, -, hsend⟩ := sendKeyRotate_accepts C r.channel draw.gcmNonce draw.nonce
  simp only [Bridge.Relay.rotate, Bridge.doRotate, reliable, hsend]

theorem bridgeArm_eq (arm : Bridge.Arm) (draw : Draw) (hen : arm.enabled S.bridge = true) :
    s.bridgeArm C S arm draw =
      if (s.bridge.select C S.bridge .accepts arm).shouldRotate then
        (s.selected C S arm).rotated C draw
      else s.selected C S arm := by
  unfold bridgeArm Bridge.Relay.iterate
  rw [if_pos hen]
  dsimp only [reliable]
  split
  · have hrot := rotate_reliable C (s.bridge.select C S.bridge .accepts arm).relay draw
    simp only [reliable] at hrot
    simp only [hrot, selected, rotated, List.map_append, List.map_cons, List.map_nil,
      Wire.write_append, List.append_assoc]
  · rfl

theorem bridgeArm_disabled (arm : Bridge.Arm) (draw : Draw)
    (hen : arm.enabled S.bridge = false) : s.bridgeArm C S arm draw = s := by
  simp [bridgeArm, Bridge.Relay.iterate, hen]

/-- An arm behind which the loop does not go on: it cannot complete, or it ends the loop. In
neither case does the session write anything. -/
theorem bridgeArm_stops (arm : Bridge.Arm) (draw : Draw) (hgo : arm.goesOn S.bridge = false) :
    s.bridgeArm C S arm draw = s ∨
      ∃ f, s.bridgeArm C S arm draw =
        { s with bridge := { s.bridge with taken := [], finished := some f } } := by
  cases arm with
  | manual alive => exact absurd hgo (by simp [Bridge.Arm.goesOn])
  | timer => exact Or.inl (bridgeArm_disabled C S s _ draw hgo)
  | backend read =>
    rw [Bridge.Arm.goesOn, Option.isSome_eq_false_iff, Option.isNone_iff_eq_none] at hgo
    rw [bridgeArm_eq C S s _ draw rfl]
    unfold SocketRead.chunk at hgo
    cases hread : read.into S.bridge.maxFrameSize with
    | err =>
      exact Or.inr ⟨.backendError, by
        simp [selected, Bridge.Relay.select, hread, Bridge.Relay.onBackend, Bridge.Relay.finish]⟩
    | ok buf =>
      cases buf with
      | nil =>
        exact Or.inr ⟨.backendClosed, by
          simp [selected, Bridge.Relay.select, hread, Bridge.Relay.onBackend,
            Bridge.Relay.finish]⟩
      | cons b bs => exact absurd hgo (by simp [hread])

/-- The session once the bridge has written `p`. -/
def bridgeWrote (p : Bytes) (bytesThisEpoch : UInt64) : Session :=
  { s with
    bridge := { s.bridge with
      channel := { s.bridge.channel with sendSeq := s.bridge.channel.sendSeq + 1 }
      taken := []
      bytesThisEpoch := bytesThisEpoch }
    down := s.down.write [(writeFrame C s.bridge.channel .accepts p).bytes]
    bridgeSent := s.bridgeSent ++ [.data p] }

/-- An arm behind which the loop goes on: it writes its chunk, if it has one, and drops the
pending `read_frame`. The bytes that this has taken are gone, which is where every loss of client
data begins. -/
theorem selected_goesOn (arm : Bridge.Arm) (hgo : arm.goesOn S.bridge = true) :
    (s.bridge.select C S.bridge .accepts arm).shouldRotate =
        s.bridge.rotates S.bridge arm ∧
      ((arm.chunk S.bridge = none ∧
          s.selected C S arm = { s with bridge := { s.bridge with taken := [] } }) ∨
        ∃ p, arm.chunk S.bridge = some p ∧ s.selected C S arm =
          s.bridgeWrote C p (s.bridge.bytesThisEpoch + UInt64.ofNat p.length)) := by
  cases arm with
  | manual alive =>
    exact ⟨rfl, Or.inl ⟨rfl, by simp [selected, Bridge.Relay.select]⟩⟩
  | timer =>
    exact ⟨hgo.symm, Or.inl ⟨rfl, by simp [selected, Bridge.Relay.select]⟩⟩
  | backend read =>
    obtain ⟨p, hp⟩ := Option.isSome_iff_exists.mp hgo
    obtain ⟨hinto, hne⟩ := SocketRead.chunk_eq_some.mp hp
    have hw := writeFrame_reliable C s.bridge.channel
      (length_le_gcmPMax S.bridge.validFrameSize (SocketRead.length_chunk_le hp))
    obtain ⟨b, bs, rfl⟩ := List.exists_cons_of_ne_nil hne
    simp only [Bridge.Relay.select, hinto, Bridge.Relay.onBackend, Bridge.Relay.rotates, hp]
    rw [hw]
    refine ⟨rfl, Or.inr ⟨b :: bs, hp, ?_⟩⟩
    simp only [selected, Bridge.Relay.select, hinto, Bridge.Relay.onBackend]
    rw [hw]
    rfl

/-! ## The user's arm -/

/-- The session once the client has written `p`. -/
def clientWrote (p : Bytes) : Session :=
  { s with
    client := { s.client with
      channel := { s.client.channel with sendSeq := s.client.channel.sendSeq + 1 }
      taken := [] }
    up := s.up.write [(writeFrame C s.client.channel .accepts p).bytes]
    clientSent := s.clientSent ++ [.data p] }

theorem clientArm_writes {read : SocketRead} {p : Bytes}
    (h : s.client.writes S.client read = some p) : s.clientArm C S read = s.clientWrote C p := by
  obtain ⟨heof, hchunk⟩ := Client.Relay.writes_eq_some.mp h
  obtain ⟨hinto, hne⟩ := SocketRead.chunk_eq_some.mp hchunk
  have hw := writeFrame_reliable C s.client.channel
    (length_le_gcmPMax S.client.validFrameSize (SocketRead.length_chunk_le hchunk))
  obtain ⟨b, bs, rfl⟩ := List.exists_cons_of_ne_nil hne
  have hopen : ¬ s.client.userEof = true := Bool.eq_false_iff.mp heof
  simp only [clientArm, Client.Relay.iterate, if_neg hopen, hinto, Client.Relay.onUser]
  rw [hw]
  rfl

/-- What the user's arm does when it writes nothing: it is off, or the user's stream ended, or the
read failed. -/
theorem clientArm_quiet {read : SocketRead} (h : s.client.writes S.client read = none) :
    s.clientArm C S read = s ∨
      (s.client.userEof = false ∧ read ≠ .err ∧ s.clientArm C S read =
        { s with client := { s.client with taken := [], userEof := true } }) ∨
      (read = .err ∧ s.clientArm C S read =
        { s with client := { s.client with taken := [], outcome := some .userError } }) := by
  unfold Client.Relay.writes at h
  cases heof : s.client.userEof with
  | true => exact Or.inl (by simp [clientArm, Client.Relay.iterate, heof])
  | false =>
    rw [heof, if_neg Bool.false_ne_true] at h
    unfold SocketRead.chunk at h
    cases read with
    | err =>
      exact Or.inr (Or.inr ⟨rfl, by
        simp [clientArm, Client.Relay.iterate, heof, SocketRead.into, Client.Relay.onUser]⟩)
    | ok buf =>
      cases htake : buf.take S.client.maxFrameSize with
      | nil =>
        refine Or.inr (Or.inl ⟨rfl, by simp, ?_⟩)
        simp [clientArm, Client.Relay.iterate, heof, SocketRead.into, htake, Client.Relay.onUser]
      | cons b bs => exact absurd h (by simp [SocketRead.into, htake])

end Session

end LatticeShield
