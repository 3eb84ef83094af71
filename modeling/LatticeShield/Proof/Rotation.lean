import LatticeShield.Crypto.Sample
import LatticeShield.Lib.Runs
import LatticeShield.Proof.SessionSteps

/-!
# Client data across a key rotation

The bridge changes its key as soon as it has written KEY_ROTATE; the client changes its own when
it has read that frame. What the client wrote in between is sealed under a key the bridge no longer
has, and so is what it had written before and the bridge had not read yet. There is no
acknowledgement and no old key to fall back on, so such a frame does not decrypt
(`crossing_frame_lost`), and the bridge ends the session.

`RotatesQuietly` is what has to be true of each step for this not to happen: the bridge rotates
when it has read everything the client wrote, and the client writes when it has followed every
rotation the bridge has made. It also leaves out what loses client data without any rotation: a
`read_frame` dropped half-way, a frame larger than the bridge accepts, a counter that wraps. Then
every client frame that reaches the bridge is decrypted to what the client wrote, in order
(`client_data_decrypted`). The argument looks only at the direction from client to bridge; how the
client came to hold the bridge's key does not matter to it.
-/

set_option autoImplicit false

namespace LatticeShield

open Lib EncryptedChannel

namespace Session

/-! ## The property and the condition -/

/-- Every client frame delivered to the bridge was decrypted to its plaintext, in order, and no
`read_frame` of the bridge failed but for the end of the stream. -/
structure ClientDataDecrypted (s : Session) : Prop where
  inOrder : accepted s.bridgeReads <+: s.clientSent
  delivered : ∀ k ≤ s.up.frames.length,
    (s.up.frames.take k).flatten.length ≤ s.up.consumed → k ≤ (accepted s.bridgeReads).length
  onlyEof : ∀ e, .error e ∈ s.bridgeReads → e = .io .unexpectedEof

/-- The condition on a step, in the state before it. -/
def RotatesQuietly (S : Setup) (s : Session) : Op → Prop
  | .bridgeArm arm _ =>
    s.bridge.finished = none → arm.goesOn S.bridge = true →
      s.bridge.taken = [] ∧ (s.bridge.rotates S.bridge arm = true → s.up.unread = [])
  | .clientArm read =>
    s.bridge.finished = none → s.client.outcome = none →
      ∀ p ∈ s.client.writes S.client read,
        s.rotationsMade = s.rotationsApplied ∧
          s.client.channel.keyBytes = s.bridge.channel.keyBytes ∧
          p.length ≤ S.bridge.maxFrameSize ∧ s.client.channel.sendSeq.toNat + 1 < 2 ^ 64
  | _ => True

instance (S : Setup) (s : Session) : ∀ op, Decidable (RotatesQuietly S s op)
  | .bridgeArm _ _ => inferInstanceAs (Decidable (s.bridge.finished = none → _))
  | .clientArm _ => inferInstanceAs (Decidable (s.bridge.finished = none → _))
  | .bridgeByte _ => .isTrue trivial
  | .bridgeEof => .isTrue trivial
  | .clientByte _ => .isTrue trivial
  | .clientEof => .isTrue trivial

/-! ## The invariant -/

/-- How the client agrees with the bridge's tail. A tail that has accepted a frame belongs to an
epoch the client has reached; if the client is still in it, its next seq is later. So the next
frame of the client, written when it is in step, is none that the bridge takes for a replay. -/
def InStep (made applied : Nat) (sendSeq : UInt64) (tail : EncryptedChannel) : Prop :=
  tail.recvInitialized = true → made ≤ applied ∧ (made = applied → tail.recvSeq < sendSeq)

structure UpInv (C : CipherSuite) (S : Setup) (s : Session) : Prop where
  lane : Lane C (s.bridge.finished = none)
    (InStep s.rotationsMade s.rotationsApplied s.client.channel.sendSeq)
    s.bridge.channel s.bridge.taken s.up s.bridgeReads s.clientSent s.bridge.toBackend
  frameSize : s.bridge.channel.maxFrameSize = S.bridge.maxFrameSize
  plain : ∀ i ∈ s.clientSent, ∃ p, p ≠ [] ∧ i = .data p

variable {C : CipherSuite} {S : Setup} {s : Session}

theorem upInv_start (C : CipherSuite) (S : Setup) : UpInv C S (start S) where
  lane := Lane.start fun h => absurd h (by simp [start, Bridge.Relay.new, EncryptedChannel.new])
  frameSize := rfl
  plain := fun _ hi => absurd hi (by simp [start])

/-- The client never sends KEY_ROTATE. What it sends is read under the key it had, and the bridge
may have left that one. -/
theorem UpInv.rotations_clientSent (h : UpInv C S s) : rotations s.clientSent = 0 := by
  apply List.countP_eq_zero.mpr
  intro i hi
  obtain ⟨p, -, rfl⟩ := h.plain i hi
  simp

/-- So the bridge's tail has the bridge's key. -/
theorem UpInv.tail_keyBytes (h : UpInv C S s) {tail : EncryptedChannel}
    (hread : Reading C s.bridge.channel s.bridge.taken s.up (accepted s.bridgeReads) s.clientSent
      tail) : tail.keyBytes = s.bridge.channel.keyBytes := by
  refine hread.keyBytes_eq ?_
  obtain ⟨rest, hrest⟩ := h.lane.inOrder
  have hzero := h.rotations_clientSent
  rw [← hrest, rotations_append] at hzero ⊢
  omega

/-! ## Steps of the bridge -/

theorem UpInv.bridgeByte (h : UpInv C S s) (hlive : s.bridge.finished = none) (takes : Bool) :
    UpInv C S (s.bridgeByte C takes) := by
  unfold Session.bridgeByte
  cases hun : s.up.unread with
  | nil => exact h
  | cons b more =>
    rcases h.lane.feed hlive hun with ⟨i, ch', hpoll, hi, hmax, hgo, hstop⟩ | ⟨hpoll, hlane⟩
    · -- the frame is complete, and it is one the client wrote
      obtain ⟨p, hp, rfl⟩ := h.plain i hi
      have hsize : ch'.maxFrameSize = S.bridge.maxFrameSize := by
        rw [← h.frameSize]
        exact hmax
      simp only [Bridge.Relay.receive, hpoll, Bridge.Relay.onFrame, if_neg hp]
      cases takes with
      | true => exact ⟨hgo, hsize, h.plain⟩
      | false => exact ⟨hstop _ (by simp [Bridge.Relay.finish]), hsize, h.plain⟩
    · simp only [Bridge.Relay.receive, hpoll, Option.toList_none, List.append_nil]
      exact ⟨hlane, h.frameSize, h.plain⟩

theorem UpInv.bridgeEof (h : UpInv C S s) : UpInv C S s.bridgeEof := by
  unfold Session.bridgeEof
  split
  · exact ⟨h.lane.stop_eof (by simp [Bridge.Relay.receiveEof, Bridge.Relay.onFrame,
      Bridge.Relay.finish]) _ _, h.frameSize, h.plain⟩
  · exact h

/-- The bridge writes DATA: its receiving half stays as it is. -/
theorem UpInv.bridgeWrote (h : UpInv C S s) (hlive : s.bridge.finished = none)
    (htaken : s.bridge.taken = []) (p : Bytes) (n : UInt64) :
    UpInv C S (s.bridgeWrote C p n) := by
  obtain ⟨tail, hread, hag⟩ := h.lane.reading hlive
  rw [htaken] at hread
  obtain ⟨q, k, hread'⟩ := hread.withSend (s.bridge.channel.sendSeq + 1)
    s.bridge.channel.keyRotateSendSeq
  refine ⟨Lane.of_reading hread' ?_ h.lane.forwarded_eq h.lane.forwarded_isPrefix h.lane.onlyEof,
    h.frameSize, h.plain⟩
  simpa [InStep, rotationsMade, rotationsApplied, Session.bridgeWrote, withSend] using hag

/-- The bridge rotates, having read everything: the new epoch's receiving half is a fresh one.
With something of the client unread there would be a frame under the old key in front of a reader
with the new one. -/
theorem UpInv.rotated (h : UpInv C S s) (hlive : s.bridge.finished = none)
    (hun : s.up.unread = []) (draw : Draw) : UpInv C S (s.rotated C draw) := by
  obtain ⟨tail, hread, -⟩ := h.lane.reading hlive
  obtain ⟨-, -, htaken⟩ := hread.drained hun
  refine ⟨?_, h.frameSize, h.plain⟩
  have hread' := hread.of_drained hun (s.rotated C draw).bridge.channel
  rw [← htaken] at hread'
  refine Lane.of_reading hread' (fun hinit => absurd hinit ?_) h.lane.forwarded_eq
    h.lane.forwarded_isPrefix h.lane.onlyEof
  simp [Session.rotated, rotateKey]

theorem UpInv.dropTaken (h : UpInv C S s) (htaken : s.bridge.taken = []) :
    UpInv C S { s with bridge := { s.bridge with taken := [] } } :=
  ⟨htaken ▸ h.lane, h.frameSize, h.plain⟩

theorem UpInv.bridgeArm (h : UpInv C S s) (hlive : s.bridge.finished = none) {arm : Bridge.Arm}
    {draw : Draw} (hok : RotatesQuietly S s (.bridgeArm arm draw)) :
    UpInv C S (s.bridgeArm C S arm draw) := by
  cases hgo : arm.goesOn S.bridge with
  | false =>
    rcases bridgeArm_stops C S s arm draw hgo with heq | ⟨f, heq⟩
    · rw [heq]; exact h
    · rw [heq]; exact ⟨h.lane.stop (by simp) _ _, h.frameSize, h.plain⟩
  | true =>
    obtain ⟨htaken, hdrain⟩ := hok hlive hgo
    obtain ⟨hrot, hsel⟩ := selected_goesOn C S s arm hgo
    -- the first half keeps the loop running and touches neither `up` nor what was read from it
    have hmid : UpInv C S (s.selected C S arm) ∧
        (s.selected C S arm).bridge.finished = none ∧ (s.selected C S arm).up = s.up := by
      rcases hsel with ⟨-, heq⟩ | ⟨p, -, heq⟩
      · rw [heq]; exact ⟨h.dropTaken htaken, hlive, rfl⟩
      · rw [heq]; exact ⟨h.bridgeWrote hlive htaken p _, hlive, rfl⟩
    rw [bridgeArm_eq C S s arm draw (arm.enabled_of_goesOn hgo), hrot]
    split
    · rename_i hr
      exact hmid.1.rotated hmid.2.1 (by rw [hmid.2.2]; exact hdrain hr) draw
    · exact hmid.1

/-! ## Steps of the client -/

/-- A rotation the client follows only takes it further away from what it wrote before. -/
theorem InStep.follow {made applied : Nat} {sendSeq : UInt64} {tail : EncryptedChannel}
    (h : InStep made applied sendSeq tail) (sendSeq' : UInt64) :
    InStep made (applied + 1) sendSeq' tail := by
  intro hinit
  have hle := (h hinit).1
  exact ⟨by omega, fun heq => absurd heq (by omega)⟩

theorem UpInv.clientByte (h : UpInv C S s) (takes : Bool) : UpInv C S (s.clientByte C takes) := by
  unfold Session.clientByte
  cases hun : s.down.unread with
  | nil => exact h
  | cons b more =>
    refine ⟨h.lane.mono ?_, h.frameSize, h.plain⟩
    intro tail hag
    simp only [rotationsMade, rotationsApplied, accepted_append, rotations_append]
    rcases client_receive_cases C s.client b takes with ⟨hrot, hseq⟩ | hrot
    · rw [hrot, hseq]; exact hag
    · rw [hrot]; exact InStep.follow hag _

theorem UpInv.clientEof (h : UpInv C S s) : UpInv C S (s.clientEof C) := by
  unfold Session.clientEof
  split
  · refine ⟨h.lane.mono ?_, h.frameSize, h.plain⟩
    intro tail hag
    simpa [InStep, rotationsMade, rotationsApplied, Client.Relay.receiveEof,
      Client.Relay.onFrame] using hag
  · exact h

theorem lt_sendSeq_succ {q : UInt64} (h : q.toNat + 1 < 2 ^ 64) : q < q + 1 := by
  refine UInt64.lt_add_one ?_
  rintro rfl
  exact absurd h (by decide)

theorem UpInv.clientArm (h : UpInv C S s) (hout : s.client.outcome = none) {read : SocketRead}
    (hok : RotatesQuietly S s (.clientArm read)) : UpInv C S (s.clientArm C S read) := by
  cases hw : s.client.writes S.client read with
  | none =>
    rcases clientArm_quiet C S s hw with heq | ⟨-, -, heq⟩ | ⟨-, heq⟩ <;>
      · rw [heq]; exact ⟨h.lane, h.frameSize, h.plain⟩
  | some p =>
    obtain ⟨-, hchunk⟩ := Client.Relay.writes_eq_some.mp hw
    have hne := (SocketRead.chunk_eq_some.mp hchunk).2
    have hgcm := length_le_gcmPMax S.client.validFrameSize (SocketRead.length_chunk_le hchunk)
    rw [clientArm_writes C S s hw]
    refine ⟨h.lane.write (writeFrame_bytes_ne_nil C _ hgcm) ?_,
      h.frameSize, ?_⟩
    · intro hlive tail hread hag
      obtain ⟨hrot, hkey, hp, hseq⟩ := hok hlive hout p hw
      have hmax : tail.maxFrameSize = S.bridge.maxFrameSize := by
        rw [hread.maxFrameSize_eq, h.frameSize]
      obtain ⟨bytes, hwrite, hdel⟩ := writeFrame_delivers (C := C) (R := tail) s.client.channel
        (hmax ▸ S.bridge.validFrameSize) (hmax ▸ hp) (by rw [h.tail_keyBytes hread, hkey])
        fun hinit => (hag hinit).2 hrot
      refine ⟨_, by rw [hwrite]; exact hdel, fun _ => ⟨?_, ?_⟩⟩
      · simpa [rotationsMade, rotationsApplied, clientWrote] using Nat.le_of_eq hrot
      · intro _
        exact lt_sendSeq_succ hseq
    · intro i hi
      rcases List.mem_append.mp hi with hi | hi
      · exact h.plain i hi
      · exact ⟨p, hne, List.mem_singleton.mp hi⟩

/-! ## Whole runs -/

theorem UpInv.step (h : UpInv C S s) {op : Op} (hok : RotatesQuietly S s op) :
    UpInv C S (s.step C S op) := by
  unfold Session.step
  split
  · rename_i hrun
    cases op with
    | bridgeByte takes => exact h.bridgeByte hrun takes
    | bridgeEof => exact h.bridgeEof
    | bridgeArm arm draw => exact h.bridgeArm hrun hok
    | clientByte takes => exact h.clientByte takes
    | clientEof => exact h.clientEof
    | clientArm read => exact h.clientArm hrun hok
  · exact h

theorem UpInv.decrypted (h : UpInv C S s) : ClientDataDecrypted s where
  inOrder := h.lane.inOrder
  delivered := h.lane.delivered.whole
  onlyEof := h.lane.onlyEof

/-- **Rotation loses no client data as long as it is quiet.** A step is quiet when it drops no
`read_frame` half-way, the bridge rotates only with nothing of the client unread, and the client
writes only when it has followed every rotation. What is read, and in which pieces, is free. -/
theorem client_data_decrypted (C : CipherSuite) (S : Setup) {ops : List Op}
    (h : Meets (step C S) (RotatesQuietly S) (start S) ops) :
    ClientDataDecrypted (after C S ops) :=
  (h.invariant (fun _ _ hs hok => UpInv.step hs hok) (upInv_start C S)).decrypted

end Session

/-! ## Two runs -/

namespace Sample

open Session

/-- Both configurations as they are by default, with rotation on. -/
def setup : Setup where
  bridge := ⟨frameSize, true, 10737418240, by decide, by decide⟩
  client := ⟨frameSize, by decide⟩
  sessionKey := key

def draw : Draw := ⟨rot 7, gcm 9⟩

/-- The bridge rotates, the client follows and writes, and the bridge reads it. -/
def quietRun : List Op :=
  [.bridgeArm .timer draw] ++ List.replicate 61 (.clientByte true) ++
    [.clientArm (.ok [1, 2, 3])] ++ List.replicate 44 (.bridgeByte true)

/-- The client's frame and the bridge's KEY_ROTATE cross. -/
def crossingRun : List Op :=
  [.clientArm (.ok [1, 2, 3]), .bridgeArm .timer draw] ++ List.replicate 44 (.bridgeByte true)

end Sample

namespace Session

theorem client_data_decrypted_quiet :
    Meets (step Sample.suite Sample.setup) (RotatesQuietly Sample.setup) (start Sample.setup)
        Sample.quietRun ∧
      (after Sample.suite Sample.setup Sample.quietRun).bridgeReads = [.ok (.data [1, 2, 3])] ∧
      ClientDataDecrypted (after Sample.suite Sample.setup Sample.quietRun) := by
  have h : Meets (step Sample.suite Sample.setup) (RotatesQuietly Sample.setup)
      (start Sample.setup) Sample.quietRun := by decide +kernel
  exact ⟨h, by decide +kernel, client_data_decrypted _ _ h⟩

/-- A frame the client wrote before it read KEY_ROTATE does not decrypt: the bridge has rotated
both directions as soon as the announcement was written, and takes the failure for the end of the
session. -/
theorem crossing_frame_lost :
    (after Sample.suite Sample.setup Sample.crossingRun).bridgeReads = [.error .aeadFailure] ∧
      ¬ ClientDataDecrypted (after Sample.suite Sample.setup Sample.crossingRun) := by
  have h : (after Sample.suite Sample.setup Sample.crossingRun).bridgeReads =
      [.error .aeadFailure] := by decide +kernel
  refine ⟨h, ?_⟩
  intro hdec
  have := hdec.onlyEof .aeadFailure (by rw [h]; exact List.mem_singleton_self _)
  exact absurd this (by decide)

end Session

end LatticeShield
