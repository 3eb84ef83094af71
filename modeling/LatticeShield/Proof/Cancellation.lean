import LatticeShield.Proof.Rotation

/-!
# Dropped reads

`read_frame` is a chain of `read_exact`s, and `read_exact` is not cancellation safe: what it has
taken from the stream is in the future, and a `select!` drops the future whenever another arm
completes first. The next `read_frame` then begins in the middle of a frame
(`cut_frame_misparsed`), so both relay loops can lose the thread of a stream on which nothing went
wrong.

`Uncut` asks of each step that a loop completes another arm only between two frames. For
everything to be forwarded it also asks that rotations are quiet, that frames fit the other side's
`max_frame_size` and that no counter wraps. Then each loop forwards exactly what the other side
wrote, parses begin at frames only, and no read fails (`relays_intact`).

The direction from client to bridge is the invariant of `Proof.Rotation`. Here the other direction
is added; that the client has the bridge's key once it has followed every rotation is a
consequence of it (`DownInv.same_key`), not a condition.
-/

set_option autoImplicit false

namespace LatticeShield

open Lib EncryptedChannel

namespace Session

/-! ## The property and the condition -/

/-- Each loop forwards what the other side wrote, all of it once everything is read, and no frame
is parsed from the middle. The last clause compares where the reader began a frame with where the
writer did. -/
structure StreamsIntact (s : Session) : Prop where
  toBackend_isPrefix : s.bridge.toBackend <+: plaintexts s.clientSent
  toUser_isPrefix : s.client.toUser <+: plaintexts s.bridgeSent
  toBackend_all : s.bridge.finished = none → s.up.unread = [] →
    s.bridge.toBackend = plaintexts s.clientSent
  toUser_all : s.client.outcome = none → s.down.unread = [] →
    s.client.toUser = plaintexts s.bridgeSent
  up_starts : ∀ o ∈ s.up.starts, o ∈ s.up.boundaries
  down_starts : ∀ o ∈ s.down.starts, o ∈ s.down.boundaries
  bridge_onlyEof : ∀ e, .error e ∈ s.bridgeReads → e = .io .unexpectedEof
  client_onlyEof : ∀ e, .error e ∈ s.clientReads → e = .io .unexpectedEof

/-- The condition on a step, in the state before it. While a loop goes on, its other arm completes
only when `read_frame` has taken no byte; the bridge rotates only when nothing of the client is
unread, and the client writes only when it has followed every rotation. The bounds are those of
the frame size and of the 64-bit seq. -/
def Uncut (S : Setup) (s : Session) : Op → Prop
  | .bridgeArm arm _ =>
    s.bridge.finished = none →
      (arm.goesOn S.bridge = true →
        s.bridge.taken = [] ∧ (s.bridge.rotates S.bridge arm = true → s.up.unread = [])) ∧
      (s.client.outcome = none → ∀ p ∈ arm.chunk S.bridge,
        p.length ≤ S.client.maxFrameSize ∧ s.bridge.channel.sendSeq.toNat + 1 < 2 ^ 64)
  | .clientArm read =>
    s.client.outcome = none →
      (s.client.userEof = false → read ≠ .err → s.client.taken = []) ∧
      (s.bridge.finished = none → ∀ p ∈ s.client.writes S.client read,
        s.rotationsMade = s.rotationsApplied ∧ p.length ≤ S.bridge.maxFrameSize ∧
          s.client.channel.sendSeq.toNat + 1 < 2 ^ 64)
  | _ => True

instance (S : Setup) (s : Session) : ∀ op, Decidable (Uncut S s op)
  | .bridgeArm _ _ => inferInstanceAs (Decidable (s.bridge.finished = none → _))
  | .clientArm _ => inferInstanceAs (Decidable (s.client.outcome = none → _))
  | .bridgeByte _ => .isTrue trivial
  | .bridgeEof => .isTrue trivial
  | .clientByte _ => .isTrue trivial
  | .clientEof => .isTrue trivial

/-! ## The invariant -/

/-- How the bridge agrees with the client's tail, the client after all it will have read: same
key, and the next frame is a new one there. -/
structure Synced (bridge tail : EncryptedChannel) : Prop where
  key : tail.keyBytes = bridge.keyBytes
  fresh : tail.recvInitialized = true → tail.recvSeq < bridge.sendSeq
  counter : tail.keyRotateRecvSeq = bridge.keyRotateSendSeq

structure DownInv (C : CipherSuite) (S : Setup) (s : Session) : Prop where
  lane : Lane C (s.client.outcome = none) (Synced s.bridge.channel) s.client.channel
    s.client.taken s.down s.clientReads s.bridgeSent s.client.toUser
  frameSize : s.client.channel.maxFrameSize = S.client.maxFrameSize

variable {C : CipherSuite} {S : Setup} {s : Session}

theorem downInv_start (C : CipherSuite) (S : Setup) : DownInv C S (start S) where
  lane := Lane.start ⟨rfl, fun h => absurd h (by simp [start, Client.Relay.new,
    EncryptedChannel.new]), rfl⟩
  frameSize := rfl

/-- A client that has followed every rotation has the bridge's key. The two are rotated with the
same nonces in the same order, which is why counting them is enough. -/
theorem DownInv.same_key (h : DownInv C S s) (hlive : s.client.outcome = none)
    (hrot : s.rotationsMade = s.rotationsApplied) :
    s.client.channel.keyBytes = s.bridge.channel.keyBytes := by
  obtain ⟨tail, hread, hag⟩ := h.lane.reading hlive
  rw [← hread.keyBytes_eq hrot, hag.key]

/-! ## Steps of the client -/

theorem DownInv.clientByte (h : DownInv C S s) (hlive : s.client.outcome = none) (takes : Bool) :
    DownInv C S (s.clientByte C takes) := by
  unfold Session.clientByte
  cases hun : s.down.unread with
  | nil => exact h
  | cons b more =>
    rcases h.lane.feed hlive hun with ⟨i, ch', hpoll, -, hmax, hgo, hstop⟩ | ⟨hpoll, hlane⟩
    · have hsize := hmax.trans h.frameSize
      simp only [Client.Relay.receive, hpoll]
      cases i with
      | data p =>
        cases takes with
        | true => exact ⟨hgo, hsize⟩
        | false => exact ⟨hstop _ (by simp [Client.Relay.onFrame]), hsize⟩
      | keyRotate n =>
        rw [plaintexts_keyRotate, List.append_nil] at hgo
        exact ⟨hgo, hsize⟩
    · simp only [Client.Relay.receive, hpoll, Option.toList_none, List.append_nil]
      exact ⟨hlane, h.frameSize⟩

theorem DownInv.clientEof (h : DownInv C S s) : DownInv C S (s.clientEof C) := by
  unfold Session.clientEof
  split
  · exact ⟨h.lane.stop_eof (by simp [Client.Relay.receiveEof, Client.Relay.onFrame]) _ _,
      h.frameSize⟩
  · exact h

theorem DownInv.clientArm (h : DownInv C S s) (hlive : s.client.outcome = none)
    {read : SocketRead} (hok : Uncut S s (.clientArm read)) :
    DownInv C S (s.clientArm C S read) := by
  have htaken := (hok hlive).1
  cases hw : s.client.writes S.client read with
  | none =>
    rcases clientArm_quiet C S s hw with heq | ⟨heof, herr, heq⟩ | ⟨-, heq⟩
    · rw [heq]; exact h
    · rw [heq]; exact ⟨htaken heof herr ▸ h.lane, h.frameSize⟩
    · rw [heq]; exact ⟨h.lane.stop (by simp) _ _, h.frameSize⟩
  | some p =>
    obtain ⟨heof, hchunk⟩ := Client.Relay.writes_eq_some.mp hw
    have hread_err : read ≠ .err := by
      rintro rfl
      exact absurd hchunk (by simp [SocketRead.chunk, SocketRead.into])
    obtain ⟨tail, hread, hag⟩ := h.lane.reading hlive
    rw [htaken heof hread_err] at hread
    obtain ⟨q, k, hread'⟩ := hread.withSend (s.client.channel.sendSeq + 1)
      s.client.channel.keyRotateSendSeq
    rw [clientArm_writes C S s hw]
    exact ⟨Lane.of_reading hread' ⟨hag.key, hag.fresh, hag.counter⟩ h.lane.forwarded_eq
      h.lane.forwarded_isPrefix h.lane.onlyEof, h.frameSize⟩

/-! ## Steps of the bridge -/

/-- What the bridge reads does not touch what the client's tail has to agree with: its key and its
two sending counters. -/
theorem DownInv.of_sending_half (h : DownInv C S s) (r : Bridge.Relay)
    (hkey : r.channel.keyBytes = s.bridge.channel.keyBytes)
    (hseq : r.channel.sendSeq = s.bridge.channel.sendSeq)
    (hcount : r.channel.keyRotateSendSeq = s.bridge.channel.keyRotateSendSeq) (up : Wire)
    (reads : List (Except FrameError FrameResult)) :
    DownInv C S { s with bridge := r, up := up, bridgeReads := reads } where
  lane := h.lane.mono fun _ hag =>
    ⟨hag.key.trans hkey.symm, fun hinit => hseq ▸ hag.fresh hinit, hag.counter.trans hcount.symm⟩
  frameSize := h.frameSize

theorem DownInv.bridgeByte (h : DownInv C S s) (takes : Bool) :
    DownInv C S (s.bridgeByte C takes) := by
  unfold Session.bridgeByte
  cases hun : s.up.unread with
  | nil => exact h
  | cons b more =>
    obtain ⟨hkey, hseq, hcount⟩ := bridge_receive_sending_half C s.bridge b takes
    exact h.of_sending_half _ hkey hseq hcount _ _

theorem DownInv.bridgeEof (h : DownInv C S s) : DownInv C S s.bridgeEof := by
  unfold Session.bridgeEof
  split
  · exact h.of_sending_half s.bridge.receiveEof.1 rfl rfl rfl _ _
  · exact h

theorem DownInv.bridgeWrote (h : DownInv C S s) {p : Bytes} (n : UInt64)
    (hgcm : p.length ≤ gcmPMax)
    (hfit : s.client.outcome = none →
      p.length ≤ S.client.maxFrameSize ∧ s.bridge.channel.sendSeq.toNat + 1 < 2 ^ 64) :
    DownInv C S (s.bridgeWrote C p n) where
  lane := by
    apply h.lane.write (writeFrame_bytes_ne_nil C _ hgcm)
    intro hlive tail hread hag
    obtain ⟨hp, hseq⟩ := hfit hlive
    have hmax : tail.maxFrameSize = S.client.maxFrameSize := by
      rw [hread.maxFrameSize_eq, h.frameSize]
    obtain ⟨bytes, hwrite, hdel⟩ := writeFrame_delivers (C := C) (R := tail) s.bridge.channel
      (hmax ▸ S.client.validFrameSize) (hmax ▸ hp) hag.key hag.fresh
    exact ⟨tail.acceptData s.bridge.channel.sendSeq, by rw [hwrite]; exact hdel, hag.key,
      fun _ => lt_sendSeq_succ hseq, hag.counter⟩
  frameSize := h.frameSize

/-- The bridge rotates: the client will follow when it reads the frame. Until then the tail of
what is on its way has the new key and the reader the old one. -/
theorem DownInv.rotated (h : DownInv C S s) (draw : Draw) : DownInv C S (s.rotated C draw) where
  lane := by
    obtain ⟨ct, tag, -, -, hsend⟩ :=
      sendKeyRotate_accepts C s.bridge.channel draw.gcmNonce draw.nonce
    apply h.lane.write (by rw [hsend]; simp [keyRotateFrame])
    intro _ tail _ hag
    obtain ⟨bytes, hwrite, hdel⟩ := sendKeyRotate_delivers (C := C) (R := tail) s.bridge.channel
      draw.gcmNonce draw.nonce hag.key hag.counter
    refine ⟨_, by rw [hwrite]; exact hdel, ?_, fun hinit => absurd hinit ?_, ?_⟩
    · simp [Session.rotated, rotateKey, acceptKeyRotate, hag.key]
    · simp [rotateKey]
    · simp [Session.rotated, rotateKey, acceptKeyRotate, hag.counter]
  frameSize := h.frameSize

theorem DownInv.bridgeArm (h : DownInv C S s) (hlive : s.bridge.finished = none)
    {arm : Bridge.Arm} {draw : Draw} (hok : Uncut S s (.bridgeArm arm draw)) :
    DownInv C S (s.bridgeArm C S arm draw) := by
  cases hgo : arm.goesOn S.bridge with
  | false =>
    rcases bridgeArm_stops C S s arm draw hgo with heq | ⟨f, heq⟩
    · rw [heq]; exact h
    · rw [heq]
      exact h.of_sending_half { s.bridge with taken := [], finished := some f } rfl rfl rfl _ _
  | true =>
    obtain ⟨-, hsel⟩ := selected_goesOn C S s arm hgo
    have hmid : DownInv C S (s.selected C S arm) := by
      rcases hsel with ⟨-, heq⟩ | ⟨p, hp, heq⟩
      · rw [heq]; exact h.of_sending_half { s.bridge with taken := [] } rfl rfl rfl _ _
      · rw [heq]
        exact h.bridgeWrote _ (length_le_gcmPMax S.bridge.validFrameSize (arm.length_chunk_le hp))
          fun hout => (hok hlive).2 hout p hp
    rw [bridgeArm_eq C S s arm draw (arm.enabled_of_goesOn hgo)]
    split
    · exact hmid.rotated draw
    · exact hmid

/-! ## Whole runs -/

theorem DownInv.step (h : DownInv C S s) {op : Op} (hok : Uncut S s op) :
    DownInv C S (s.step C S op) := by
  unfold Session.step
  split
  · rename_i hrun
    cases op with
    | bridgeByte takes => exact h.bridgeByte takes
    | bridgeEof => exact h.bridgeEof
    | bridgeArm arm draw => exact h.bridgeArm hrun hok
    | clientByte takes => exact h.clientByte hrun takes
    | clientEof => exact h.clientEof
    | clientArm read => exact h.clientArm hrun hok
  · exact h

/-- With the client in step with the bridge, an uncut step is a quiet one. This is how the
invariant of the upward direction, proved for rotations, serves here as well. -/
theorem Uncut.rotatesQuietly (h : DownInv C S s) {op : Op} (hok : Uncut S s op) :
    RotatesQuietly S s op := by
  cases op with
  | bridgeArm arm draw => exact fun hlive => (hok hlive).1
  | clientArm read =>
    intro hlive hout p hp
    obtain ⟨hrot, hlen, hseq⟩ := (hok hout).2 hlive p hp
    exact ⟨hrot, h.same_key hout hrot, hlen, hseq⟩
  | bridgeByte => trivial
  | bridgeEof => trivial
  | clientByte => trivial
  | clientEof => trivial

theorem StreamsIntact.of_inv (hup : UpInv C S s) (hdown : DownInv C S s) : StreamsIntact s where
  toBackend_isPrefix := hup.lane.forwarded_isPrefix.trans (plaintexts_isPrefix hup.lane.inOrder)
  toUser_isPrefix := hdown.lane.forwarded_isPrefix.trans (plaintexts_isPrefix hdown.lane.inOrder)
  toBackend_all := hup.lane.forwarded_all
  toUser_all := hdown.lane.forwarded_all
  up_starts := hup.lane.starts
  down_starts := hdown.lane.starts
  bridge_onlyEof := hup.lane.onlyEof
  client_onlyEof := hdown.lane.onlyEof

/-- **Uncut relay loops forward exactly what was sent.** In every run whose steps are uncut the
two directions keep their invariants, `UpInv` and `DownInv`, and each gives its half of
`StreamsIntact`. -/
theorem relays_intact (C : CipherSuite) (S : Setup) {ops : List Op}
    (h : Meets (step C S) (Uncut S) (start S) ops) : StreamsIntact (after C S ops) := by
  obtain ⟨hup, hdown⟩ := h.invariant (I := fun s => UpInv C S s ∧ DownInv C S s)
    (fun _ _ hs hok => ⟨hs.1.step (hok.rotatesQuietly hs.2), hs.2.step hok⟩)
    ⟨upInv_start C S, downInv_start C S⟩
  exact .of_inv hup hdown

end Session

/-! ## Two runs -/

namespace Sample

/-- The bridge reads a client frame, and then the client one of the bridge's. -/
def uncutRun : List Op :=
  [.clientArm (.ok [1, 2, 3])] ++ List.replicate 44 (.bridgeByte true) ++
    [.bridgeArm (.backend (.ok [9])) draw] ++ List.replicate 42 (.clientByte true)

/-- The backend's answer arrives when the bridge has taken one byte of a client frame. -/
def cutRun : List Op :=
  [.clientArm (.ok [1, 2, 3]), .bridgeByte true, .bridgeArm (.backend (.ok [9])) draw,
    .bridgeByte true]

end Sample

namespace Session

theorem relays_intact_uncut :
    Meets (step Sample.suite Sample.setup) (Uncut Sample.setup) (start Sample.setup)
        Sample.uncutRun ∧
      (after Sample.suite Sample.setup Sample.uncutRun).bridge.toBackend = [[1, 2, 3]] ∧
      (after Sample.suite Sample.setup Sample.uncutRun).client.toUser = [[9]] ∧
      StreamsIntact (after Sample.suite Sample.setup Sample.uncutRun) := by
  have h : Meets (step Sample.suite Sample.setup) (Uncut Sample.setup)
      (start Sample.setup) Sample.uncutRun := by decide +kernel
  exact ⟨h, by decide +kernel, by decide +kernel, relays_intact _ _ h⟩

/-- The bridge parses the client's frame from its second byte on: the first went with the future
that `select!` dropped when the backend's answer came, and `read_frame` starts again where the
stream stands. -/
theorem cut_frame_misparsed :
    (after Sample.suite Sample.setup Sample.cutRun).up.starts = [0, 1] ∧
      (after Sample.suite Sample.setup Sample.cutRun).up.boundaries = [0, 44] ∧
      (after Sample.suite Sample.setup Sample.cutRun).bridgeReads =
        [.error (.invalid "unknown frame type: 0x00")] ∧
      ¬ StreamsIntact (after Sample.suite Sample.setup Sample.cutRun) := by
  have hstarts : (after Sample.suite Sample.setup Sample.cutRun).up.starts = [0, 1] := by
    decide +kernel
  have hbounds : (after Sample.suite Sample.setup Sample.cutRun).up.boundaries = [0, 44] := by
    decide +kernel
  refine ⟨hstarts, hbounds, by decide +kernel, ?_⟩
  intro h
  have hmem := h.up_starts 1 (by rw [hstarts]; decide)
  rw [hbounds] at hmem
  exact absurd hmem (by decide)

end Session

end LatticeShield
