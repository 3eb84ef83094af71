import LatticeShield.Proof.Cancellation
import LatticeShield.Relay.Tunnel

/-!
# Half-closing the user's side

When the user has sent everything, the client shuts down its half of the connection to the bridge
and goes on reading. For the bridge that is a `read_frame` that fails with `UnexpectedEof`, and like
any other error it ends the loop, whatever the backend has still to say (`half_close_loses_answer`).

Nothing is lost in the runs in which the bridge does not come to read that end of file before it
has read the backend's (`half_close_transparent`). The rest of the condition is `Uncut`: what loses
bytes without any half-close.
-/

set_option autoImplicit false

namespace LatticeShield

open Lib EncryptedChannel

/-! ## The property and the condition -/

/-- No byte of the backend is lost. A bridge that has ended has sent on everything the backend
sent, and the client has delivered it all once nothing is on its way any more; a client that has
ended has delivered everything. Neither is asked for a user that has closed its receiving side. -/
structure Tunnel.Transparent (t : Tunnel) : Prop where
  isPrefix : t.delivered <+: t.backendSent
  bridgeEnded : t.session.bridge.finished ≠ none → t.userGone = true ∨
    (t.backendClosed = true ∧ (Session.plaintexts t.session.bridgeSent).flatten = t.backendSent ∧
      (t.session.down.unread = [] → t.delivered = t.backendSent))
  clientEnded : t.session.client.outcome ≠ none → t.userGone = true ∨
    (t.backendClosed = true ∧ t.delivered = t.backendSent)

/-- The condition on a step, in the state before it: no read is dropped half-way, frames fit and
counters do not wrap; and the bridge does not read the client's end of file before the backend's,
unless the user is gone. The last is what the claim is about: the bridge takes that end of file
for the end of the session. -/
def Tunnel.Undisturbed (S : Setup) (t : Tunnel) (op : TunnelOp) : Prop :=
  (∀ o ∈ t.sessionOp op, Session.Uncut S t.session o) ∧
    (op = .bridgeEof → t.session.bridge.finished = none → t.session.upClosed = true →
      t.session.up.unread = [] →
        t.userGone = true ∨ (t.backendClosed = true ∧ t.backendUnread = []))

instance (S : Setup) (t : Tunnel) (op : TunnelOp) : Decidable (t.Undisturbed S op) :=
  inferInstanceAs (Decidable (_ ∧ _))

/-! ## Which steps go on -/

namespace Session

variable {C : CipherSuite} {S : Setup} {s : Session}

/-- A backend that takes everything does not end the bridge's loop. Whatever the byte completes is
a frame the client has sent. -/
theorem UpInv.bridgeByte_finished (h : UpInv C S s) (hlive : s.bridge.finished = none) :
    (s.bridgeByte C true).bridge.finished = none := by
  unfold Session.bridgeByte
  cases hun : s.up.unread with
  | nil => exact hlive
  | cons b more =>
    rcases h.lane.feed hlive hun with ⟨i, ch', hpoll, hi, -⟩ | ⟨hpoll, -⟩
    · obtain ⟨p, hp, rfl⟩ := h.plain i hi
      simp only [Bridge.Relay.receive, hpoll, Bridge.Relay.onFrame, if_neg hp, if_true]
      exact hlive
    · simp only [Bridge.Relay.receive, hpoll]
      exact hlive

/-- Nor does a user that takes everything end the client's. -/
theorem DownInv.clientByte_outcome (h : DownInv C S s) (hlive : s.client.outcome = none) :
    (s.clientByte C true).client.outcome = none := by
  unfold Session.clientByte
  cases hun : s.down.unread with
  | nil => exact hlive
  | cons b more =>
    rcases h.lane.feed hlive hun with ⟨i, ch', hpoll, -⟩ | ⟨hpoll, -⟩
    · simp only [Client.Relay.receive, hpoll]
      cases i with
      | data p => exact hlive
      | keyRotate n => exact hlive
    · simp only [Client.Relay.receive, hpoll]
      exact hlive

end Session

/-! ## The invariant -/

namespace Tunnel

open Session

/-- What is claimed of the two ends of a tunnel, of a session `s` between them. It is stated with
the session apart from the tunnel, since a step of the session is made before the ends look at it.
-/
structure Kept (t : Tunnel) (s : Session) : Prop where
  read : (plaintexts s.bridgeSent).flatten <+: t.backendSent
  bridge : s.bridge.finished ≠ none → t.userGone = true ∨
    (t.backendClosed = true ∧ (plaintexts s.bridgeSent).flatten = t.backendSent)
  client : s.client.outcome ≠ none → t.userGone = true ∨
    (t.backendClosed = true ∧ s.client.toUser.flatten = t.backendSent)

structure Inv (C : CipherSuite) (S : Setup) (t : Tunnel) : Prop where
  up : UpInv C S t.session
  down : DownInv C S t.session
  kept : Kept t t.session

variable {C : CipherSuite} {S : Setup} {t : Tunnel} {s : Session}

theorem inv_start (C : CipherSuite) (S : Setup) : Inv C S (start S) where
  up := upInv_start C S
  down := downInv_start C S
  kept := ⟨List.prefix_refl _, fun h => absurd rfl h, fun h => absurd rfl h⟩

theorem Kept.all_read (h : Kept t t.session) (hun : t.backendUnread = []) :
    (plaintexts t.session.bridgeSent).flatten = t.backendSent :=
  h.read.eq_of_length_le (List.drop_eq_nil_iff.mp hun)

/-! ## Steps of the bridge -/

theorem Kept.bridgeByte (h : Kept t s) (hup : UpInv C S s) (hlive : s.bridge.finished = none) :
    Kept t (s.bridgeByte C true) := by
  refine ⟨?_, fun hend => absurd (hup.bridgeByte_finished hlive) hend, ?_⟩
  · rw [(bridgeByte_sameSent C s true).bridgeSent]; exact h.read
  · rw [bridgeByte_client]; exact h.client

/-- The client's end of file: only once the backend is done. The bridge's loop ends on it, and
with it the way down. -/
theorem Kept.bridgeEof (h : Kept t s)
    (hdone : s.upClosed = true → s.up.unread = [] → t.userGone = true ∨
      (t.backendClosed = true ∧ (plaintexts s.bridgeSent).flatten = t.backendSent)) :
    Kept t s.bridgeEof := by
  unfold Session.bridgeEof
  by_cases heof : s.upClosed = true ∧ s.up.unread = []
  · rw [if_pos heof]
    exact ⟨h.read, fun _ => hdone heof.1 heof.2, h.client⟩
  · rw [if_neg heof]; exact h

theorem Kept.bridgeWrote (h : Kept t s) (hlive : s.bridge.finished = none) {p : Bytes}
    (hp : p <+: t.backendSent.drop (plaintexts s.bridgeSent).flatten.length) (n : UInt64) :
    Kept t (s.bridgeWrote C p n) := by
  refine ⟨?_, fun hend => absurd hlive hend, h.client⟩
  obtain ⟨rest, hrest⟩ := h.read
  rw [← hrest, List.drop_left] at hp
  have htext : plaintexts [.data p] = [p] := rfl
  rw [Session.bridgeWrote, plaintexts_append, htext, List.flatten_append, List.flatten_singleton,
    ← hrest]
  exact List.prefix_append_right_inj _ |>.mpr hp

/-- A read of the backend, with rotation off: the next bytes, or the end of the file. The second
ends the loop when there is nothing left to relay. -/
theorem Kept.bridgeArm (h : Kept t t.session) (hoff : S.bridge.keyRotationEnabled = false)
    (hlive : t.session.bridge.finished = none) {more : Nat} {read : SocketRead}
    (hread : socketRead t.backendUnread t.backendClosed more = some read) (draw : Draw) :
    Kept t (t.session.bridgeArm C S (.backend read) draw) := by
  unfold socketRead at hread
  -- with nothing unread the only read is the end of the stream, and it ends the relay
  by_cases hun : t.backendUnread = []
  · rw [if_pos hun] at hread
    cases hclosed : t.backendClosed with
    | false => rw [hclosed] at hread; exact absurd hread (by simp)
    | true =>
      rw [hclosed, if_pos rfl] at hread
      obtain rfl := Option.some.inj hread
      have hstop : (Bridge.Arm.backend (.ok [])).goesOn S.bridge = false := by
        simp [Bridge.Arm.goesOn, SocketRead.chunk, SocketRead.into]
      rcases bridgeArm_stops C S t.session (.backend (.ok [])) draw hstop with heq | ⟨f, heq⟩
      · rw [heq]; exact h
      · rw [heq]
        exact ⟨h.read, fun _ => Or.inr ⟨hclosed, h.all_read hun⟩, h.client⟩
  · rw [if_neg hun] at hread
    obtain rfl := Option.some.inj hread
    have hne : (t.backendUnread.take (more + 1)).take S.bridge.maxFrameSize ≠ [] := by
      have hpos := S.bridge.validFrameSize.1
      obtain ⟨b, bs, hb⟩ := List.exists_cons_of_ne_nil hun
      rw [hb, List.take_succ_cons, ← Nat.succ_pred_eq_of_pos (Nat.lt_of_lt_of_le (by decide) hpos),
        List.take_succ_cons]
      exact List.cons_ne_nil _ _
    have hchunk : (Bridge.Arm.backend (.ok (t.backendUnread.take (more + 1)))).chunk S.bridge =
        some ((t.backendUnread.take (more + 1)).take S.bridge.maxFrameSize) :=
      SocketRead.chunk_eq_some.mpr ⟨rfl, hne⟩
    have hgo : (Bridge.Arm.backend (.ok (t.backendUnread.take (more + 1)))).goesOn S.bridge =
        true := Option.isSome_iff_exists.mpr ⟨_, hchunk⟩
    obtain ⟨hrot, hsel⟩ := selected_goesOn C S t.session _ hgo
    -- the rotation is switched off, so the read is relayed as one data frame
    have hquiet : t.session.bridge.rotates S.bridge
        (.backend (.ok (t.backendUnread.take (more + 1)))) = false := by
      simp only [Bridge.Relay.rotates, hoff, Bool.false_and]
      split <;> rfl
    rw [bridgeArm_eq C S t.session _ draw rfl, hrot, hquiet, if_neg Bool.false_ne_true]
    rcases hsel with ⟨hnone, -⟩ | ⟨p, hp, heq⟩
    · rw [hchunk] at hnone; exact absurd hnone (by simp)
    · rw [hchunk] at hp
      obtain rfl := Option.some.inj hp
      rw [heq]
      exact h.bridgeWrote hlive ((List.take_prefix _ _).trans (List.take_prefix _ _)) _

/-! ## Steps of the client -/

theorem Kept.clientByte (h : Kept t s) (hdown : DownInv C S s) (hlive : s.client.outcome = none) :
    Kept t (s.clientByte C (!t.userGone)) := by
  have hsent := (clientByte_sameSent C s (!t.userGone)).bridgeSent
  refine ⟨?_, ?_, ?_⟩
  · rw [hsent]; exact h.read
  · rw [clientByte_bridge, hsent]; exact h.bridge
  · intro hend
    cases hgone : t.userGone with
    | true => exact Or.inl rfl
    | false =>
      rw [hgone] at hend
      exact absurd (hdown.clientByte_outcome hlive) hend

/-- The bridge has ended and everything on its way has arrived. -/
theorem Kept.clientEof (h : Kept t s) (hdown : DownInv C S s) (hlive : s.client.outcome = none) :
    Kept t (s.clientEof C) := by
  unfold Session.clientEof
  by_cases heof : s.bridge.finished.isSome ∧ s.down.unread = []
  · rw [if_pos heof]
    refine ⟨h.read, h.bridge, ?_⟩
    intro _
    have hall : s.client.toUser = plaintexts s.bridgeSent := hdown.lane.forwarded_all hlive heof.2
    rcases h.bridge (Option.isSome_iff_ne_none.mp heof.1) with hgone | ⟨hclosed, hsent⟩
    · exact Or.inl hgone
    · exact Or.inr ⟨hclosed, by rw [← hsent, ← hall]; rfl⟩
  · rw [if_neg heof]; exact h

theorem socketRead_ne_err {unread : Bytes} {closed : Bool} {more : Nat} {read : SocketRead}
    (h : socketRead unread closed more = some read) : read ≠ .err := by
  rintro rfl
  unfold socketRead at h
  by_cases hun : unread = []
  · rw [if_pos hun] at h
    cases closed <;> exact absurd h (by simp)
  · rw [if_neg hun] at h
    exact absurd h (by simp)

theorem Kept.clientArm (h : Kept t s) (hlive : s.client.outcome = none) {read : SocketRead}
    (hread : read ≠ .err) : Kept t (s.clientArm C S read) := by
  cases hw : s.client.writes S.client read with
  | none =>
    rcases clientArm_quiet C S s hw with heq | ⟨-, -, heq⟩ | ⟨herr, -⟩
    · rw [heq]; exact h
    · rw [heq]; exact ⟨h.read, h.bridge, fun hend => absurd hlive hend⟩
    · exact absurd herr hread
  | some p =>
    rw [clientArm_writes C S s hw]
    exact ⟨h.read, h.bridge, fun hend => absurd hlive hend⟩

/-! ## Whole runs -/

/-- A step of the session: `Uncut` takes care of the streams, the rest is about the ends and is
said of a loop that still runs. -/
theorem Inv.of_step (inv : Inv C S t) {o : Op} (hok : Uncut S t.session o)
    (hkept : t.session.Running o.side → Kept t (t.session.act C S o)) :
    Inv C S { t with session := t.session.step C S o } := by
  refine ⟨inv.up.step (hok.rotatesQuietly inv.down), inv.down.step hok, ?_⟩
  unfold Session.step
  by_cases hrun : t.session.Running o.side
  · rw [if_pos hrun]
    obtain ⟨hread, hbridge, hclient⟩ := hkept hrun
    exact ⟨hread, hbridge, hclient⟩
  · rw [if_neg hrun]
    obtain ⟨hread, hbridge, hclient⟩ := inv.kept
    exact ⟨hread, hbridge, hclient⟩

/-- What the ends do by themselves: a backend that has closed says no more. The session does not
move, and what is claimed of it speaks of what the backend has sent so far. -/
theorem Inv.environment (inv : Inv C S t) (op : TunnelOp) : Inv C S (t.environment op) := by
  obtain ⟨hread, hbridge, hclient⟩ := inv.kept
  -- What the peers do changes what is still to come, never what has been relayed. The two clauses
  -- about an end of the relay are monotone in it.
  cases op with
  | userSends data =>
    simp only [Tunnel.environment]
    by_cases hclosed : t.userHalfClosed = true
    · rw [if_pos hclosed]; exact inv
    · rw [if_neg hclosed]; exact ⟨inv.up, inv.down, hread, hbridge, hclient⟩
  | userHalfCloses => exact ⟨inv.up, inv.down, hread, hbridge, hclient⟩
  | userStopsReceiving =>
    exact ⟨inv.up, inv.down, hread, fun _ => Or.inl rfl, fun _ => Or.inl rfl⟩
  | backendSends data =>
    simp only [Tunnel.environment]
    by_cases hclosed : t.backendClosed = true
    · rw [if_pos hclosed]; exact inv
    · rw [if_neg hclosed]
      refine ⟨inv.up, inv.down, hread.trans (List.prefix_append _ _), ?_, ?_⟩
      · intro hend
        rcases hbridge hend with hgone | ⟨hdone, -⟩
        · exact Or.inl hgone
        -- a backend that closed sends no more, so this case cannot follow an end of the relay
        · exact absurd hdone hclosed
      · intro hend
        rcases hclient hend with hgone | ⟨hdone, -⟩
        · exact Or.inl hgone
        · exact absurd hdone hclosed
  | backendCloses =>
    refine ⟨inv.up, inv.down, hread, ?_, ?_⟩
    · intro hend
      exact (hbridge hend).imp id fun hdone => ⟨rfl, hdone.2⟩
    · intro hend
      exact (hclient hend).imp id fun hdone => ⟨rfl, hdone.2⟩
  | clientRead more => exact inv
  | clientByte => exact inv
  | clientEof => exact inv
  | bridgeRead more draw => exact inv
  | bridgeByte => exact inv
  | bridgeEof => exact inv

theorem Inv.step (inv : Inv C S t) (hoff : S.bridge.keyRotationEnabled = false) {op : TunnelOp}
    (hok : t.Undisturbed S op) : Inv C S (t.step C S op) := by
  unfold Tunnel.step
  cases hop : t.sessionOp op with
  | none => exact inv.environment op
  | some o =>
    refine inv.of_step (hok.1 o hop) ?_
    intro hrun
    cases op with
    | clientRead more =>
      obtain ⟨read, hread, rfl⟩ := Option.map_eq_some_iff.mp hop
      exact inv.kept.clientArm hrun (socketRead_ne_err hread)
    | bridgeRead more draw =>
      obtain ⟨read, hread, rfl⟩ := Option.map_eq_some_iff.mp hop
      exact inv.kept.bridgeArm hoff hrun hread draw
    | clientByte =>
      obtain rfl := Option.some.inj hop
      exact inv.kept.clientByte inv.down hrun
    | bridgeByte =>
      obtain rfl := Option.some.inj hop
      exact inv.kept.bridgeByte inv.up hrun
    | clientEof =>
      obtain rfl := Option.some.inj hop
      exact inv.kept.clientEof inv.down hrun
    | bridgeEof =>
      obtain rfl := Option.some.inj hop
      refine inv.kept.bridgeEof ?_
      intro hclosed hun
      exact (hok.2 rfl hrun hclosed hun).imp id fun hdone =>
        ⟨hdone.1, inv.kept.all_read hdone.2⟩
    | userSends data => exact absurd hop (by simp [sessionOp])
    | userHalfCloses => exact absurd hop (by simp [sessionOp])
    | userStopsReceiving => exact absurd hop (by simp [sessionOp])
    | backendSends data => exact absurd hop (by simp [sessionOp])
    | backendCloses => exact absurd hop (by simp [sessionOp])

theorem Inv.transparent (inv : Inv C S t) : t.Transparent := by
  obtain ⟨hread, hbridge, hclient⟩ := inv.kept
  refine ⟨?_, ?_, hclient⟩
  · obtain ⟨rest, hrest⟩ := inv.down.lane.forwarded_isPrefix.trans
      (plaintexts_isPrefix inv.down.lane.inOrder)
    refine List.IsPrefix.trans ⟨rest.flatten, ?_⟩ hread
    rw [delivered, ← List.flatten_append, hrest]
  · intro hend
    rcases hbridge hend with hgone | ⟨hclosed, hsent⟩
    · exact Or.inl hgone
    · by_cases hlive : t.session.client.outcome = none
      · refine Or.inr ⟨hclosed, hsent, ?_⟩
        intro hun
        rw [delivered, inv.down.lane.forwarded_all hlive hun, hsent]
      · exact (hclient hlive).imp id fun hdone => ⟨hclosed, hsent, fun _ => hdone.2⟩

/-- **Half-closing is transparent** in every state of every undisturbed run without rotation: the
user may close its sending side at any time and still gets all that the backend has to say. -/
theorem half_close_transparent (C : CipherSuite) (S : Setup)
    (hoff : S.bridge.keyRotationEnabled = false) {ops : List TunnelOp}
    (h : Meets (step C S) (Undisturbed S) (start S) ops) : (after C S ops).Transparent :=
  (h.invariant (I := Inv C S) (fun _ _ inv hok => inv.step hoff hok) (inv_start C S)).transparent

end Tunnel

/-! ## Two runs -/

namespace Sample

/-- The defaults, with rotation off as it is. -/
def unrotated : Setup :=
  { setup with bridge := { setup.bridge with keyRotationEnabled := false } }

/-- The user sends a request and half-closes, and the bridge gets the request. -/
def request : List TunnelOp :=
  [.userSends [1, 2, 3], .userHalfCloses, .clientRead 2, .clientRead 0] ++
    List.replicate 44 .bridgeByte

/-- The backend answers and closes, and the bridge turns to it first. -/
def answered : List TunnelOp :=
  request ++ [.backendSends [9], .bridgeRead 0 draw, .backendCloses, .bridgeRead 0 draw] ++
    List.replicate 42 .clientByte ++ [.clientEof]

/-- The bridge finds the client's end of file before the answer is there. -/
def unanswered : List TunnelOp := request ++ [.bridgeEof, .backendSends [9], .clientEof]

end Sample

namespace Tunnel

theorem half_close_answered :
    Meets (step Sample.suite Sample.unrotated) (Undisturbed Sample.unrotated)
        (start Sample.unrotated) Sample.answered ∧
      (after Sample.suite Sample.unrotated Sample.answered).delivered = [9] ∧
      (after Sample.suite Sample.unrotated Sample.answered).Transparent := by
  have h : Meets (step Sample.suite Sample.unrotated) (Undisturbed Sample.unrotated)
      (start Sample.unrotated) Sample.answered := by decide +kernel
  exact ⟨h, by decide +kernel, half_close_transparent _ _ rfl h⟩

/-- **The answer is lost.** Both loops have ended, the backend has not closed, and what it sends
reaches nobody. -/
theorem half_close_loses_answer :
    (after Sample.suite Sample.unrotated Sample.unanswered).session.bridge.finished =
        some (.frameError (.io .unexpectedEof)) ∧
      (after Sample.suite Sample.unrotated Sample.unanswered).session.client.outcome =
        some .userEof ∧
      (after Sample.suite Sample.unrotated Sample.unanswered).backendClosed = false ∧
      (after Sample.suite Sample.unrotated Sample.unanswered).delivered = [] ∧
      ¬ (after Sample.suite Sample.unrotated Sample.unanswered).Transparent := by
  have hclient : (after Sample.suite Sample.unrotated Sample.unanswered).session.client.outcome =
      some .userEof := by decide +kernel
  have hclosed : (after Sample.suite Sample.unrotated Sample.unanswered).backendClosed = false := by
    decide +kernel
  have hgone : (after Sample.suite Sample.unrotated Sample.unanswered).userGone = false := by
    decide +kernel
  refine ⟨by decide +kernel, hclient, hclosed, by decide +kernel, ?_⟩
  intro h
  rcases h.clientEnded (by rw [hclient]; simp) with h | ⟨h, -⟩
  · rw [hgone] at h; exact Bool.noConfusion h
  · rw [hclosed] at h; exact Bool.noConfusion h

end Tunnel

end LatticeShield
