import LatticeShield.Lib.Wire
import LatticeShield.Relay.Session
import LatticeShield.Proof.Frames

/-!
# Frames on their way

What one honest endpoint has written and the other has not yet read, as the reader will find it.
`Delivers` is one frame: what a channel reads it as, and the channel afterwards (with the rotation
a KEY_ROTATE asks for already made). `Carries` is a list of them, one channel state leading to the
next; the last state is the *tail*, the reader once it has caught up. A writer only ever extends
the list at its end, so all it has to agree with is the tail.

`Reading` puts this together with the bytes: the stream is aligned, the frames pending on it carry
exactly what was sent and not read, and the reader's `read_frame` is suspended in the first of
them. `Reading.feed` is what a byte does, `Reading.write` what a write does, and neither looks
inside a frame.
-/

set_option autoImplicit false

namespace LatticeShield

open Lib EncryptedChannel

/-! ## One frame -/

/-- What the caller of `read_frame` makes of its channel: only the client follows a rotation, and
the bridge never reads one. -/
def follow (C : CipherSuite) (ch : EncryptedChannel) : FrameResult → EncryptedChannel
  | .data _ => ch
  | .keyRotate n => ch.rotateKey C n

inductive Delivers (C : CipherSuite) (R : EncryptedChannel) :
    Bytes → FrameResult → EncryptedChannel → Prop where
  | data {len : UInt32} {seq : UInt64} {nonce : Nonce} {ct : Bytes} {tag : Tag} {p : Bytes}
      (h : AcceptsData C.aead.decrypt R len seq nonce ct tag p) :
      Delivers C R (dataFrame len (u64ToBe seq) nonce ct tag) (.data p) (R.acceptData seq)
  | keyRotate {gcmNonce : Nonce} {ct : Bytes} {tag : Tag} {n : RotationNonce}
      (hlen : ct.length = 32)
      (ho : C.aead.decrypt R.keyBytes gcmNonce (u64ToBe R.keyRotateRecvSeq).toList ct tag =
        some n.toList) :
      Delivers C R (keyRotateFrame gcmNonce ct tag) (.keyRotate n)
        (R.acceptKeyRotate.rotateKey C n)

variable {C : CipherSuite} {R R' R'' : EncryptedChannel}

theorem Delivers.run {f : Bytes} {i : FrameResult} (h : Delivers C R f i R') :
    ∃ ch, (readFrame C.aead.decrypt R).run f = some ((.ok i, ch), []) ∧ R' = follow C ch i := by
  cases h with
  | data h =>
    have hrun := run_readDataFrame [] h
    rw [List.append_nil] at hrun
    exact ⟨_, hrun, rfl⟩
  | keyRotate hlen ho =>
    have hrun := run_readKeyRotateFrame [] hlen ho
    rw [List.append_nil] at hrun
    exact ⟨_, hrun, rfl⟩

theorem Delivers.maxFrameSize_eq {f : Bytes} {i : FrameResult} (h : Delivers C R f i R') :
    R'.maxFrameSize = R.maxFrameSize := by
  cases h <;> rfl

/-- Another channel with the same receiving half. Reading does not look at the rest, so a reader
may write meanwhile. -/
def EncryptedChannel.withSend (ch : EncryptedChannel) (sendSeq keyRotateSendSeq : UInt64) :
    EncryptedChannel :=
  { ch with sendSeq := sendSeq, keyRotateSendSeq := keyRotateSendSeq }

/-- What a channel has sent does not matter for what it reads: of a channel the reading end uses
the key and the two receive counters. -/
theorem Delivers.withSend {f : Bytes} {i : FrameResult} (h : Delivers C R f i R')
    (q k : UInt64) : ∃ q' k', Delivers C (R.withSend q k) f i (R'.withSend q' k') := by
  cases h with
  | data h => exact ⟨q, k, .data ⟨h.len_eq, h.len_le, h.fresh, h.opens⟩⟩
  | keyRotate hlen ho => exact ⟨0, k, .keyRotate (R := R.withSend q k) hlen ho⟩

/-! ## What the writers deliver -/

/-- `write_frame`, to a reader with the same key that has seen no later seq; the length fits its
32-bit field. -/
theorem writeFrame_delivers_of_lt (S : EncryptedChannel) {p : Bytes}
    (hsmall : p.length + 16 < 2 ^ 32) (hp : p.length ≤ R.maxFrameSize)
    (hkey : R.keyBytes = S.keyBytes) (hfresh : R.recvInitialized = true → R.recvSeq < S.sendSeq) :
    ∃ bytes, writeFrame C S .accepts p = ⟨.ok (), { S with sendSeq := S.sendSeq + 1 }, bytes⟩ ∧
      Delivers C R bytes (.data p) (R.acceptData S.sendSeq) := by
  have hgcm : p.length ≤ gcmPMax := by
    unfold gcmPMax
    omega
  obtain ⟨ct, tag, hct, hdec, hwrite⟩ := writeFrame_accepts C S hgcm
  refine ⟨_, hwrite, .data ⟨?_, hct ▸ hp, hfresh, hkey ▸ hdec⟩⟩
  rw [UInt32.toNat_ofNat', hct, Nat.mod_eq_of_lt hsmall]

/-- Every length a configuration allows does. The reader needs the writer's key and a last seq
below the writer's next one. -/
theorem writeFrame_delivers (S : EncryptedChannel) {p : Bytes}
    (hmax : ValidFrameSize R.maxFrameSize) (hp : p.length ≤ R.maxFrameSize)
    (hkey : R.keyBytes = S.keyBytes) (hfresh : R.recvInitialized = true → R.recvSeq < S.sendSeq) :
    ∃ bytes, writeFrame C S .accepts p = ⟨.ok (), { S with sendSeq := S.sendSeq + 1 }, bytes⟩ ∧
      Delivers C R bytes (.data p) (R.acceptData S.sendSeq) := by
  refine writeFrame_delivers_of_lt S ?_ hp hkey hfresh
  have := hmax.2
  omega

/-- `send_key_rotate`, to a reader with the same key and KEY_ROTATE counter. There is no order
among these counters: they must be equal. -/
theorem sendKeyRotate_delivers (S : EncryptedChannel) (gcmNonce : Nonce) (n : RotationNonce)
    (hkey : R.keyBytes = S.keyBytes) (hcount : R.keyRotateRecvSeq = S.keyRotateSendSeq) :
    ∃ bytes, sendKeyRotate C S .accepts gcmNonce n =
        ⟨.ok (), { S with keyRotateSendSeq := S.keyRotateSendSeq + 1 }, bytes⟩ ∧
      Delivers C R bytes (.keyRotate n) (R.acceptKeyRotate.rotateKey C n) := by
  obtain ⟨ct, tag, hct, hdec, hwrite⟩ := sendKeyRotate_accepts C S gcmNonce n
  refine ⟨_, hwrite, .keyRotate hct ?_⟩
  rw [hkey, hcount]
  exact hdec

/-! ## Frames in a row -/

/-- The frames on the wire are read one after the other: each delivers its item to a reader in the
state the one before has left, and following the rotations among them leads from the first reader
to the last. -/
inductive Carries (C : CipherSuite) :
    EncryptedChannel → List Bytes → List FrameResult → EncryptedChannel → Prop where
  | nil (R : EncryptedChannel) : Carries C R [] [] R
  | cons {R R' R'' : EncryptedChannel} {f : Bytes} {i : FrameResult} {fs : List Bytes}
      {is : List FrameResult} (h : Delivers C R f i R') (hs : Carries C R' fs is R'') :
      Carries C R (f :: fs) (i :: is) R''

namespace Carries

variable {fs : List Bytes} {is : List FrameResult}

theorem snoc (hs : Carries C R fs is R') {f : Bytes} {i : FrameResult}
    (h : Delivers C R' f i R'') : Carries C R (fs ++ [f]) (is ++ [i]) R'' := by
  induction hs with
  | nil R => exact .cons h (.nil _)
  | cons h₁ _ ih => exact .cons h₁ (ih h)

/-- A reader that holds no bytes may send, for its sending half is not looked at when it reads.
The tail then differs in that half alone. -/
theorem withSend (hs : Carries C R fs is R') (q k : UInt64) :
    ∃ q' k', Carries C (R.withSend q k) fs is (R'.withSend q' k') := by
  induction hs generalizing q k with
  | nil R => exact ⟨q, k, .nil _⟩
  | cons h _ ih =>
    obtain ⟨q₁, k₁, h₁⟩ := h.withSend q k
    obtain ⟨q₂, k₂, h₂⟩ := ih q₁ k₁
    exact ⟨q₂, k₂, .cons h₁ h₂⟩

theorem maxFrameSize_eq (hs : Carries C R fs is R') : R'.maxFrameSize = R.maxFrameSize := by
  induction hs with
  | nil R => rfl
  | cons h _ ih => rw [ih, h.maxFrameSize_eq]

/-- As long as no rotation is on its way, the tail has the reader's key. -/
theorem keyBytes_eq (hs : Carries C R fs is R') (hrot : Session.rotations is = 0) :
    R'.keyBytes = R.keyBytes := by
  induction hs with
  | nil R => rfl
  | cons h _ ih =>
    cases h with
    | data h => exact ih hrot
    | keyRotate => exact absurd hrot (by simp [Session.rotations])

end Carries

/-! ## A reader and its stream -/

theorem readFrame_run_nil (ch : EncryptedChannel) :
    (readFrame C.aead.decrypt ch).run [] = none := by
  simp [readFrame, Reader.run]

/-- `read` has been read, and the rest of `sent` is on `w`, up to a reader in the state `tail`.
The invariant of one direction, whatever the reader does between its bytes. -/
structure Reading (C : CipherSuite) (ch : EncryptedChannel) (taken : Bytes) (w : Wire)
    (read sent : List FrameResult) (tail : EncryptedChannel) : Prop where
  aligned : ∃ done pending items, w.Aligned taken done pending ∧ done.length = read.length ∧
    Carries C ch pending items tail ∧ read ++ items = sent
  suspended : (readFrame C.aead.decrypt ch).run taken = none

namespace Reading

variable {ch tail : EncryptedChannel} {taken : Bytes} {w : Wire} {read sent : List FrameResult}

theorem start (ch : EncryptedChannel) : Reading C ch [] .empty [] [] ch where
  aligned := ⟨[], [], [], Wire.aligned_empty, rfl, .nil ch, rfl⟩
  suspended := readFrame_run_nil ch

/-- **A byte that arrives** completes the first pending frame, which is read as what was sent, or
leaves the reader suspended in it. There is no third case: as long as the invariant holds no byte
makes `read_frame` fail. -/
theorem feed (h : Reading C ch taken w read sent tail) {b : UInt8} {more : Bytes}
    (hb : w.unread = b :: more) :
    (∃ i ch', ch.pollFrame C taken b = some (.ok i, ch') ∧
      Reading C (follow C ch' i) [] (w.advance (decide (taken = []))) (read ++ [i]) sent tail) ∨
    (ch.pollFrame C taken b = none ∧
      Reading C ch (taken ++ [b]) (w.advance (decide (taken = []))) read sent tail) := by
  obtain ⟨done, pending, items, hal, hlen, hcar, hsent⟩ := h.aligned
  cases hcar with
  | nil => exact absurd hb (by simp [hal.nil_iff])
  | @cons _ R' _ f i fs is hdel hrest =>
    obtain ⟨ch', hrun, rfl⟩ := hdel.run
    rcases hal.feed hrun h.suspended hb with ⟨hdone, hal'⟩ | ⟨hnone, hal'⟩
    · refine Or.inl ⟨i, ch', by rw [pollFrame, hdone, Option.map_some], ?_, readFrame_run_nil _⟩
      exact ⟨done ++ [f], fs, is, hal', by simp [hlen], hrest, by simp [← hsent]⟩
    · refine Or.inr ⟨by rw [pollFrame, hnone, Option.map_none], ?_, hnone⟩
      exact ⟨done, f :: fs, i :: is, hal', hlen, .cons hdel hrest, hsent⟩

/-- **A write** goes to the end. -/
theorem write (h : Reading C ch taken w read sent tail) {f : Bytes} {i : FrameResult}
    {tail' : EncryptedChannel} (hdel : Delivers C tail f i tail') :
    Reading C ch taken (w.write [f]) read (sent ++ [i]) tail' := by
  obtain ⟨done, pending, items, hal, hlen, hcar, hsent⟩ := h.aligned
  refine ⟨⟨done, pending ++ [f], items ++ [i], hal.write [f], hlen, hcar.snoc hdel, ?_⟩,
    h.suspended⟩
  rw [← List.append_assoc, hsent]

/-- A reader that holds no bytes may send. -/
theorem withSend (h : Reading C ch [] w read sent tail) (q k : UInt64) :
    ∃ q' k', Reading C (ch.withSend q k) [] w read sent (tail.withSend q' k') := by
  obtain ⟨done, pending, items, hal, hlen, hcar, hsent⟩ := h.aligned
  obtain ⟨q', k', hcar'⟩ := hcar.withSend q k
  exact ⟨q', k', ⟨done, pending, items, hal, hlen, hcar', hsent⟩, readFrame_run_nil _⟩

/-- Once nothing is unread, everything has been read. -/
theorem drained (h : Reading C ch taken w read sent tail) (hun : w.unread = []) :
    read = sent ∧ tail = ch ∧ taken = [] := by
  obtain ⟨done, pending, items, hal, -, hcar, hsent⟩ := h.aligned
  cases hcar with
  | nil => exact ⟨by simpa using hsent, rfl, hal.nil_iff.1⟩
  | cons hdel _ =>
    obtain ⟨ch', hrun, -⟩ := hdel.run
    exact absurd hun (hal.unread_ne_nil hrun h.suspended)

/-- A drained stream carries for any reader, also one with another key: this is what lets the
bridge rotate when nothing of the client is unread. -/
theorem of_drained (h : Reading C ch taken w read sent tail) (hun : w.unread = [])
    (ch' : EncryptedChannel) : Reading C ch' [] w read sent ch' := by
  obtain ⟨hread, -, htaken⟩ := h.drained hun
  obtain ⟨done, pending, items, hal, hlen, hcar, hsent⟩ := h.aligned
  subst htaken
  have hitems : items = [] := by
    rw [hread] at hsent
    exact List.append_right_eq_self.mp hsent
  subst hitems
  cases hcar
  exact ⟨⟨done, [], [], hal, hlen, .nil ch', hsent⟩, readFrame_run_nil _⟩

theorem isPrefix (h : Reading C ch taken w read sent tail) : read <+: sent := by
  obtain ⟨_, _, items, -, -, -, hsent⟩ := h.aligned
  exact ⟨items, hsent⟩

theorem starts (h : Reading C ch taken w read sent tail) : w.StartsAligned := by
  obtain ⟨_, _, _, hal, -⟩ := h.aligned
  exact hal.starts

theorem delivered (h : Reading C ch taken w read sent tail) : w.Delivered read.length := by
  obtain ⟨done, pending, items, hal, hlen, hcar, -⟩ := h.aligned
  refine hlen ▸ hal.delivered (?_) h.suspended
  intro f hf
  cases hcar with
  | nil => exact absurd hf (by simp)
  | cons hdel _ =>
    obtain ⟨ch', hrun, -⟩ := hdel.run
    rw [List.head?_cons, Option.mem_some_iff] at hf
    exact ⟨_, hf ▸ hrun⟩

theorem maxFrameSize_eq (h : Reading C ch taken w read sent tail) :
    tail.maxFrameSize = ch.maxFrameSize := by
  obtain ⟨_, _, _, -, -, hcar, -⟩ := h.aligned
  exact hcar.maxFrameSize_eq

/-- With as many rotations read as sent, the tail has the reader's key. -/
theorem keyBytes_eq (h : Reading C ch taken w read sent tail)
    (hrot : Session.rotations sent = Session.rotations read) : tail.keyBytes = ch.keyBytes := by
  obtain ⟨_, _, items, -, -, hcar, hsent⟩ := h.aligned
  refine hcar.keyBytes_eq ?_
  rw [← hsent, Session.rotations_append] at hrot
  omega

end Reading

/-! ## One direction of a session -/

open Session in
/-- What holds of one direction: the reads so far are what was sent, in order, and so is what was
forwarded of them. While the reader is `live` it is also in step with the stream, and whoever
writes to it `agrees` with its tail. -/
structure Lane (C : CipherSuite) (live : Prop) (agrees : EncryptedChannel → Prop)
    (ch : EncryptedChannel) (taken : Bytes) (w : Wire)
    (reads : List (Except FrameError FrameResult)) (sent : List FrameResult)
    (forwarded : List Bytes) : Prop where
  reading : live → ∃ tail, Reading C ch taken w (accepted reads) sent tail ∧ agrees tail
  forwarded_eq : live → forwarded = plaintexts (accepted reads)
  inOrder : accepted reads <+: sent
  forwarded_isPrefix : forwarded <+: plaintexts (accepted reads)
  delivered : w.Delivered (accepted reads).length
  starts : w.StartsAligned
  onlyEof : ∀ e, .error e ∈ reads → e = .io .unexpectedEof

namespace Lane

variable {live : Prop} {agrees : EncryptedChannel → Prop} {ch : EncryptedChannel} {taken : Bytes}
  {w : Wire} {reads : List (Except FrameError FrameResult)} {sent : List FrameResult}
  {forwarded : List Bytes}

open Session

/-- A reader in step with its stream has everything else: what was forwarded is what was read, and
no read failed but at the end. -/
theorem of_reading {tail : EncryptedChannel}
    (h : Reading C ch taken w (accepted reads) sent tail) (hagrees : agrees tail)
    (hlive : live → forwarded = plaintexts (accepted reads))
    (hpre : forwarded <+: plaintexts (accepted reads))
    (heof : ∀ e, .error e ∈ reads → e = .io .unexpectedEof) :
    Lane C live agrees ch taken w reads sent forwarded where
  reading := fun _ => ⟨tail, h, hagrees⟩
  forwarded_eq := hlive
  inOrder := h.isPrefix
  forwarded_isPrefix := hpre
  delivered := h.delivered
  starts := h.starts
  onlyEof := heof

theorem start (hagrees : agrees ch) : Lane C live agrees ch [] .empty [] [] [] :=
  of_reading (Reading.start ch) hagrees (fun _ => rfl) (List.prefix_refl _) (by simp)

/-- Once the loop has ended, only the history counts. What its channel and its pending read are is
no longer asked. -/
theorem stop (h : Lane C live agrees ch taken w reads sent forwarded) {live' : Prop}
    {agrees' : EncryptedChannel → Prop} (hdead : ¬ live') (ch' : EncryptedChannel)
    (taken' : Bytes) : Lane C live' agrees' ch' taken' w reads sent forwarded :=
  { h with
    reading := fun hl => absurd hl hdead
    forwarded_eq := fun hl => absurd hl hdead }

theorem stop_eof (h : Lane C live agrees ch taken w reads sent forwarded) {live' : Prop}
    {agrees' : EncryptedChannel → Prop} (hdead : ¬ live') (ch' : EncryptedChannel)
    (taken' : Bytes) :
    Lane C live' agrees' ch' taken' w (reads ++ [.error (.io .unexpectedEof)]) sent forwarded := by
  have hacc : accepted (reads ++ [.error (.io .unexpectedEof)]) = accepted reads := by
    rw [accepted_append, accepted_error, List.append_nil]
  refine ⟨fun hl => absurd hl hdead, fun hl => absurd hl hdead, ?_, ?_, ?_, h.starts, ?_⟩
  · rw [hacc]; exact h.inOrder
  · rw [hacc]; exact h.forwarded_isPrefix
  · rw [hacc]; exact h.delivered
  · intro e he
    rcases List.mem_append.mp he with he | he
    · exact h.onlyEof e he
    · simpa using he

theorem mono (h : Lane C live agrees ch taken w reads sent forwarded)
    {agrees' : EncryptedChannel → Prop} (hmono : ∀ tail, agrees tail → agrees' tail) :
    Lane C live agrees' ch taken w reads sent forwarded :=
  { h with
    reading := fun hl => by
      obtain ⟨tail, hread, hag⟩ := h.reading hl
      exact ⟨tail, hread, hmono tail hag⟩ }

/-- The peer writes a frame. It need agree with the tail only if anybody is reading; to a loop
that has ended anything may be written. -/
theorem write (h : Lane C live agrees ch taken w reads sent forwarded) {f : Bytes}
    {i : FrameResult} {agrees' : EncryptedChannel → Prop} (hne : f ≠ [])
    (hdel : live → ∀ tail, Reading C ch taken w (accepted reads) sent tail → agrees tail →
      ∃ tail', Delivers C tail f i tail' ∧ agrees' tail') :
    Lane C live agrees' ch taken (w.write [f]) reads (sent ++ [i]) forwarded where
  reading := fun hl => by
    obtain ⟨tail, hread, hag⟩ := h.reading hl
    obtain ⟨tail', hd, hag'⟩ := hdel hl tail hread hag
    exact ⟨tail', hread.write hd, hag'⟩
  forwarded_eq := h.forwarded_eq
  inOrder := h.inOrder.trans (List.prefix_append _ _)
  forwarded_isPrefix := h.forwarded_isPrefix
  delivered := h.delivered.write (by simpa using hne.symm)
  starts := h.starts.write [f]
  onlyEof := h.onlyEof

/-- **A byte that arrives.** If it completes a frame, that is one of those sent, and the loop
forwards its plaintext or ends. -/
theorem feed (h : Lane C live agrees ch taken w reads sent forwarded) (hlive : live) {b : UInt8}
    {more : Bytes} (hb : w.unread = b :: more) :
    (∃ i ch', ch.pollFrame C taken b = some (.ok i, ch') ∧ i ∈ sent ∧
      (follow C ch' i).maxFrameSize = ch.maxFrameSize ∧
      Lane C live agrees (follow C ch' i) [] (w.advance (decide (taken = []))) (reads ++ [.ok i])
        sent (forwarded ++ plaintexts [i]) ∧
      ∀ live', ¬ live' → Lane C live' agrees (follow C ch' i) []
        (w.advance (decide (taken = []))) (reads ++ [.ok i]) sent forwarded) ∨
    (ch.pollFrame C taken b = none ∧
      Lane C live agrees ch (taken ++ [b]) (w.advance (decide (taken = []))) reads sent
        forwarded) := by
  obtain ⟨tail, hread, hag⟩ := h.reading hlive
  have hfwd := h.forwarded_eq hlive
  rcases hread.feed hb with ⟨i, ch', hpoll, hread'⟩ | ⟨hpoll, hread'⟩
  · have heof : ∀ e, .error e ∈ reads ++ [.ok i] → e = .io .unexpectedEof := by
      intro e he
      exact h.onlyEof e (by simpa using he)
    have hacc : accepted (reads ++ [.ok i]) = accepted reads ++ [i] := by
      rw [accepted_append, accepted_ok]
    have htext : forwarded ++ plaintexts [i] = plaintexts (accepted (reads ++ [.ok i])) := by
      rw [hacc, plaintexts_append, hfwd]
    have hlane : Lane C live agrees (follow C ch' i) [] (w.advance (decide (taken = [])))
        (reads ++ [.ok i]) sent (forwarded ++ plaintexts [i]) := by
      exact of_reading (hacc ▸ hread') hag (fun _ => htext) (htext ▸ List.prefix_refl _) heof
    refine Or.inl ⟨i, ch', hpoll, hread'.isPrefix.subset (by simp), ?_, hlane, ?_⟩
    · rw [← hread'.maxFrameSize_eq, hread.maxFrameSize_eq]
    · intro live' hdead
      refine of_reading (hacc ▸ hread') hag (fun hl => absurd hl hdead) ?_ heof
      rw [← htext]
      exact List.prefix_append _ _
  · exact Or.inr ⟨hpoll, of_reading hread' hag h.forwarded_eq h.forwarded_isPrefix h.onlyEof⟩

/-- A reader that is alive and has nothing left to read has forwarded everything. -/
theorem forwarded_all (h : Lane C live agrees ch taken w reads sent forwarded) (hlive : live)
    (hun : w.unread = []) : forwarded = plaintexts sent := by
  obtain ⟨tail, hread, -⟩ := h.reading hlive
  rw [h.forwarded_eq hlive, (hread.drained hun).1]

end Lane

end LatticeShield
