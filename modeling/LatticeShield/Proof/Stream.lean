import LatticeShield.Crypto.Sample
import LatticeShield.Proof.Delivery
import LatticeShield.Relay.Bridge

/-!
# One direction of a session, from end to end

The bridge writes DATA frames and rotates, the client reads what was written and follows; in
between the client writes frames of its own. Nobody interferes and the bytes arrive in order, so
every run has the same ending: all that was written is read, as what it was.

The two channels share eight counters and no variable, and they are compared at the *tail* of the
stream: the client as it will be once it has read everything. `Matches` is what holds between the
bridge and that tail. A write moves both of them, a read neither, and a frame of the client's own
moves only counters that nobody compares.

The one thing that can go wrong is `send_seq` running over. It starts again at 0 after `2 ^ 64`
frames without a rotation, and 0 is then a replay (`wrapped_seq_refused`).
-/

set_option autoImplicit false

namespace LatticeShield

open Lib EncryptedChannel

/-! ## The system -/

inductive StreamOp where
  /-- `write_frame` of the sender. -/
  | write (p : Bytes)
  /-- `do_rotate` of the sender. -/
  | rotate (gcmNonce : Nonce) (nonce : RotationNonce)
  /-- `write_frame` of the receiver. -/
  | reply (w : Writer) (p : Bytes)
  /-- `read_frame` of the receiver, and `rotate_key` if a KEY_ROTATE was read. -/
  | read
deriving DecidableEq

structure Stream where
  sender : EncryptedChannel
  receiver : EncryptedChannel
  /-- Written and not yet read. -/
  unread : Bytes
  results : List (Except FrameError FrameResult)

namespace Stream

def new (key : Key) (sendMax recvMax : Nat) : Stream where
  sender := .new key sendMax
  receiver := .new key recvMax
  unread := []
  results := []

/-- A `read` of a stream on which no whole frame has arrived is suspended, and takes nothing. -/
def step (C : CipherSuite) (s : Stream) : StreamOp → Stream
  | .write p =>
    let out := s.sender.writeFrame C .accepts p
    { s with sender := out.channel, unread := s.unread ++ out.bytes }
  | .rotate gcmNonce nonce =>
    let out := Bridge.doRotate C s.sender ⟨.accepts, .accepts, nonce, gcmNonce⟩
    { s with sender := out.channel, unread := s.unread ++ out.bytes }
  | .reply w p => { s with receiver := (s.receiver.writeFrame C w p).channel }
  | .read =>
    match (s.receiver.readFrame C.aead.decrypt).run s.unread with
    | none => s
    | some ((.ok i, ch), rest) =>
      { s with receiver := follow C ch i, unread := rest, results := s.results ++ [.ok i] }
    | some ((.error e, ch), rest) =>
      { s with receiver := ch, unread := rest, results := s.results ++ [.error e] }

def run (C : CipherSuite) (s : Stream) (ops : List StreamOp) : Stream := ops.foldl (step C) s

end Stream

/-- What the sender has put on the stream, in the receiver's words. Replies go the other way and
add nothing to it. -/
def StreamOp.item : StreamOp → Option FrameResult
  | .write p => some (.data p)
  | .rotate _ n => some (.keyRotate n)
  | .reply _ _ => none
  | .read => none

def StreamOp.items (ops : List StreamOp) : List FrameResult := ops.filterMap item

theorem StreamOp.items_snoc (ops : List StreamOp) (op : StreamOp) :
    items (ops ++ [op]) = items ops ++ op.item.toList := by
  rw [items, List.filterMap_append]
  cases op <;> rfl

def StreamOp.count (n : Nat) : StreamOp → Nat
  | .write _ => n + 1
  | .rotate _ _ => 0
  | .reply _ _ => n
  | .read => n

/-- How many DATA frames have been written since the last rotation. -/
def StreamOp.sinceRotation (ops : List StreamOp) : Nat := ops.foldl count 0

theorem StreamOp.sinceRotation_snoc (ops : List StreamOp) (op : StreamOp) :
    sinceRotation (ops ++ [op]) = op.count (sinceRotation ops) := List.foldl_append

theorem StreamOp.sinceRotation_le_length (ops : List StreamOp) :
    sinceRotation ops ≤ ops.length := by
  induction ops using List.reverseRecOn with
  | nil => exact Nat.zero_le _
  | append_singleton ops op ih =>
    rw [sinceRotation_snoc, List.length_append, List.length_singleton]
    cases op with
    | write p => exact Nat.succ_le_succ ih
    | rotate gcmNonce nonce => exact Nat.zero_le _
    | reply w p => exact ih.trans (Nat.le_succ _)
    | read => exact ih.trans (Nat.le_succ _)

/-- The receiver's own operations. -/
def StreamOp.ofReceiver : StreamOp → Bool
  | .write _ => false
  | .rotate _ _ => false
  | .reply _ _ => true
  | .read => true

/-! ## Sender and tail -/

/-- The sender, and the receiver as it will be once it has read everything; `n` DATA frames have
been written since the last rotation. Two channels that match differ only in what the one has not
sent and the other not read. -/
structure Matches (S tail : EncryptedChannel) (n : Nat) : Prop where
  key : tail.keyBytes = S.keyBytes
  epoch : tail.epoch = S.epoch
  rotateSeq : tail.keyRotateRecvSeq = S.keyRotateSendSeq
  sendSeq : S.sendSeq = UInt64.ofNat n
  initialized : tail.recvInitialized = decide (0 < n)
  recvSeq : 0 < n → tail.recvSeq + 1 = S.sendSeq

namespace Matches

variable {C : CipherSuite} {S tail : EncryptedChannel} {n : Nat}

theorem new (key : Key) (sendMax recvMax : Nat) :
    Matches (.new key sendMax) (.new key recvMax) 0 :=
  ⟨rfl, rfl, rfl, rfl, rfl, fun h => absurd h (Nat.lt_irrefl 0)⟩

theorem withSend (h : Matches S tail n) (q k : UInt64) : Matches S (tail.withSend q k) n :=
  ⟨h.key, h.epoch, h.rotateSeq, h.sendSeq, h.initialized, h.recvSeq⟩

/-- Below `2 ^ 64` frames the next seq is above the last one. This is where the number of frames
counts. -/
theorem fresh (h : Matches S tail n) (hn : n < 2 ^ 64) (hinit : tail.recvInitialized = true) :
    tail.recvSeq < S.sendSeq := by
  have hpos : 0 < n := by simpa [h.initialized] using hinit
  have hseq := h.recvSeq hpos
  rw [h.sendSeq] at hseq ⊢
  have hnat := congrArg UInt64.toNat hseq
  rw [UInt64.toNat_add, UInt64.toNat_ofNat', Nat.mod_eq_of_lt hn] at hnat
  rw [UInt64.lt_iff_toNat_lt, UInt64.toNat_ofNat', Nat.mod_eq_of_lt hn]
  have := tail.recvSeq.toNat_lt
  simp at hnat
  omega

theorem write (h : Matches S tail n) :
    Matches { S with sendSeq := S.sendSeq + 1 } (tail.acceptData S.sendSeq) (n + 1) where
  key := h.key
  epoch := h.epoch
  rotateSeq := h.rotateSeq
  sendSeq := by
    show S.sendSeq + 1 = _
    rw [h.sendSeq, UInt64.ofNat_add]
    rfl
  initialized := by simp [acceptData]
  recvSeq := fun _ => rfl

theorem rotate (h : Matches S tail n) (nonce : RotationNonce) :
    Matches
      (EncryptedChannel.rotateKey C { S with keyRotateSendSeq := S.keyRotateSendSeq + 1 } nonce)
      (tail.acceptKeyRotate.rotateKey C nonce) 0 where
  key := by simp only [rotateKey, acceptKeyRotate, h.key]
  epoch := by simp only [rotateKey, acceptKeyRotate, h.epoch]
  rotateSeq := by simp only [rotateKey, acceptKeyRotate, h.rotateSeq]
  sendSeq := rfl
  initialized := rfl
  recvSeq := fun h => absurd h (Nat.lt_irrefl 0)

end Matches

/-! ## The invariant -/

/-- `done` has been read and `pending` is on its way to a receiver with `max_frame_size = size`.
The frames in flight lead from the receiver as it is to one that matches the sender. -/
structure Coupled (C : CipherSuite) (size : Nat) (s : Stream) (done pending : List FrameResult)
    (n : Nat) : Prop where
  carries : ∃ fs tail, s.unread = fs.flatten ∧ Carries C s.receiver fs pending tail ∧
    Matches s.sender tail n
  results : s.results = done.map .ok
  frameSize : s.receiver.maxFrameSize = size

namespace Coupled

variable {C : CipherSuite} {size : Nat} {s : Stream} {done pending : List FrameResult} {n : Nat}

theorem new (key : Key) (sendMax : Nat) : Coupled C size (.new key sendMax size) [] [] 0 where
  carries := ⟨[], _, rfl, .nil _, Matches.new key sendMax size⟩
  results := rfl
  frameSize := rfl

theorem write (h : Coupled C size s done pending n) {p : Bytes} (hsmall : p.length + 16 < 2 ^ 32)
    (hp : p.length ≤ size) (hn : n < 2 ^ 64) :
    Coupled C size (s.step C (.write p)) done (pending ++ [.data p]) (n + 1) := by
  obtain ⟨fs, tail, hunread, hcar, hm⟩ := h.carries
  have hfits : p.length ≤ tail.maxFrameSize := by rw [hcar.maxFrameSize_eq, h.frameSize]; exact hp
  obtain ⟨bytes, hwrite, hdel⟩ := writeFrame_delivers_of_lt (C := C) s.sender hsmall hfits hm.key
    (hm.fresh hn)
  refine ⟨⟨fs ++ [bytes], _, ?_, hcar.snoc hdel, ?_⟩, h.results, h.frameSize⟩
  · simp only [Stream.step, hwrite, hunread, List.flatten_append, List.flatten_singleton]
  · simp only [Stream.step, hwrite]
    exact hm.write

theorem rotate (h : Coupled C size s done pending n) (gcmNonce : Nonce) (nonce : RotationNonce) :
    Coupled C size (s.step C (.rotate gcmNonce nonce)) done (pending ++ [.keyRotate nonce]) 0 := by
  obtain ⟨fs, tail, hunread, hcar, hm⟩ := h.carries
  obtain ⟨bytes, hsend, hdel⟩ := sendKeyRotate_delivers (C := C) s.sender gcmNonce nonce hm.key
    hm.rotateSeq
  refine ⟨⟨fs ++ [bytes], _, ?_, hcar.snoc hdel, ?_⟩, h.results, h.frameSize⟩
  · simp only [Stream.step, Bridge.doRotate, hsend, hunread, List.flatten_append,
      List.flatten_singleton]
  · simp only [Stream.step, Bridge.doRotate, hsend]
    exact hm.rotate nonce

/-- A frame of the receiver's own changes nothing that is compared. -/
theorem reply (h : Coupled C size s done pending n) (w : Writer) (p : Bytes) :
    Coupled C size (s.step C (.reply w p)) done pending n := by
  obtain ⟨fs, tail, hunread, hcar, hm⟩ := h.carries
  have hch : (s.step C (.reply w p)).receiver = s.receiver ∨ (s.step C (.reply w p)).receiver =
      s.receiver.withSend (s.receiver.sendSeq + 1) s.receiver.keyRotateSendSeq := by
    simp only [Stream.step, writeFrame_channel]
    split
    · exact Or.inr rfl
    · exact Or.inl rfl
  rcases hch with hch | hch
  · exact ⟨⟨fs, tail, hunread, hch ▸ hcar, hm⟩, h.results, by rw [hch]; exact h.frameSize⟩
  · obtain ⟨q, k, hcar'⟩ := hcar.withSend (s.receiver.sendSeq + 1) s.receiver.keyRotateSendSeq
    exact ⟨⟨fs, _, hunread, hch ▸ hcar', hm.withSend q k⟩, h.results,
      by rw [hch]; exact h.frameSize⟩

theorem read_nil (h : Coupled C size s done [] n) : s.step C .read = s := by
  obtain ⟨fs, tail, hunread, hcar, -⟩ := h.carries
  cases hcar with
  | nil =>
    have hnone : (s.receiver.readFrame C.aead.decrypt).run s.unread = none := by
      rw [hunread]
      exact readFrame_run_nil _
    simp only [Stream.step, hnone]

/-- With something pending it returns the first of it. -/
theorem read_cons {i : FrameResult} (h : Coupled C size s done (i :: pending) n) :
    Coupled C size (s.step C .read) (done ++ [i]) pending n := by
  obtain ⟨fs, tail, hunread, hcar, hm⟩ := h.carries
  cases hcar with
  | @cons _ R' _ f _ fs' _ hdel hrest =>
    have hsize := hdel.maxFrameSize_eq
    obtain ⟨ch, hrun, rfl⟩ := hdel.run
    have hread : (s.receiver.readFrame C.aead.decrypt).run s.unread =
        some ((.ok i, ch), fs'.flatten) := by
      rw [hunread, List.flatten_cons]
      exact Reader.run_append hrun
    have hstep : s.step C .read = { s with
        receiver := follow C ch i, unread := fs'.flatten, results := s.results ++ [.ok i] } := by
      simp only [Stream.step, hread]
    rw [hstep]
    exact ⟨⟨fs', tail, rfl, hrest, hm⟩, by simp [h.results], hsize.trans h.frameSize⟩

/-! ## Runs -/

/-- One operation, whichever it is: it moves items from what is written to what is pending, or
from there to what is done. -/
theorem step (h : Coupled C size s done pending n) (hsize : size + 16 < 2 ^ 32) (op : StreamOp)
    (hfit : ∀ p, op = .write p → p.length ≤ size ∧ n < 2 ^ 64) :
    ∃ done' pending', Coupled C size (s.step C op) done' pending' (op.count n) ∧
      done' ++ pending' = done ++ pending ++ op.item.toList := by
  cases op with
  | write p =>
    obtain ⟨hp, hn⟩ := hfit p rfl
    exact ⟨_, _, h.write (by omega) hp hn, by simp [StreamOp.item]⟩
  | rotate gcmNonce nonce => exact ⟨_, _, h.rotate gcmNonce nonce, by simp [StreamOp.item]⟩
  | reply w p => exact ⟨_, _, h.reply w p, by simp [StreamOp.item]⟩
  | read =>
    cases pending with
    | nil => exact ⟨_, _, h.read_nil.symm ▸ h, by simp [StreamOp.item]⟩
    | cons i pending => exact ⟨_, _, h.read_cons, by simp [StreamOp.item]⟩

variable (C) in
/-- The induction is on the operations from the right: what is asked of a prefix is asked of every
shorter one. -/
theorem run (hsize : size + 16 < 2 ^ 32) (key : Key) (sendMax : Nat) (ops : List StreamOp)
    (hfit : ∀ p, .write p ∈ ops → p.length ≤ size)
    (hseq : ∀ pre, pre <+: ops → StreamOp.sinceRotation pre ≤ 2 ^ 64) :
    ∃ done pending, Coupled C size ((Stream.new key sendMax size).run C ops) done pending
        (StreamOp.sinceRotation ops) ∧
      done ++ pending = StreamOp.items ops := by
  induction ops using List.reverseRecOn with
  | nil => exact ⟨[], [], Coupled.new key sendMax, rfl⟩
  | append_singleton ops op ih =>
    obtain ⟨done, pending, hc, hitems⟩ := ih (fun p hp => hfit p (List.mem_append_left _ hp))
      (fun pre hpre => hseq pre (hpre.trans (List.prefix_append _ _)))
    have hbound := hseq (ops ++ [op]) (List.prefix_refl _)
    rw [StreamOp.sinceRotation_snoc] at hbound ⊢
    obtain ⟨done', pending', hc', hitems'⟩ := hc.step hsize op fun p hp =>
      ⟨hfit p (by rw [hp]; simp), by subst hp; exact hbound⟩
    refine ⟨done', pending', ?_, ?_⟩
    · rw [Stream.run, List.foldl_append]
      exact hc'
    · rw [hitems', hitems, StreamOp.items_snoc]

/-- Enough reads read everything, whatever the receiver writes in between. A read returns one
frame, so as many are enough as there are pending. -/
theorem drain (h : Coupled C size s done pending n) (more : List StreamOp)
    (hmore : ∀ op ∈ more, op.ofReceiver = true)
    (hreads : pending.length ≤ more.count .read) :
    Coupled C size (s.run C more) (done ++ pending) [] n := by
  induction more generalizing s done pending with
  | nil =>
    obtain rfl := List.length_eq_zero_iff.mp (Nat.le_zero.mp hreads)
    rw [List.append_nil]
    exact h
  | cons op more ih =>
    have hmore' : ∀ op ∈ more, op.ofReceiver = true :=
      fun op hop => hmore op (List.mem_cons_of_mem _ hop)
    cases op with
    | write p => exact absurd (hmore _ List.mem_cons_self) (by simp [StreamOp.ofReceiver])
    | rotate gcmNonce nonce =>
      exact absurd (hmore _ List.mem_cons_self) (by simp [StreamOp.ofReceiver])
    | reply w p =>
      rw [List.count_cons_of_ne (by simp)] at hreads
      exact ih (h.reply w p) hmore' hreads
    | read =>
      rw [List.count_cons_self] at hreads
      cases pending with
      | nil =>
        have hrest := ih (h.read_nil.symm ▸ h) hmore' (Nat.zero_le _)
        exact hrest
      | cons i pending =>
        have hrest := ih h.read_cons hmore' (Nat.le_of_succ_le_succ hreads)
        rw [List.append_assoc, List.singleton_append] at hrest
        exact hrest

end Coupled

/-- **What one end writes, the other reads.** Through any number of rotations, whatever either end
writes in between and whenever it reads: with enough reads after the last write everything written
has been returned in order and every byte consumed, no read has failed, and the two channels
agree. No more than `2 ^ 64` DATA frames may be written under one key, which is the limit of the
wire format; that a frame fits the receiver is the configuration's to see to. -/
theorem stream_roundTrip (C : CipherSuite) (key : Key) (sendMax recvMax : Nat)
    (hmax : recvMax + 16 < 2 ^ 32) (ops more : List StreamOp)
    (hfit : ∀ p, .write p ∈ ops → p.length ≤ recvMax)
    (hseq : ∀ pre, pre <+: ops → StreamOp.sinceRotation pre ≤ 2 ^ 64)
    (hmore : ∀ op ∈ more, op.ofReceiver = true)
    (hreads : (StreamOp.items ops).length ≤ more.count .read) :
    let s := (Stream.new key sendMax recvMax).run C (ops ++ more)
    s.results = (StreamOp.items ops).map .ok ∧ s.unread = [] ∧
    s.receiver.keyBytes = s.sender.keyBytes ∧ s.receiver.epoch = s.sender.epoch ∧
    s.receiver.keyRotateRecvSeq = s.sender.keyRotateSendSeq ∧
    (0 < StreamOp.sinceRotation ops → s.receiver.recvSeq + 1 = s.sender.sendSeq) := by
  intro s
  obtain ⟨done, pending, hc, hitems⟩ := Coupled.run C hmax key sendMax ops hfit hseq
  have hlen : pending.length ≤ more.count .read := by
    rw [← hitems, List.length_append] at hreads
    omega
  have hend : Coupled C recvMax s (StreamOp.items ops) [] (StreamOp.sinceRotation ops) := by
    have := hc.drain more hmore hlen
    rw [hitems] at this
    rw [show s = _ from List.foldl_append]
    exact this
  obtain ⟨fs, tail, hunread, hcar, hm⟩ := hend.carries
  cases hcar with
  | nil => exact ⟨hend.results, hunread, hm.key, hm.epoch, hm.rotateSeq, hm.recvSeq⟩

/-- Two payloads, one of them empty, on either side of a rotation, and a frame of the receiver's
own in between. -/
theorem stream_roundTrip_one_rotation :
    ((Stream.new Sample.key Sample.frameSize Sample.frameSize).run Sample.suite
      ([.write [1, 2, 3], .reply .accepts [7], .rotate (Sample.gcm 1) (Sample.rot 1), .write []] ++
        [.read, .reply .accepts [8], .read, .read])).results =
      [.ok (.data [1, 2, 3]), .ok (.keyRotate (Sample.rot 1)), .ok (.data [])] :=
  (stream_roundTrip Sample.suite Sample.key Sample.frameSize Sample.frameSize (by decide) _ _
    (by simp [Sample.frameSize])
    (fun pre hpre => (StreamOp.sinceRotation_le_length pre).trans
      (hpre.length_le.trans (by decide)))
    (by decide) (by decide)).1

/-! ## Running over -/

/-- `n` empty frames and as many reads, and one more of each. -/
def StreamOp.emptyFrames (n : Nat) : List StreamOp :=
  List.replicate n (.write []) ++ List.replicate n .read ++ [.write [], .read]

theorem StreamOp.length_of_mem_emptyFrames {n : Nat} {p : Bytes} (h : .write p ∈ emptyFrames n) :
    p.length = 0 := by
  have hp : p = [] := by
    simp only [emptyFrames, List.mem_append, List.mem_replicate] at h
    rcases h with (h | h) | h <;> simp_all
  rw [hp, List.length_nil]

theorem StreamOp.items_replicate_write (n : Nat) (p : Bytes) :
    items (List.replicate n (.write p)) = List.replicate n (.data p) := by
  induction n with
  | zero => rfl
  | succ n ih => rw [List.replicate_succ', items_snoc, ih, item, List.replicate_succ',
      Option.toList_some]

theorem StreamOp.sinceRotation_replicate_write (n : Nat) (p : Bytes) :
    sinceRotation (List.replicate n (.write p)) = n := by
  induction n with
  | zero => rfl
  | succ n ih => rw [List.replicate_succ', sinceRotation_snoc, ih, count]

/-- After `2 ^ 64` frames, all of them read, `send_seq` is 0 and `recv_seq` as large as can be. -/
theorem Coupled.refused {C : CipherSuite} {size n : Nat} {s : Stream} {done : List FrameResult}
    (h : Coupled C size s done [] n) (hn : n = 2 ^ 64) :
    ((s.step C (.write [])).step C .read).results =
      s.results ++ [.error (.replay 0 18446744073709551615)] := by
  subst hn
  obtain ⟨fs, tail, hunread, hcar, hm⟩ := h.carries
  cases hcar with
  | nil =>
    have hsend : s.sender.sendSeq = 0 := hm.sendSeq.trans (by decide)
    have hrecv : s.receiver.recvSeq = 18446744073709551615 := by
      have hnext := hm.recvSeq (by decide)
      rw [hsend] at hnext
      rw [← UInt64.add_sub_cancel s.receiver.recvSeq 1, hnext]
      decide
    obtain ⟨ct, tag, hct, -, hwrite⟩ := writeFrame_accepts C s.sender (p := []) (by decide)
    have hlen : ((UInt32.ofNat (ct.length + 16)).toNat) = 16 := by
      rw [hct]
      decide
    have hread : (readFrame C.aead.decrypt s.receiver).run
        (dataFrame (UInt32.ofNat (ct.length + 16)) (u64ToBe 0) (dataNonce 0 s.sender.epoch) ct
          tag) = some ((.error (.replay 0 s.receiver.recvSeq), s.receiver),
            (dataNonce 0 s.sender.epoch).toList ++ (ct ++ tag.toList)) := run_readDataFrame_replay
      ⟨hlen.ge, hlen.le.trans (Nat.le_add_left _ _)⟩ (hm.initialized.trans (by decide))
      (by rw [hrecv]; decide)
    simp only [Stream.step, hwrite, hunread, List.flatten_nil, List.nil_append, hsend, hread,
      hrecv]

/-- **`send_seq` runs over**: the frame after `2 ^ 64` others bears seq 0 again, and the receiver
takes it for a replay. -/
theorem wrapped_seq_refused :
    (∀ p, .write p ∈ StreamOp.emptyFrames (2 ^ 64) → p.length ≤ Sample.frameSize) ∧
    .error (.replay 0 18446744073709551615) ∈
      ((Stream.new Sample.key Sample.frameSize Sample.frameSize).run Sample.suite
        (StreamOp.emptyFrames (2 ^ 64))).results := by
  refine ⟨fun p hp => by rw [StreamOp.length_of_mem_emptyFrames hp]; exact Nat.zero_le _, ?_⟩
  -- as a variable, so that nothing unfolds the two long lists
  obtain ⟨n, hn⟩ : ∃ n, n = 2 ^ 64 := ⟨_, rfl⟩
  rw [← hn]
  have hsize : Sample.frameSize + 16 < 2 ^ 32 := by decide
  obtain ⟨done, pending, hc, hitems⟩ := Coupled.run Sample.suite hsize Sample.key Sample.frameSize
    (List.replicate n (.write []))
    (fun p hp => by
      rw [StreamOp.write.inj (List.eq_of_mem_replicate hp)]
      exact Nat.zero_le _)
    (fun pre hpre => by
      have hle := (StreamOp.sinceRotation_le_length pre).trans hpre.length_le
      rw [List.length_replicate] at hle
      omega)
  rw [StreamOp.sinceRotation_replicate_write] at hc
  have hpending : pending.length ≤ (List.replicate n StreamOp.read).count .read := by
    have := congrArg List.length hitems
    rw [StreamOp.items_replicate_write, List.length_append, List.length_replicate] at this
    rw [List.count_replicate_self]
    omega
  have hdrained := hc.drain (List.replicate n .read)
    (fun op hop => by rw [List.eq_of_mem_replicate hop]; rfl) hpending
  have hlast := hdrained.refused hn
  simp only [Stream.run] at hlast
  rw [Stream.run, StreamOp.emptyFrames, List.foldl_append, List.foldl_append, List.foldl_cons,
    List.foldl_cons, List.foldl_nil, hlast]
  exact List.mem_append_right _ (List.mem_singleton_self _)

end LatticeShield
