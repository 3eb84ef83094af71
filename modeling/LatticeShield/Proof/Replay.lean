import LatticeShield.Crypto.Sample
import LatticeShield.Lib.Lists
import LatticeShield.Proof.Network

/-!
# Replay and reordering

A receiver's memory is one seq, and `rotate_key` forgets it: after a rotation the first DATA frame
of *any* seq is welcome again. What stops an old frame then is the key, and what stops a
KEY_ROTATE frame is the key it leads away from. `Seen` is the invariant that says so: every
accepted frame was sealed under the key of the epoch it was accepted in, and within the current
epoch no accepted seq is above `recv_seq`. It holds in every run, whoever rotates and when.

With the HKDF never repeating a key, `no_replay` follows for a receiver that applies the rotations
it accepts. What the seq check does *not* ask is that seqs be consecutive, so a dropped frame goes
unnoticed: `accepted_sublist` is what remains of "in order and complete".
-/

set_option autoImplicit false

namespace LatticeShield

open Lib EncryptedChannel

/-! ## Accepted reads -/

inductive FrameKind where
  | data
  | keyRotate
deriving DecidableEq, Repr

def FrameResult.kind : FrameResult → FrameKind
  | .data _ => .data
  | .keyRotate _ => .keyRotate

/-- What the frame was accepted as, if it was. -/
def Read.kind (x : Read) : Option FrameKind :=
  match x.result with
  | .ok r => some r.kind
  | .error _ => none

def Read.payload (x : Read) : Bytes :=
  match x.result with
  | .ok r => r.payload
  | .error _ => []

/-- The frames `r` has accepted, in order. What was refused has moved no counter. -/
def Net.acceptedBy (st : Net) (r : Side) : List Read :=
  st.reads.filter fun x => x.side = r ∧ x.kind.isSome

theorem Net.acceptedBy_accept_self (st : Net) (r : Side) (ch' : EncryptedChannel) (c : Call)
    (res : FrameResult) :
    (st.accept r ch' c res).acceptedBy r =
      st.acceptedBy r ++ [⟨r, (st.past r).length, c.opened, .ok res⟩] := by
  simp [acceptedBy, accept, List.filter_append, Read.kind]

theorem Net.acceptedBy_accept_ne (st : Net) {r s : Side} (h : s ≠ r) (ch' : EncryptedChannel)
    (c : Call) (res : FrameResult) : (st.accept s ch' c res).acceptedBy r = st.acceptedBy r := by
  simp [acceptedBy, accept, List.filter_append, h]

/-! ## The invariant -/

/-- The keys `r` has used, the current one last. If they are all different, the key of a
ciphertext says in which epoch it was accepted. -/
def Net.keys (st : Net) (r : Side) : List Key := st.past r ++ [(st.ch r).keyBytes]

structure Seen (st : Net) (r : Side) : Prop where
  key : ∀ x ∈ st.acceptedBy r, (st.keys r)[x.epoch]? = some x.opened.key
  last : ∀ x ∈ st.acceptedBy r, x.kind = some .data → x.epoch = (st.past r).length →
    (st.ch r).recvInitialized = true ∧ x.opened.seq ≤ (st.ch r).recvSeq
  sorted : (st.acceptedBy r).Pairwise fun x y =>
    x.kind = some .data → y.kind = some .data → x.epoch = y.epoch → x.opened.seq < y.opened.seq
  sealed : ∀ x ∈ st.acceptedBy r, ∃ c ∈ st.calls, c.opened = x.opened ∧ c.what.payload = x.payload

/-- What `Seen` depends on. Most operations leave it alone, and then there is nothing to prove
about them. -/
structure SameReceiver (st st' : Net) (r : Side) : Prop where
  accepted : st'.acceptedBy r = st.acceptedBy r
  past : st'.past r = st.past r
  keyBytes : (st'.ch r).keyBytes = (st.ch r).keyBytes
  recvInitialized : (st'.ch r).recvInitialized = (st.ch r).recvInitialized
  recvSeq : (st'.ch r).recvSeq = (st.ch r).recvSeq
  calls : ∀ c ∈ st.calls, c ∈ st'.calls

theorem SameReceiver.refl (st : Net) (r : Side) : SameReceiver st st r :=
  ⟨rfl, rfl, rfl, rfl, rfl, fun _ hc => hc⟩

theorem SameReceiver.trans {st st' st'' : Net} {r : Side} (h : SameReceiver st st' r)
    (h' : SameReceiver st' st'' r) : SameReceiver st st'' r where
  accepted := h'.accepted.trans h.accepted
  past := h'.past.trans h.past
  keyBytes := h'.keyBytes.trans h.keyBytes
  recvInitialized := h'.recvInitialized.trans h.recvInitialized
  recvSeq := h'.recvSeq.trans h.recvSeq
  calls := fun c hc => h'.calls c (h.calls c hc)

theorem Seen.of_same {st st' : Net} {r : Side} (h : Seen st r) (hs : SameReceiver st st' r) :
    Seen st' r where
  key := by
    rw [hs.accepted, Net.keys, hs.past, hs.keyBytes]
    exact h.key
  last := by
    rw [hs.accepted, hs.past, hs.recvInitialized, hs.recvSeq]
    exact h.last
  sorted := by
    rw [hs.accepted]
    exact h.sorted
  sealed := by
    rw [hs.accepted]
    intro x hx
    obtain ⟨c, hc, hsame⟩ := h.sealed x hx
    exact ⟨c, hs.calls c hc, hsame⟩

theorem Seen.epoch_le {st : Net} {r : Side} (h : Seen st r) {x : Read} (hx : x ∈ st.acceptedBy r) :
    x.epoch ≤ (st.past r).length := by
  have hlt := (List.getElem?_eq_some_iff.mp (h.key x hx)).1
  simp only [Net.keys, List.length_append, List.length_singleton] at hlt
  omega

/-! ## Steps that are not the receiver's -/

/-- An encryption moves a sending counter at most. -/
theorem sameReceiver_send (st : Net) (r s : Side) {ch' : EncryptedChannel} (calls : List Call)
    (hkey : ch'.keyBytes = (st.ch s).keyBytes)
    (hinit : ch'.recvInitialized = (st.ch s).recvInitialized)
    (hseq : ch'.recvSeq = (st.ch s).recvSeq) :
    SameReceiver st
      { st with ch := Function.update st.ch s ch', calls := st.calls ++ calls } r := by
  have hmem : ∀ c ∈ st.calls, c ∈ st.calls ++ calls := fun c hc => List.mem_append_left _ hc
  by_cases hs : r = s
  · subst hs
    refine ⟨rfl, rfl, ?_, ?_, ?_, hmem⟩ <;> simpa
  · refine ⟨rfl, rfl, ?_, ?_, ?_, hmem⟩ <;> simp [hs]

theorem sameReceiver_write (C : CipherSuite) (st : Net) (r s : Side) (w : Writer) (data : Bytes) :
    SameReceiver st (st.step C (.write s w data)) r := by
  refine sameReceiver_send st r s _ ?_ ?_ ?_ <;> rw [writeFrame_channel] <;> split <;> rfl

theorem sameReceiver_sendKeyRotate (C : CipherSuite) (st : Net) (r s : Side) (w : Writer)
    (gcmNonce : Nonce) (nonce : RotationNonce) :
    SameReceiver st (st.step C (.sendKeyRotate s w gcmNonce nonce)) r := by
  refine sameReceiver_send st r s _ ?_ ?_ ?_ <;> rw [sendKeyRotate_channel] <;> split <;> rfl

theorem sameReceiver_rotate_ne (C : CipherSuite) (st : Net) {r s : Side} (h : s ≠ r)
    (nonce : RotationNonce) : SameReceiver st (st.rotate C s nonce) r := by
  refine ⟨rfl, ?_, ?_, ?_, ?_, fun c hc => hc⟩ <;> simp [Net.rotate, h.symm]

theorem sameReceiver_accept_ne (st : Net) {r s : Side} (h : s ≠ r) (ch' : EncryptedChannel)
    (c : Call) (res : FrameResult) : SameReceiver st (st.accept s ch' c res) r := by
  refine ⟨Net.acceptedBy_accept_ne st h ch' c res, rfl, ?_, ?_, ?_, fun c hc => hc⟩ <;>
    simp [Net.accept, h.symm]

theorem sameReceiver_error (st : Net) (r s : Side) (opened : Opened) (e : FrameError) :
    SameReceiver st
      { st with reads := st.reads ++ [⟨s, (st.past s).length, opened, .error e⟩] } r := by
  refine ⟨?_, rfl, rfl, rfl, rfl, fun c hc => hc⟩
  simp [Net.acceptedBy, List.filter_append, Read.kind]

/-! ## Steps of the receiver -/

/-- A rotation starts an epoch in which nothing has been accepted. The counter restarts with it,
so this is needed for the order within an epoch. -/
theorem Seen.rotate {st : Net} {r : Side} (h : Seen st r) (C : CipherSuite)
    (nonce : RotationNonce) : Seen (st.rotate C r nonce) r where
  key x hx := by
    have hold := h.key x hx
    have hkeys : (st.rotate C r nonce).keys r =
        st.keys r ++ [(rotateKey C (st.ch r) nonce).keyBytes] := by
      simp [Net.keys, Net.rotate]
    rw [hkeys, List.getElem?_append_left (List.getElem?_eq_some_iff.mp hold).1]
    exact hold
  last x hx _ hepoch := by
    have hle := h.epoch_le (show x ∈ st.acceptedBy r from hx)
    simp [Net.rotate] at hepoch
    omega
  sorted := h.sorted
  sealed := h.sealed

/-- An accepted frame is on record, under the current key. -/
theorem Seen.accept_key {st : Net} {r : Side} (h : Seen st r) {ch' : EncryptedChannel} {c : Call}
    {res : FrameResult} (hkey : c.sealed.key = (st.ch r).keyBytes)
    (hch' : ch'.keyBytes = (st.ch r).keyBytes) :
    ∀ x ∈ (st.accept r ch' c res).acceptedBy r,
      ((st.accept r ch' c res).keys r)[x.epoch]? = some x.opened.key := by
  have hkeys : (st.accept r ch' c res).keys r = st.keys r := by
    simp [Net.keys, Net.accept, hch']
  intro x hx
  rw [Net.acceptedBy_accept_self, List.mem_append, List.mem_singleton] at hx
  rw [hkeys]
  rcases hx with hx | rfl
  · exact h.key x hx
  · simp [Net.keys, Call.opened, hkey]

theorem Seen.accept_sealed {st : Net} {r : Side} (h : Seen st r) {ch' : EncryptedChannel}
    {c : Call} {res : FrameResult} (hc : c ∈ st.calls) (hpay : c.what.payload = res.payload) :
    ∀ x ∈ (st.accept r ch' c res).acceptedBy r,
      ∃ c' ∈ st.calls, c'.opened = x.opened ∧ c'.what.payload = x.payload := by
  intro x hx
  rw [Net.acceptedBy_accept_self, List.mem_append, List.mem_singleton] at hx
  rcases hx with hx | rfl
  · exact h.sealed x hx
  · exact ⟨c, hc, rfl, hpay⟩

theorem Seen.acceptData {st : Net} {r : Side} (h : Seen st r) {ch' : EncryptedChannel} {c : Call}
    {p : Bytes} (hc : c ∈ st.calls) (hpay : c.what.payload = p)
    (hacc : Accepts (st.ch r) ch' c (.data p)) (hkey : c.sealed.key = (st.ch r).keyBytes) :
    Seen (st.accept r ch' c (.data p)) r := by
  cases hacc with | data _ hfresh hle hlt hafter
  subst hafter
  -- every DATA seq of this epoch is below the new one
  have hbelow : ∀ x ∈ st.acceptedBy r, x.kind = some .data → x.epoch = (st.past r).length →
      x.opened.seq < c.seq := by
    intro x hx hd he
    obtain ⟨hinit, hseq⟩ := h.last x hx hd he
    exact UInt64.lt_of_le_of_lt hseq (hfresh hinit)
  refine ⟨h.accept_key hkey rfl, ?_, ?_, h.accept_sealed hc hpay⟩
  · intro x hx hd he
    rw [Net.acceptedBy_accept_self, List.mem_append, List.mem_singleton] at hx
    have hch : (st.accept r ((st.ch r).acceptData c.seq) c (.data p)).ch r =
        (st.ch r).acceptData c.seq := by simp [Net.accept]
    rw [hch]
    refine ⟨rfl, ?_⟩
    rcases hx with hx | rfl
    · exact UInt64.le_of_lt (hbelow x hx hd he)
    · exact UInt64.le_refl _
  · rw [Net.acceptedBy_accept_self, pairwise_snoc]
    exact ⟨h.sorted, fun x hx hd _ he => hbelow x hx hd he⟩

theorem Seen.acceptKeyRotate {st : Net} {r : Side} (h : Seen st r) {ch' : EncryptedChannel}
    {c : Call} {n : RotationNonce} (hc : c ∈ st.calls) (hpay : c.what.payload = n.toList)
    (hacc : Accepts (st.ch r) ch' c (.keyRotate n)) (hkey : c.sealed.key = (st.ch r).keyBytes) :
    Seen (st.accept r ch' c (.keyRotate n)) r := by
  cases hacc with | keyRotate _ hexp hafter
  subst hafter
  refine ⟨h.accept_key hkey rfl, ?_, ?_, h.accept_sealed hc hpay⟩
  · intro x hx hd he
    rw [Net.acceptedBy_accept_self, List.mem_append, List.mem_singleton] at hx
    have hch : (st.accept r (st.ch r).acceptKeyRotate c (.keyRotate n)).ch r =
        (st.ch r).acceptKeyRotate := by simp [Net.accept]
    rw [hch]
    rcases hx with hx | rfl
    · exact h.last x hx hd he
    · exact absurd hd (by simp [Read.kind, FrameResult.kind])
  · rw [Net.acceptedBy_accept_self, pairwise_snoc]
    refine ⟨h.sorted, fun x hx _ hd => absurd hd ?_⟩
    simp [Read.kind, FrameResult.kind]

/-! ## What a step is to the receiver -/

/-- If this is a read of `r`, then `rotate_key(n)` follows its `Ok(KeyRotate(n))`. Both programs
do so: the frame is the announcement, and the caller's rotation what it announces. -/
def NetOp.Applies (r : Side) : NetOp → Prop
  | .read s _ rotates => s = r → rotates = true
  | _ => True

/-- Either the receiver is not concerned, or it rotates, or it accepts a frame of the record.
Which it is depends on the adversary; that there is no fourth case is the work of the ideal
cipher. -/
inductive ReceiverStep (C : CipherSuite) (st : Net) (r : Side) (op : NetOp) : Net → Prop where
  | same {st' : Net} (hs : SameReceiver st st' r) : ReceiverStep C st r op st'
  | rotate (nonce : RotationNonce) : ReceiverStep C st r op (st.rotate C r nonce)
  | data {c : Call} {ch' : EncryptedChannel} {p : Bytes} (hc : c ∈ st.calls)
      (hpay : c.what.payload = p) (hacc : Accepts (st.ch r) ch' c (.data p))
      (hkey : c.sealed.key = (st.ch r).keyBytes) :
      ReceiverStep C st r op (st.accept r ch' c (.data p))
  | keyRotate {c : Call} {ch' : EncryptedChannel} {n : RotationNonce} (hc : c ∈ st.calls)
      (hpay : c.what.payload = n.toList) (hacc : Accepts (st.ch r) ch' c (.keyRotate n))
      (hkey : c.sealed.key = (st.ch r).keyBytes) :
      ReceiverStep C st r op ((st.accept r ch' c (.keyRotate n)).rotate C r n)
  | unapplied {c : Call} {ch' : EncryptedChannel} {n : RotationNonce} (hc : c ∈ st.calls)
      (hpay : c.what.payload = n.toList) (hacc : Accepts (st.ch r) ch' c (.keyRotate n))
      (hkey : c.sealed.key = (st.ch r).keyBytes) (hop : ¬ op.Applies r) :
      ReceiverStep C st r op (st.accept r ch' c (.keyRotate n))

theorem receiverStep {st : Net} {C : CipherSuite} (hcalls : ∀ c ∈ st.calls, CallOk C c)
    (r : Side) (op : NetOp) : ReceiverStep C st r op (st.step C op) := by
  cases op with
  | write s w data => exact .same (sameReceiver_write C st r s w data)
  | sendKeyRotate s w gcmNonce nonce =>
    exact .same (sameReceiver_sendKeyRotate C st r s w gcmNonce nonce)
  | rotate s nonce =>
    by_cases hs : s = r
    · subst hs; exact .rotate nonce
    · exact .same (sameReceiver_rotate_ne C st hs nonce)
  | read s bytes rotates =>
    rw [Net.step]
    rcases Net.read_cases hcalls s bytes rotates with
      heq | ⟨opened, e, heq⟩ | ⟨c, hc, ch', p, hpay, hacc, hkey, heq⟩ |
      ⟨c, hc, ch', n, hpay, hacc, hkey, heq⟩
    · rw [heq]; exact .same (.refl st r)
    · rw [heq]; exact .same (sameReceiver_error st r s opened e)
    · rw [heq]
      by_cases hs : s = r
      · subst hs; exact .data hc hpay hacc hkey
      · exact .same (sameReceiver_accept_ne st hs ch' c _)
    · rw [heq]
      by_cases hs : s = r
      · subst hs
        split
        · exact .keyRotate hc hpay hacc hkey
        · rename_i hrot
          exact .unapplied hc hpay hacc hkey fun hop => hrot (hop rfl)
      · have hsame := sameReceiver_accept_ne st hs ch' c (.keyRotate n)
        split
        · exact .same (hsame.trans (sameReceiver_rotate_ne C _ hs n))
        · exact .same hsame

theorem Seen.step {st : Net} {r : Side} (h : Seen st r) {C : CipherSuite}
    (hcalls : ∀ c ∈ st.calls, CallOk C c) (op : NetOp) : Seen (st.step C op) r := by
  have hstep := receiverStep hcalls r op
  generalize st.step C op = st' at hstep ⊢
  cases hstep with
  | same hs => exact h.of_same hs
  | rotate nonce => exact h.rotate C nonce
  | data hc hpay hacc hkey => exact h.acceptData hc hpay hacc hkey
  | keyRotate hc hpay hacc hkey => exact (h.acceptKeyRotate hc hpay hacc hkey).rotate C _
  | unapplied hc hpay hacc hkey => exact h.acceptKeyRotate hc hpay hacc hkey

theorem seen_session (C : CipherSuite) (key : Key) (size : Side → Nat) (ops : List NetOp)
    (r : Side) : Seen (Net.session C key size ops) r := by
  induction ops using List.reverseRecOn with
  | nil =>
    constructor <;> simp [Net.session, Net.run, Net.start, Net.acceptedBy]
  | append_singleton ops op ih =>
    rw [Net.session_snoc]
    exact ih.step (callOk_run C key size ops) op

/-! ## A receiver that applies what it accepts -/

/-- Every accepted KEY_ROTATE was the last thing accepted in its epoch: the rotation comes with
it, and resets what has been seen. -/
structure Left (st : Net) (r : Side) : Prop where
  left : ∀ x ∈ st.acceptedBy r, x.kind = some .keyRotate → x.epoch < (st.past r).length
  after : (st.acceptedBy r).Pairwise fun x y => x.kind = some .keyRotate → x.epoch < y.epoch

theorem Left.of_same {st st' : Net} {r : Side} (h : Left st r) (hs : SameReceiver st st' r) :
    Left st' r := by
  refine ⟨?_, ?_⟩
  · rw [hs.accepted, hs.past]; exact h.left
  · rw [hs.accepted]; exact h.after

theorem Left.after_accept {st : Net} {r : Side} (h : Left st r) (ch' : EncryptedChannel)
    (c : Call) (res : FrameResult) :
    ((st.accept r ch' c res).acceptedBy r).Pairwise fun x y =>
      x.kind = some .keyRotate → x.epoch < y.epoch := by
  rw [Net.acceptedBy_accept_self, pairwise_snoc]
  exact ⟨h.after, h.left⟩

theorem Left.step {st : Net} {r : Side} (h : Left st r) (hseen : Seen st r) {C : CipherSuite}
    (hcalls : ∀ c ∈ st.calls, CallOk C c) {op : NetOp} (hop : op.Applies r) :
    Left (st.step C op) r := by
  have hstep := receiverStep hcalls r op
  generalize st.step C op = st' at hstep ⊢
  cases hstep with
  | same hs => exact h.of_same hs
  | rotate nonce =>
    refine ⟨?_, h.after⟩
    intro x hx hk
    have := h.left x hx hk
    simp [Net.rotate]
    omega
  | @data c ch' p hc hpay hacc hkey =>
    refine ⟨?_, h.after_accept ch' c _⟩
    intro x hx hk
    rw [Net.acceptedBy_accept_self, List.mem_append, List.mem_singleton] at hx
    rcases hx with hx | rfl
    · exact h.left x hx hk
    · exact absurd hk (by simp [Read.kind, FrameResult.kind])
  | @keyRotate c ch' n hc hpay hacc hkey =>
    -- the rotation that follows closes the epoch of the new frame
    refine ⟨?_, h.after_accept ch' c _⟩
    intro x hx _
    have hle := (hseen.acceptKeyRotate hc hpay hacc hkey).epoch_le hx
    have hpast : (st.accept r ch' c (.keyRotate n)).past r = st.past r := rfl
    rw [hpast] at hle
    simp [Net.rotate, hpast]
    omega
  | unapplied hc hpay hacc hkey hnot => exact absurd hop hnot

theorem left_session (C : CipherSuite) (key : Key) (size : Side → Nat) {r : Side}
    {ops : List NetOp} (hops : ∀ op ∈ ops, op.Applies r) : Left (Net.session C key size ops) r := by
  induction ops using List.reverseRecOn with
  | nil =>
    constructor <;> simp [Net.session, Net.run, Net.start, Net.acceptedBy]
  | append_singleton ops op ih =>
    rw [Net.session_snoc]
    have ih := ih fun op' h => hops op' (List.mem_append_left _ h)
    exact ih.step (seen_session C key size ops r) (callOk_run C key size ops) (hops op (by simp))

/-- Two accepted frames under one key are of one epoch. It takes that the reader never has the
same key twice. -/
theorem Seen.epoch_eq {st : Net} {r : Side} (h : Seen st r) (hfresh : (st.keys r).Nodup)
    {x y : Read} (hx : x ∈ st.acceptedBy r) (hy : y ∈ st.acceptedBy r)
    (hkey : x.opened.key = y.opened.key) : x.epoch = y.epoch := by
  have hxk := h.key x hx
  have hyk := h.key y hy
  rw [← hkey, ← hxk] at hyk
  exact (List.getElem?_inj (List.getElem?_eq_some_iff.mp hxk).1 hfresh).mp hyk.symm

/-- The key of an accepted frame is none of those left behind before its epoch. So a frame of an
earlier epoch does not open. -/
theorem Seen.key_not_earlier {st : Net} {r : Side} (h : Seen st r) (hfresh : (st.keys r).Nodup)
    {x : Read} (hx : x ∈ st.acceptedBy r) : x.opened.key ∉ (st.keys r).take x.epoch := by
  intro hmem
  have hxk := h.key x hx
  obtain ⟨i, hi, hget⟩ := List.mem_take_iff_getElem.mp hmem
  have hik : (st.keys r)[i]? = some x.opened.key := List.getElem?_eq_some_iff.mpr ⟨by omega, hget⟩
  have hlen := (List.getElem?_eq_some_iff.mp hxk).1
  have : x.epoch = i := (List.getElem?_inj hlen hfresh).mp (hxk.trans hik.symm)
  omega

theorem Net.isSome_kind_of_mem {st : Net} {r : Side} {x : Read} (h : x ∈ st.acceptedBy r) :
    x.kind = some .data ∨ x.kind = some .keyRotate := by
  have hk : x.kind.isSome := by
    have := (List.mem_filter.mp h).2
    simp only [decide_eq_true_eq] at this
    exact this.2
  obtain ⟨k, hk⟩ := Option.isSome_iff_exists.mp hk
  cases k
  · exact Or.inl hk
  · exact Or.inr hk

/-- **Nothing is accepted twice, and nothing from an earlier key is accepted again.** Within an
epoch the seqs of accepted DATA frames increase, no ciphertext is accepted twice as the same kind,
and every accepted frame was sealed under a key that the receiver has not left behind. The
adversary may deliver anything in any order. -/
theorem no_replay (C : CipherSuite) (key : Key) (size : Side → Nat) (ops : List NetOp) (r : Side)
    (happlies : ∀ op ∈ ops, op.Applies r)
    (hfresh : ((Net.session C key size ops).keys r).Nodup) :
    ((Net.session C key size ops).acceptedBy r).Pairwise (fun x y =>
      x.kind = some .data → y.kind = some .data → x.epoch = y.epoch →
        x.opened.seq < y.opened.seq) ∧
    ((Net.session C key size ops).acceptedBy r).Pairwise (fun x y =>
      x.kind = y.kind → x.opened ≠ y.opened) ∧
    ∀ x ∈ (Net.session C key size ops).acceptedBy r,
      ∃ c ∈ (Net.session C key size ops).calls, c.opened = x.opened ∧
        c.sealed.key ∉ ((Net.session C key size ops).keys r).take x.epoch := by
  have hseen := seen_session C key size ops r
  have hleft := left_session C key size happlies
  refine ⟨hseen.sorted, ?_, ?_⟩
  · apply (hseen.sorted.and hleft.after).imp_of_mem
    intro x y hx hy hxy hkind hopened
    have hepoch := hseen.epoch_eq hfresh hx hy (congrArg Opened.key hopened)
    rcases Net.isSome_kind_of_mem hx with hk | hk
    · have hlt := hxy.1 hk (hkind ▸ hk) hepoch
      rw [hopened] at hlt
      exact absurd hlt (UInt64.lt_irrefl _)
    · have hlt := hxy.2 hk
      omega
  · intro x hx
    obtain ⟨c, hc, hopened, -⟩ := hseen.sealed x hx
    refine ⟨c, hc, hopened, ?_⟩
    rw [show c.sealed.key = x.opened.key from congrArg Opened.key hopened]
    exact hseen.key_not_earlier hfresh hx

/-- The bridge writes, rotates, and the adversary plays everything it saw twice. -/
def Sample.replayOps : List NetOp :=
  let w := writeFrame Sample.suite Sample.channel .accepts [1, 2, 3]
  let k := sendKeyRotate Sample.suite w.channel .accepts (Sample.gcm 9) (Sample.rot 5)
  [.write .bridge .accepts [1, 2, 3], .sendKeyRotate .bridge .accepts (Sample.gcm 9) (Sample.rot 5),
    .rotate .bridge (Sample.rot 5), .read .client w.bytes true, .read .client w.bytes true,
    .read .client k.bytes true, .read .client k.bytes true, .read .client w.bytes true]

theorem no_replay_played_twice :
    ((Net.session Sample.suite Sample.key (fun _ => Sample.frameSize)
      Sample.replayOps).acceptedBy .client).map Read.kind = [some .data, some .keyRotate] ∧
    ((Net.session Sample.suite Sample.key (fun _ => Sample.frameSize)
      Sample.replayOps).acceptedBy .client).Pairwise fun x y =>
        x.kind = y.kind → x.opened ≠ y.opened := by
  refine ⟨by decide +kernel, (no_replay Sample.suite Sample.key (fun _ => Sample.frameSize)
    Sample.replayOps .client ?_ (by decide +kernel)).2.1⟩
  simp [Sample.replayOps, NetOp.Applies]

/-! ## Gaps -/

/-- One endpoint writes, the other reads, and neither rotates. Within one epoch the seqs of a
sender are its only order. -/
def NetOp.OneWay (sender : Side) : NetOp → Prop
  | .write s _ _ => s = sender
  | .read s _ rotates => s = sender.peer ∧ rotates = false
  | _ => False

/-- The plaintexts passed to `write_frame`, in order. -/
def written (ops : List NetOp) : List Bytes :=
  ops.filterMap fun
    | .write _ _ data => some data
    | _ => none

/-- What `read_frame` returned as `Ok(Data(_))`. -/
def Read.data? (x : Read) : Option Bytes :=
  match x.result with
  | .ok (.data p) => some p
  | _ => none

/-- The `Ok(Data(_))` answers before the first error. A caller that ends the session at an error
has had these. -/
def dataBeforeError (reads : List Read) : List Bytes :=
  (reads.takeWhile fun x => x.kind.isSome).filterMap Read.data?

/-- The epoch has just begun: the sender's counter and the receiver's memory are reset, and
nothing has been sealed under the receiver's key. -/
structure FreshEpoch (st : Net) (sender : Side) : Prop where
  sendSeq : (st.ch sender).sendSeq = 0
  recvInitialized : (st.ch sender.peer).recvInitialized = false
  unused : ∀ c ∈ st.calls, c.sealed.key ≠ (st.ch sender.peer).keyBytes

/-- What the one-way part of a run has added: `calls` and `reads`, after those of `st₀`. The key
is fixed in this part, so the seqs decide. -/
structure OneWayRun (st₀ st : Net) (sender : Side) (calls : List Call) (reads : List Read) :
    Prop where
  calls_eq : st.calls = st₀.calls ++ calls
  reads_eq : st.reads = st₀.reads ++ reads
  past_eq : st.past sender.peer = st₀.past sender.peer
  key_eq : (st.ch sender.peer).keyBytes = (st₀.ch sender.peer).keyBytes
  reader : ∀ x ∈ reads, x.side = sender.peer ∧ x.epoch = (st₀.past sender.peer).length
  counted : calls.length < 2 ^ 64 → (st.ch sender).sendSeq.toNat ≤ calls.length ∧
    ∀ c ∈ calls, c.seq.toNat ≤ (st.ch sender).sendSeq.toNat
  ordered : calls.length ≤ 2 ^ 64 → calls.Pairwise fun c d => c.seq.toNat ≤ d.seq.toNat

theorem Side.peer_ne (s : Side) : s.peer ≠ s := by cases s <;> decide

/-- A write moves the sender's counter by one at most, and not back unless it wraps. A write that
fails leaves it where it is. -/
theorem sendSeq_write (C : CipherSuite) (st : Net) (sender : Side) (w : Writer) (data : Bytes)
    (h : (st.ch sender).sendSeq.toNat + 1 < 2 ^ 64) :
    (st.ch sender).sendSeq.toNat ≤
        ((st.step C (.write sender w data)).ch sender).sendSeq.toNat ∧
      ((st.step C (.write sender w data)).ch sender).sendSeq.toNat ≤
        (st.ch sender).sendSeq.toNat + 1 := by
  have hsend : (st.step C (.write sender w data)).ch sender =
      if data.length ≤ gcmPMax ∧ w = .accepts then
        { st.ch sender with sendSeq := (st.ch sender).sendSeq + 1 } else st.ch sender := by
    simp [Net.step, writeFrame_channel]
  have hnext : ((st.ch sender).sendSeq + 1).toNat = (st.ch sender).sendSeq.toNat + 1 := by
    rw [UInt64.toNat_add, UInt64.toNat_one]
    exact Nat.mod_eq_of_lt h
  rw [hsend]
  split
  · exact ⟨by dsimp only; omega, by dsimp only; omega⟩
  · exact ⟨Nat.le_refl _, Nat.le_succ _⟩

/-- A write adds its call at the end, with a counter no earlier one exceeds. -/
theorem OneWayRun.write {st₀ st : Net} {sender : Side} {calls : List Call} {reads : List Read}
    (h : OneWayRun st₀ st sender calls reads) (C : CipherSuite) (w : Writer) (data : Bytes) :
    ∃ new, OneWayRun st₀ (st.step C (.write sender w data)) sender (calls ++ new) reads ∧
      (new.map fun c => c.what.payload).Sublist [data] := by
  have hpeer := sender.peer_ne
  have hch : (st.step C (.write sender w data)).ch sender.peer = st.ch sender.peer := by
    simp [Net.step, hpeer]
  cases hseal : sealData C (st.ch sender) data with
  | none =>
    -- refused by GCM before anything happened
    have hlen : ¬ data.length ≤ gcmPMax := by
      intro hle
      obtain ⟨c, t, hct⟩ := C.aead.exists_encrypt (st.ch sender).keyBytes
        (dataNonce (st.ch sender).sendSeq (st.ch sender).epoch)
        (u64ToBe (st.ch sender).sendSeq).toList (by rw [C.pMax]; exact hle)
      simp [sealData, hct] at hseal
    have hst : st.step C (.write sender w data) = st := by
      simp [Net.step, hseal, writeFrame_channel, hlen]
    exact ⟨[], by rw [hst, List.append_nil]; exact h, List.nil_sublist _⟩
  | some e =>
    refine ⟨[⟨sender, .data data, (st.ch sender).sendSeq, e⟩], ⟨?_, h.reads_eq, h.past_eq, ?_,
      h.reader, ?_, ?_⟩, List.Sublist.refl _⟩
    · simp [Net.step, hseal, h.calls_eq]
    · rw [hch]; exact h.key_eq
    · intro hlt
      rw [List.length_append, List.length_singleton] at hlt ⊢
      obtain ⟨hle, hall⟩ := h.counted (by omega)
      obtain ⟨hge, hsucc⟩ := sendSeq_write C st sender w data (by omega)
      refine ⟨by omega, ?_⟩
      refine forall_mem_snoc.mpr ⟨?_, hge⟩
      intro c hc
      exact (hall c hc).trans hge
    · intro hle
      rw [List.length_append, List.length_singleton] at hle
      rw [pairwise_snoc]
      exact ⟨h.ordered (by omega), (h.counted (by omega)).2⟩

/-- A read adds at most its own record. -/
theorem OneWayRun.read {st₀ st : Net} {sender : Side} {calls : List Call} {reads : List Read}
    (h : OneWayRun st₀ st sender calls reads) {C : CipherSuite}
    (hcalls : ∀ c ∈ st.calls, CallOk C c) (bytes : Bytes) :
    ∃ reads', OneWayRun st₀ (st.read C sender.peer bytes false) sender calls reads' := by
  have hpeer := sender.peer_ne
  have hreader : ∀ opened result, ∀ x ∈ reads ++
      [(⟨sender.peer, (st.past sender.peer).length, opened, result⟩ : Read)],
      x.side = sender.peer ∧ x.epoch = (st₀.past sender.peer).length := by
    intro opened result
    exact forall_mem_snoc.mpr ⟨h.reader, rfl, by rw [h.past_eq]⟩
  have haccept : ∀ ch' c res, ch'.keyBytes = (st.ch sender.peer).keyBytes →
      ∃ reads', OneWayRun st₀ (st.accept sender.peer ch' c res) sender calls reads' := by
    intro ch' c res hkey
    refine ⟨_, h.calls_eq, ?_, h.past_eq, ?_, hreader c.opened (.ok res), ?_, h.ordered⟩
    · simp [Net.accept, h.reads_eq]
    · simp [Net.accept, hkey, h.key_eq]
    · simpa [Net.accept, hpeer.symm] using h.counted
  rcases Net.read_cases hcalls sender.peer bytes false with
    heq | ⟨opened, e, heq⟩ | ⟨c, -, ch', p, -, hacc, -, heq⟩ | ⟨c, -, ch', n, -, hacc, -, heq⟩
  · rw [heq]; exact ⟨reads, h⟩
  · rw [heq]
    refine ⟨_, h.calls_eq, ?_, h.past_eq, h.key_eq, hreader opened (.error e), h.counted, h.ordered⟩
    rw [h.reads_eq, List.append_assoc]
  · rw [heq]
    cases hacc with | data _ _ _ _ hafter
    exact haccept ch' c _ (by rw [hafter]; rfl)
  · rw [heq, if_neg (by simp)]
    cases hacc with | keyRotate _ _ hafter
    exact haccept ch' c _ (by rw [hafter]; rfl)

theorem oneWay_session (C : CipherSuite) (key : Key) (size : Side → Nat) (ops₀ : List NetOp)
    {sender : Side} (hfresh : FreshEpoch (Net.session C key size ops₀) sender) {ops : List NetOp}
    (hops : ∀ op ∈ ops, op.OneWay sender) :
    ∃ calls reads, OneWayRun (Net.session C key size ops₀) (Net.session C key size (ops₀ ++ ops))
        sender calls reads ∧
      (calls.map fun c => c.what.payload).Sublist (written ops) := by
  induction ops using List.reverseRecOn with
  | nil =>
    refine ⟨[], [], ⟨?_, ?_, ?_, ?_, ?_, ?_, ?_⟩, List.Sublist.refl _⟩ <;> simp [hfresh.sendSeq]
  | append_singleton ops op ih =>
    obtain ⟨calls, reads, hrun, hsub⟩ := ih fun op' h => hops op' (List.mem_append_left _ h)
    have hop : op.OneWay sender := hops op (by simp)
    rw [← List.append_assoc, Net.session_snoc]
    cases op with
    | write s w data =>
      obtain rfl : s = sender := hop
      obtain ⟨new, hrun', hnew⟩ := hrun.write C w data
      refine ⟨_, _, hrun', ?_⟩
      rw [List.map_append, written, List.filterMap_append]
      exact hsub.append hnew
    | read s bytes rotates =>
      obtain ⟨rfl, rfl⟩ := hop
      obtain ⟨reads', hrun'⟩ := hrun.read (callOk_run C key size (ops₀ ++ ops)) bytes
      refine ⟨_, _, hrun', ?_⟩
      simpa [written] using hsub
    | rotate s nonce => exact absurd hop (by simp [NetOp.OneWay])
    | sendKeyRotate s w gcmNonce nonce => exact absurd hop (by simp [NetOp.OneWay])

theorem Read.data?_eq (x : Read) :
    x.data? = if x.kind = some .data then some x.payload else none := by
  obtain ⟨side, epoch, opened, result⟩ := x
  rcases result with e | p | n <;> rfl

theorem filterMap_data? (reads : List Read) :
    reads.filterMap Read.data? = (reads.filter fun x => x.kind = some .data).map Read.payload := by
  induction reads with
  | nil => rfl
  | cons x reads ih =>
    rw [List.filterMap_cons, Read.data?_eq]
    by_cases hk : x.kind = some .data <;> simp [hk, ih]

/-- The DATA frames accepted in the one-way part: increasing seqs, each with the seq and the
payload of a write of that part. As the writes have increasing seqs too, the accepted ones are
some of them in the same order. -/
theorem OneWayRun.accepted {st₀ st : Net} {sender : Side} {calls : List Call} {reads : List Read}
    (h : OneWayRun st₀ st sender calls reads) (hfresh : FreshEpoch st₀ sender)
    (hseen : Seen st sender.peer) :
    (reads.filter fun x => x.kind = some .data).Pairwise (fun x y =>
      x.opened.seq.toNat < y.opened.seq.toNat) ∧
    ∀ x ∈ reads.filter (fun x => x.kind = some .data), ∃ c ∈ calls,
      c.seq.toNat = x.opened.seq.toNat ∧ c.what.payload = x.payload := by
  have hacc : st.acceptedBy sender.peer = st₀.acceptedBy sender.peer ++
      reads.filter fun x => x.side = sender.peer ∧ x.kind.isSome := by
    rw [Net.acceptedBy, h.reads_eq, List.filter_append]
    rfl
  -- all reads of this part are in one epoch, so the order within an epoch is their order
  refine ⟨?_, ?_⟩
  · have hsorted := hseen.sorted
    rw [hacc, List.pairwise_append, List.pairwise_filter] at hsorted
    rw [List.pairwise_filter]
    apply hsorted.2.1.imp_of_mem
    intro x y hx hy hxy hdx hdy
    simp only [decide_eq_true_eq] at hxy hdx hdy
    refine UInt64.lt_iff_toNat_lt.mp (hxy ⟨(h.reader x hx).1, by simp [hdx]⟩
      ⟨(h.reader y hy).1, by simp [hdy]⟩ hdx hdy ?_)
    rw [(h.reader x hx).2, (h.reader y hy).2]
  · intro x hx
    obtain ⟨hx, hd⟩ := List.mem_filter.mp hx
    simp only [decide_eq_true_eq] at hd
    obtain ⟨hside, hepoch⟩ := h.reader x hx
    have hmem : x ∈ st.acceptedBy sender.peer := by
      rw [hacc]
      exact List.mem_append_right _ (List.mem_filter.mpr ⟨hx, by simp [hside, hd]⟩)
    obtain ⟨c, hc, hopened, hpay⟩ := hseen.sealed x hmem
    refine ⟨c, ?_, ?_, hpay⟩
    · -- it was opened under the receiver's key, so it was sealed in this part
      rw [h.calls_eq] at hc
      refine (List.mem_append.mp hc).resolve_left fun hold => hfresh.unused c hold ?_
      have hkey := hseen.key x hmem
      rw [hepoch, ← h.past_eq, Net.keys, List.getElem?_concat_length, Option.some.injEq,
        h.key_eq] at hkey
      rw [hkey, ← hopened]
      rfl
    · rw [← hopened]
      rfl

/-- **What a receiver accepts before its first error was all written, and in the order it was
written**; frames may be missing. -/
theorem accepted_sublist (C : CipherSuite) (key : Key) (size : Side → Nat) (ops₀ : List NetOp)
    (sender : Side) (hfresh : FreshEpoch (Net.session C key size ops₀) sender) (ops : List NetOp)
    (hops : ∀ op ∈ ops, op.OneWay sender) :
    (∀ p ∈ dataBeforeError ((Net.session C key size (ops₀ ++ ops)).reads.drop
      (Net.session C key size ops₀).reads.length), p ∈ written ops) ∧
    ((written ops).length ≤ 2 ^ 64 →
      (dataBeforeError ((Net.session C key size (ops₀ ++ ops)).reads.drop
        (Net.session C key size ops₀).reads.length)).Sublist (written ops)) := by
  obtain ⟨calls, reads, hrun, hsub⟩ := oneWay_session C key size ops₀ hfresh hops
  obtain ⟨hsorted, hsealed⟩ := hrun.accepted hfresh (seen_session C key size (ops₀ ++ ops) _)
  rw [hrun.reads_eq, List.drop_left]
  have hbefore : (dataBeforeError reads).Sublist
      ((reads.filter fun x => x.kind = some .data).map Read.payload) := by
    rw [← filterMap_data?]
    exact (List.takeWhile_sublist _).filterMap _
  refine ⟨?_, ?_⟩
  · intro p hp
    obtain ⟨x, hx, rfl⟩ := List.mem_map.mp (hbefore.subset hp)
    obtain ⟨c, hc, -, hpay⟩ := hsealed x hx
    exact hsub.subset (List.mem_map.mpr ⟨c, hc, hpay⟩)
  · intro hlen
    have hcalls : calls.length ≤ 2 ^ 64 := by
      have := hsub.length_le
      rw [List.length_map] at this
      omega
    exact (hbefore.trans (map_sublist_of_sorted _ _ _ _ (hrun.ordered hcalls) hsorted
      hsealed)).trans hsub

/-- Two frames are written and the first one is dropped. -/
def Sample.gapOps (ch : EncryptedChannel) : List NetOp :=
  let w := writeFrame Sample.suite ch .accepts [1]
  let w' := writeFrame Sample.suite w.channel .accepts [2]
  [.write .bridge .accepts [1], .write .bridge .accepts [2], .read .client w'.bytes false]

/-- The second frame is accepted with no error: what was accepted is not a beginning of what was
written. A receiver that asks for a larger seq and not for the next cannot see the gap. -/
theorem dropped_frame_unnoticed :
    FreshEpoch (Net.session Sample.suite Sample.key (fun _ => Sample.frameSize) []) .bridge ∧
    dataBeforeError (Net.session Sample.suite Sample.key (fun _ => Sample.frameSize)
      (Sample.gapOps Sample.channel)).reads = [[2]] ∧
    written (Sample.gapOps Sample.channel) = [[1], [2]] ∧
    ¬ (dataBeforeError (Net.session Sample.suite Sample.key (fun _ => Sample.frameSize)
      (Sample.gapOps Sample.channel)).reads <+: written (Sample.gapOps Sample.channel)) := by
  refine ⟨⟨rfl, rfl, by simp [Net.session, Net.run, Net.start]⟩, ?_, rfl, ?_⟩
  · decide +kernel
  · decide +kernel

/-- The same in the second epoch of a session, with an old frame on record. -/
theorem accepted_sublist_second_epoch :
    (dataBeforeError ((Net.session Sample.suite Sample.key (fun _ => Sample.frameSize)
      ([.write .bridge .accepts [9], .rotate .bridge (Sample.rot 1),
        .rotate .client (Sample.rot 1)] ++
        Sample.gapOps (rotateKey Sample.suite Sample.channel (Sample.rot 1)))).reads.drop 0)).Sublist
      [[1], [2]] := by
  refine (accepted_sublist Sample.suite Sample.key (fun _ => Sample.frameSize)
    [.write .bridge .accepts [9], .rotate .bridge (Sample.rot 1), .rotate .client (Sample.rot 1)]
    .bridge ⟨by decide, by decide, by decide +kernel⟩
    (Sample.gapOps (rotateKey Sample.suite Sample.channel (Sample.rot 1))) ?_).2 ?_
  · simp [Sample.gapOps, NetOp.OneWay, Side.peer]
  · simp [Sample.gapOps, written]

end LatticeShield
