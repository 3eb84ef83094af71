import LatticeShield.Crypto.Sample
import LatticeShield.Lib.Lists
import LatticeShield.Proof.Frames

/-!
# Nonces of the two endpoints

The bridge and the client build their channels from the *same* 32-byte session key
(`session.rs`, `client_session.rs`), both start `send_seq` and `epoch` at zero, and both build a
DATA nonce as `seq ‖ epoch`. Nothing in the key, the nonce or the state says which side is
writing. So the module doc's promise ("nunca se reutiliza bajo la misma clave") is kept by one
sender alone and broken by the first frame of the second.

`nonces_distinct_iff` says exactly when it is kept. Of any two `write_frame` calls made in the
same key epoch, both are the same endpoint's, and the earlier one did not fail: a failed write has
encrypted without moving `send_seq`.

The proof follows the run from the right. What the endpoints did so far is summarised by its list
of writes (`Schedule`), from which every counter is a count (`Follows`), so the new write's nonce
is compared with the old ones by comparing two counts.
-/

set_option autoImplicit false

namespace LatticeShield

open Lib EncryptedChannel

/-! ## Runs of two senders -/

/-- What an endpoint may do to its sending half. Which nonce a rotation applies is not its choice:
the `i`-th rotation on either side uses the same one. -/
inductive SendOp where
  | write (s : Side) (w : Writer) (data : Bytes)
  | rotate (s : Side)

structure TwoEnds where
  ch : Side → EncryptedChannel
  rotations : Side → Nat
  /-- Key and nonce of every DATA encryption made so far by either endpoint. -/
  made : List (Key × Nonce)

namespace TwoEnds

/-- Two channels from one session key, each with its own `max_frame_size`. -/
def start (key : Key) (size : Side → Nat) : TwoEnds where
  ch s := .new key (size s)
  rotations _ := 0
  made := []

def step (C : CipherSuite) (rot : Nat → RotationNonce) (st : TwoEnds) : SendOp → TwoEnds
  | .write s w data =>
    { st with
      ch := Function.update st.ch s (writeFrame C (st.ch s) w data).channel
      made := st.made ++ ((sealData C (st.ch s) data).map fun e => (e.key, e.nonce)).toList }
  | .rotate s =>
    { st with
      ch := Function.update st.ch s (rotateKey C (st.ch s) (rot (st.rotations s)))
      rotations := Function.update st.rotations s (st.rotations s + 1) }

def run (C : CipherSuite) (rot : Nat → RotationNonce) (st : TwoEnds) (ops : List SendOp) :
    TwoEnds :=
  ops.foldl (step C rot) st

end TwoEnds

/-! ## The schedule of a run -/

/-- One `write_frame` call that encrypts: who, after how many of its own rotations, and what its
writer did. -/
structure Write where
  side : Side
  epoch : Nat
  writer : Writer
deriving DecidableEq

/-- What can be read off the operations alone. Whether two nonces are the same is a matter of the
order of writes and rotations, not of the data. -/
structure Schedule where
  rotations : Side → Nat
  writes : List Write

namespace Schedule

/-- A plaintext over `P_MAX` is refused before anything is encrypted. -/
def step (sch : Schedule) : SendOp → Schedule
  | .write s w data =>
    { sch with
      writes := sch.writes ++ if data.length ≤ gcmPMax then [⟨s, sch.rotations s, w⟩] else [] }
  | .rotate s => { sch with rotations := Function.update sch.rotations s (sch.rotations s + 1) }

def of (ops : List SendOp) : Schedule := ops.foldl step ⟨fun _ => 0, []⟩

theorem of_snoc (ops : List SendOp) (op : SendOp) : of (ops ++ [op]) = (of ops).step op := by
  simp [of]

/-- How many frames under this key there are. -/
def framesAt (sch : Schedule) (e : Nat) : Nat := sch.writes.countP fun x => x.epoch = e

/-- The later of two writes under one key is by the same endpoint, and the earlier one did not
fail. It is a condition on the schedule: who writes when, and which of the writes the socket
takes. -/
def SoleWriter (x y : Write) : Prop :=
  x.epoch = y.epoch → x.side = y.side ∧ x.writer = .accepts

instance : DecidableRel SoleWriter := fun _ _ => inferInstanceAs (Decidable (_ → _))

/-- How often the counter of side `s` has moved in its epoch `e`, over the writes `l`. A write
that failed has encrypted and not moved it. -/
def sent (l : List Write) (s : Side) (e : Nat) : Nat :=
  l.countP fun x => x.side = s ∧ x.epoch = e ∧ x.writer = .accepts

theorem sent_append (l l' : List Write) (s : Side) (e : Nat) :
    sent (l ++ l') s e = sent l s e + sent l' s e := List.countP_append

theorem sent_le_framesAt (sch : Schedule) (s : Side) (e : Nat) :
    sent sch.writes s e ≤ sch.framesAt e := by
  apply List.countP_mono_left
  intro x _ hx
  simp only [decide_eq_true_eq] at hx ⊢
  exact hx.2.1

theorem sent_eq_zero {l : List Write} {s : Side} {e : Nat}
    (h : ∀ x ∈ l, ¬ (x.side = s ∧ x.epoch = e ∧ x.writer = .accepts)) : sent l s e = 0 := by
  apply List.countP_eq_zero.mpr
  intro x hx
  simpa using h x hx

end Schedule

open Schedule

/-! ## Counters are counts -/

/-- Key and nonce of a write that the writes `before` came before. -/
def pairOf (C : CipherSuite) (key : Key) (rot : Nat → RotationNonce) (before : List Write)
    (x : Write) : Key × Nonce :=
  (ratchet C key rot x.epoch,
    dataNonce (UInt64.ofNat (sent before x.side x.epoch)) (UInt32.ofNat x.epoch))

/-- The state of the run, read off its schedule: the key of a side is the ratchet at its number of
rotations, and its counter is the number of writes since then that have not failed. -/
structure Follows (C : CipherSuite) (key : Key) (rot : Nat → RotationNonce) (sch : Schedule)
    (st : TwoEnds) : Prop where
  rotations : st.rotations = sch.rotations
  keyBytes : ∀ s, (st.ch s).keyBytes = ratchet C key rot (sch.rotations s)
  epoch : ∀ s, (st.ch s).epoch = UInt32.ofNat (sch.rotations s)
  sendSeq : ∀ s, (st.ch s).sendSeq = UInt64.ofNat (sent sch.writes s (sch.rotations s))
  past : ∀ x ∈ sch.writes, x.epoch ≤ sch.rotations x.side
  made : ∀ q, q ∈ st.made ↔
    ∃ before x after, sch.writes = before ++ x :: after ∧ q = pairOf C key rot before x

theorem follows_start (C : CipherSuite) (key : Key) (rot : Nat → RotationNonce)
    (size : Side → Nat) : Follows C key rot (Schedule.of []) (TwoEnds.start key size) where
  rotations := rfl
  keyBytes _ := rfl
  epoch _ := rfl
  sendSeq _ := rfl
  past x hx := absurd hx (by simp [Schedule.of])
  made q := by simp [TwoEnds.start, Schedule.of]

theorem sealData_map (C : CipherSuite) (ch : EncryptedChannel) (data : Bytes) :
    (sealData C ch data).map (fun e => (e.key, e.nonce)) =
      if data.length ≤ gcmPMax then some (ch.keyBytes, dataNonce ch.sendSeq ch.epoch) else none := by
  unfold sealData
  dsimp only
  by_cases hlen : data.length ≤ gcmPMax
  · obtain ⟨c, t, hct⟩ := C.aead.exists_encrypt ch.keyBytes (dataNonce ch.sendSeq ch.epoch)
      (u64ToBe ch.sendSeq).toList (by rw [C.pMax]; exact hlen)
    rw [hct, if_pos hlen]
    rfl
  · rw [C.aead.encrypt_eq_none _ _ _ (by rw [C.pMax]; exact hlen), if_neg hlen]
    rfl

theorem split_snoc {l : List Write} {x : Write} {P : List Write → Write → Prop} :
    (∃ before y after, l ++ [x] = before ++ y :: after ∧ P before y) ↔
      (∃ before y after, l = before ++ y :: after ∧ P before y) ∨ P l x := by
  constructor
  · rintro ⟨before, y, after, heq, hP⟩
    cases after using List.reverseRecOn with
    | nil =>
      obtain ⟨rfl, hxy⟩ := List.append_inj' heq rfl
      exact Or.inr (List.singleton_inj.mp hxy ▸ hP)
    | append_singleton after z =>
      rw [← List.cons_append, ← List.append_assoc] at heq
      exact Or.inl ⟨before, y, after, (List.append_inj' heq rfl).1, hP⟩
  · rintro (⟨before, y, after, rfl, hP⟩ | hP)
    · exact ⟨before, y, after ++ [x], by simp, hP⟩
    · exact ⟨l, x, [], rfl, hP⟩

theorem sent_singleton (x : Write) (s : Side) (e : Nat) :
    sent [x] s e = if x.side = s ∧ x.epoch = e ∧ x.writer = .accepts then 1 else 0 := by
  simp [sent, List.countP_cons]

theorem Follows.write {C : CipherSuite} {key : Key} {rot : Nat → RotationNonce} {sch : Schedule}
    {st : TwoEnds} (h : Follows C key rot sch st) (s : Side) (w : Writer) (data : Bytes) :
    Follows C key rot (sch.step (.write s w data)) (st.step C rot (.write s w data)) := by
  by_cases hlen : data.length ≤ gcmPMax
  · -- the new write, and the channel it leaves
    have hw : (sch.step (.write s w data)).writes = sch.writes ++ [⟨s, sch.rotations s, w⟩] := by
      simp [Schedule.step, hlen]
    have hsend : ∀ s', ((st.step C rot (.write s w data)).ch s').sendSeq =
        UInt64.ofNat (sent (sch.writes ++ [⟨s, sch.rotations s, w⟩]) s' (sch.rotations s')) := by
      intro s'
      rw [sent_append, sent_singleton, UInt64.ofNat_add, ← h.sendSeq s']
      by_cases hs : s' = s
      · subst hs
        by_cases hacc : w = .accepts
        · simp [TwoEnds.step, writeFrame_channel, hlen, hacc]
        · simp [TwoEnds.step, writeFrame_channel, hacc]
      · simp [TwoEnds.step, hs, Ne.symm hs]
    have hsame : ∀ s', ((st.step C rot (.write s w data)).ch s').keyBytes = (st.ch s').keyBytes ∧
        ((st.step C rot (.write s w data)).ch s').epoch = (st.ch s').epoch := by
      intro s'
      by_cases hs : s' = s
      · subst hs
        by_cases hacc : w = .accepts <;> simp [TwoEnds.step, writeFrame_channel, hlen, hacc]
      · simp [TwoEnds.step, hs]
    refine ⟨h.rotations, fun s' => (hsame s').1.trans (h.keyBytes s'),
      fun s' => (hsame s').2.trans (h.epoch s'), fun s' => hw ▸ hsend s', ?_, ?_⟩
    · intro x hx
      rw [hw, List.mem_append, List.mem_singleton] at hx
      rcases hx with hx | rfl
      · exact h.past x hx
      · exact Nat.le_refl _
    · intro q
      have hpair : ((sealData C (st.ch s) data).map fun e => (e.key, e.nonce)).toList =
          [pairOf C key rot sch.writes ⟨s, sch.rotations s, w⟩] := by
        rw [sealData_map, if_pos hlen, h.keyBytes s, h.sendSeq s, h.epoch s]
        rfl
      rw [hw, split_snoc, ← h.made q]
      simp only [TwoEnds.step, hpair, List.mem_append, List.mem_singleton]
  · -- refused by GCM: nothing happens
    have hch : (writeFrame C (st.ch s) w data).channel = st.ch s := by
      simp [writeFrame_channel, hlen]
    have hst : st.step C rot (.write s w data) = st := by
      simp [TwoEnds.step, hch, sealData_map, hlen]
    have hsch : sch.step (.write s w data) = sch := by simp [Schedule.step, hlen]
    rw [hst, hsch]
    exact h

theorem Follows.rotate {C : CipherSuite} {key : Key} {rot : Nat → RotationNonce} {sch : Schedule}
    {st : TwoEnds} (h : Follows C key rot sch st) (s : Side) :
    Follows C key rot (sch.step (.rotate s)) (st.step C rot (.rotate s)) := by
  have hr : st.rotations s = sch.rotations s := congrFun h.rotations s
  refine ⟨?_, ?_, ?_, ?_, ?_, h.made⟩
  · simp [TwoEnds.step, Schedule.step, h.rotations]
  · intro s'
    by_cases hs : s' = s
    · subst hs; simp [TwoEnds.step, Schedule.step, rotateKey, ratchet, h.keyBytes, hr]
    · simp [TwoEnds.step, Schedule.step, hs, h.keyBytes]
  · intro s'
    by_cases hs : s' = s
    · subst hs; simp [TwoEnds.step, Schedule.step, rotateKey, h.epoch]
    · simp [TwoEnds.step, Schedule.step, hs, h.epoch]
  · intro s'
    by_cases hs : s' = s
    · -- a fresh epoch: no write of this side is in it yet
      subst hs
      have hzero : sent sch.writes s' (sch.rotations s' + 1) = 0 := by
        apply sent_eq_zero
        intro x hx hmem
        have hpast := h.past x hx
        rw [hmem.1, hmem.2.1] at hpast
        omega
      simp [TwoEnds.step, Schedule.step, rotateKey, hzero]
    · simp [TwoEnds.step, Schedule.step, hs, h.sendSeq]
  · intro x hx
    have hpast := h.past x hx
    -- a write of the side that rotates is now one epoch further back
    by_cases hs : x.side = s
    · simp only [Schedule.step, hs, Function.update_self]
      rw [hs] at hpast
      omega
    · simpa [Schedule.step, hs] using hpast

theorem follows_run (C : CipherSuite) (key : Key) (rot : Nat → RotationNonce)
    (size : Side → Nat) (ops : List SendOp) :
    Follows C key rot (Schedule.of ops) (TwoEnds.run C rot (.start key size) ops) := by
  induction ops using List.reverseRecOn with
  | nil => exact follows_start C key rot size
  | append_singleton ops op ih =>
    rw [Schedule.of_snoc, TwoEnds.run, List.foldl_append]
    cases op with
    | write s w data => exact ih.write s w data
    | rotate s => exact ih.rotate s

/-! ## Comparing a write with the ones before it -/

theorem dataNonce_inj {q q' : UInt64} {e e' : UInt32} (h : dataNonce q e = dataNonce q' e') :
    q = q' ∧ e = e' := by
  have hlist : (dataNonce q e).toList = (dataNonce q' e').toList := congrArg _ h
  simp only [dataNonce, List.Vector.toList_mk] at hlist
  obtain ⟨hseq, hepoch⟩ := ByteArr.append_inj hlist
  exact ⟨u64ToBe_inj.mp hseq, u32ToBe_inj.mp (ByteArr.toList_inj.mp hepoch)⟩

/-- The epoch's first write, if it has one. It is the one that any other side's first write in the
epoch collides with. -/
theorem exists_first {l : List Write} {e : Nat} (h : ∃ x ∈ l, x.epoch = e) :
    ∃ before x after, l = before ++ x :: after ∧ x.epoch = e ∧ ∀ z ∈ before, z.epoch ≠ e := by
  induction l with
  | nil => obtain ⟨x, hx, -⟩ := h; exact absurd hx (by simp)
  | cons y l ih =>
    by_cases hy : y.epoch = e
    · exact ⟨[], y, l, rfl, hy, by simp⟩
    · obtain ⟨x, hx, hxe⟩ := h
      have hxl : x ∈ l := (List.mem_cons.mp hx).resolve_left fun hxy => hy (hxy ▸ hxe)
      obtain ⟨before, f, after, rfl, hf, hbefore⟩ := ih ⟨x, hxl, hxe⟩
      refine ⟨y :: before, f, after, rfl, hf, ?_⟩
      intro z hz
      rcases List.mem_cons.mp hz with rfl | hz
      · exact hy
      · exact hbefore z hz

/-- Under `SoleWriter` an epoch has one side only. -/
theorem side_eq_of_epoch_eq {l : List Write} (hl : l.Pairwise SoleWriter) {x z : Write}
    (hz : z ∈ l) (hx : x ∈ l) (he : z.epoch = x.epoch) : z.side = x.side := by
  obtain ⟨before, after, rfl⟩ := List.append_of_mem hx
  obtain ⟨-, hxa, hba⟩ := List.pairwise_append.mp hl
  rcases List.mem_append.mp hz with hz | hz
  · exact (hba z hz x List.mem_cons_self he).1
  · rcases List.mem_cons.mp hz with rfl | hz
    · rfl
    · exact ((List.pairwise_cons.mp hxa).1 z hz he.symm).1.symm

section NewWrite

variable (C : CipherSuite) (key : Key) (rot : Nat → RotationNonce) {l : List Write} {y : Write}

/-- Two endpoints in one epoch collide: each of them starts it at seq 0, under the same key and
with the same epoch in its nonce. -/
theorem collides_of_other_side (hl : l.Pairwise SoleWriter) {x : Write} (hx : x ∈ l)
    (he : x.epoch = y.epoch) (hs : x.side ≠ y.side) :
    ∃ before z after, l = before ++ z :: after ∧ pairOf C key rot before z = pairOf C key rot l y := by
  obtain ⟨before, f, after, hsplit, hf, hbefore⟩ := exists_first ⟨x, hx, he⟩
  refine ⟨before, f, after, hsplit, ?_⟩
  have hzero : sent before f.side y.epoch = 0 :=
    sent_eq_zero fun z hz hmem => hbefore z hz hmem.2.1
  have hnone : sent l y.side y.epoch = 0 := by
    refine sent_eq_zero fun z hz hmem => hs ?_
    rw [← side_eq_of_epoch_eq hl hz hx (hmem.2.1.trans he.symm)]
    exact hmem.1
  simp only [pairOf, hf, hzero, hnone]

/-- A write after a failed one collides with it: the failed one did not move the counter, and by
`SoleWriter` nothing came between. -/
theorem collides_of_failed (hl : l.Pairwise SoleWriter) {x : Write} (hx : x ∈ l)
    (he : x.epoch = y.epoch) (hs : x.side = y.side) (hw : x.writer ≠ .accepts) :
    ∃ before z after, l = before ++ z :: after ∧ pairOf C key rot before z = pairOf C key rot l y := by
  obtain ⟨before, after, rfl⟩ := List.append_of_mem hx
  refine ⟨before, x, after, rfl, ?_⟩
  have hafter : sent (x :: after) y.side y.epoch = 0 := by
    apply sent_eq_zero
    intro z hz hmem
    rcases List.mem_cons.mp hz with rfl | hz
    · exact hw hmem.2.2
    · have hxz := (List.pairwise_cons.mp (List.pairwise_append.mp hl).2.1).1 z hz
      exact hw (hxz (he.trans hmem.2.1.symm)).2
  simp only [pairOf, sent_append, hafter, he, hs, Nat.add_zero]

/-- **A write's nonce is new exactly when every earlier write under its key was by its own side
and succeeded.** -/
theorem pairOf_new_iff (hl : l.Pairwise SoleWriter)
    (hkey : ∀ x ∈ l, ratchet C key rot x.epoch = ratchet C key rot y.epoch → x.epoch = y.epoch)
    (hlt : sent l y.side y.epoch < 2 ^ 64) :
    (¬ ∃ before x after, l = before ++ x :: after ∧
        pairOf C key rot before x = pairOf C key rot l y) ↔
      ∀ x ∈ l, SoleWriter x y := by
  constructor
  · intro hnew x hx he
    by_cases hs : x.side = y.side
    · refine ⟨hs, ?_⟩
      by_contra hw
      exact hnew (collides_of_failed C key rot hl hx he hs hw)
    · exact absurd (collides_of_other_side C key rot hl hx he hs) hnew
  · rintro hsole ⟨before, x, after, rfl, heq⟩
    have hx : x ∈ before ++ x :: after := by simp
    simp only [pairOf, Prod.mk.injEq] at heq
    have he := hkey x hx heq.1
    obtain ⟨hs, hw⟩ := hsole x hx he
    have hseq := (dataNonce_inj heq.2).1
    -- `x` itself moved the counter, so the two counts differ by at least one
    have hcount : sent (before ++ x :: after) y.side y.epoch =
        sent before y.side y.epoch + 1 + sent after y.side y.epoch := by
      rw [← List.singleton_append, sent_append, sent_append, sent_singleton,
        if_pos ⟨hs, he, hw⟩, Nat.add_assoc]
    rw [hs, he] at hseq
    have hnat := congrArg UInt64.toNat hseq
    have hbefore : sent before y.side y.epoch < 2 ^ 64 := by omega
    rw [UInt64.toNat_ofNat_of_lt' hlt, UInt64.toNat_ofNat_of_lt' hbefore] at hnat
    omega

end NewWrite

/-! ## Whole runs -/

/-- The HKDF never repeats a key over the first `n` rotations. Nonces begin again with every key,
so this is what makes the pairs differ. -/
def KeysFresh (C : CipherSuite) (key : Key) (rot : Nat → RotationNonce) (n : Nat) : Prop :=
  ∀ i ≤ n, ∀ j ≤ n, ratchet C key rot i = ratchet C key rot j → i = j

instance (C : CipherSuite) (key : Key) (rot : Nat → RotationNonce) (n : Nat) :
    Decidable (KeysFresh C key rot n) :=
  inferInstanceAs (Decidable (∀ i ≤ n, ∀ j ≤ n, ratchet C key rot i = ratchet C key rot j → i = j))

namespace Schedule

/-- How many rotations the further endpoint has applied. The other may be behind, with frames
under a key that this one has left. -/
def lastEpoch (sch : Schedule) : Nat := max (sch.rotations .bridge) (sch.rotations .client)

theorem rotations_le_lastEpoch (sch : Schedule) (s : Side) : sch.rotations s ≤ sch.lastEpoch := by
  cases s
  · exact Nat.le_max_left _ _
  · exact Nat.le_max_right _ _

theorem rotations_le_step (sch : Schedule) (op : SendOp) (s : Side) :
    sch.rotations s ≤ (sch.step op).rotations s := by
  cases op with
  | write s' w data => exact Nat.le_refl _
  | rotate s' =>
    by_cases hs : s = s'
    · subst hs; simp [step]
    · simp [step, hs]

theorem framesAt_le_length (sch : Schedule) (e : Nat) : sch.framesAt e ≤ sch.writes.length :=
  List.countP_le_length

theorem framesAt_le_step (sch : Schedule) (op : SendOp) (e : Nat) :
    sch.framesAt e ≤ (sch.step op).framesAt e := by
  cases op with
  | write s w data => simp [framesAt, step, List.countP_append]
  | rotate s => exact Nat.le_refl _

end Schedule

/-- The bound `n` on the epochs stays fixed while the run grows. So the induction is over the run,
and the freshness of the keys is assumed once. -/
theorem made_nodup_iff (C : CipherSuite) (key : Key) (rot : Nat → RotationNonce)
    (size : Side → Nat) (ops : List SendOp) (n : Nat) (hfresh : KeysFresh C key rot n)
    (hn : ∀ s, (Schedule.of ops).rotations s ≤ n)
    (hcount : ∀ e, (Schedule.of ops).framesAt e < 2 ^ 64) :
    (TwoEnds.run C rot (.start key size) ops).made.Nodup ↔
      (Schedule.of ops).writes.Pairwise SoleWriter := by
  induction ops using List.reverseRecOn with
  | nil => simp [TwoEnds.run, TwoEnds.start, Schedule.of]
  | append_singleton ops op ih =>
    rw [Schedule.of_snoc] at hn hcount ⊢
    have hn' : ∀ s, (Schedule.of ops).rotations s ≤ n := fun s =>
      (Schedule.rotations_le_step _ op s).trans (hn s)
    have hcount' : ∀ e, (Schedule.of ops).framesAt e < 2 ^ 64 := fun e =>
      (Schedule.framesAt_le_step _ op e).trans_lt (hcount e)
    have hrun := follows_run C key rot size ops
    rw [TwoEnds.run, List.foldl_append, List.foldl_cons, List.foldl_nil, ← TwoEnds.run]
    cases op with
    | rotate s => exact ih hn' hcount'
    | write s w data =>
      simp only [TwoEnds.step, Schedule.step, sealData_map]
      by_cases hlen : data.length ≤ gcmPMax
      · rw [if_pos hlen, if_pos hlen, Option.toList_some, nodup_snoc, pairwise_snoc,
          ih hn' hcount', hrun.keyBytes s, hrun.sendSeq s, hrun.epoch s, hrun.made]
        apply and_congr_right
        intro hsole
        rw [← pairOf_new_iff C key rot hsole]
        · refine not_congr (exists_congr fun before => exists_congr fun x => exists_congr fun after =>
            and_congr_right fun _ => eq_comm)
        · intro x hx
          exact hfresh _ ((hrun.past x hx).trans (hn' _)) _ (hn' s)
        · exact (Schedule.sent_le_framesAt _ _ _).trans_lt (hcount' _)
      · simpa [hlen] using ih hn' hcount'

/-- **The nonces of a session are distinct exactly when every key has one writer, whose writes
succeed up to its last.** Both endpoints start with seq 0 under the handshake's key, and both go
on with seq 0 under every later one; the nonce has no part that would tell them apart. -/
theorem nonces_distinct_iff (C : CipherSuite) (key : Key) (rot : Nat → RotationNonce)
    (size : Side → Nat) (ops : List SendOp)
    (hfresh : KeysFresh C key rot (Schedule.of ops).lastEpoch)
    (hcount : ∀ e, (Schedule.of ops).framesAt e < 2 ^ 64) :
    (TwoEnds.run C rot (.start key size) ops).made.Nodup ↔
      (Schedule.of ops).writes.Pairwise SoleWriter :=
  made_nodup_iff C key rot size ops _ hfresh (Schedule.rotations_le_lastEpoch _) hcount

/-- The bridge writes, both ends rotate, then the client writes: one writer for each key. -/
theorem nonces_distinct_in_turns :
    (TwoEnds.run Sample.suite (fun i => Sample.rot (UInt8.ofNat i))
      (.start Sample.key fun _ => Sample.frameSize)
      [.write .bridge .accepts [1], .write .bridge .accepts [2], .rotate .bridge, .rotate .client,
        .write .client .accepts [3]]).made.Nodup := by
  refine (nonces_distinct_iff _ _ _ _ _ (by decide +kernel) ?_).mpr ?_
  · intro e
    refine (Schedule.framesAt_le_length _ e).trans_lt ?_
    decide
  · decide

/-- The first frame of each side, before any rotation: same key, same nonce. -/
theorem nonces_first_frames_collide :
    KeysFresh Sample.suite Sample.key (fun i => Sample.rot (UInt8.ofNat i))
      (Schedule.of [.write .bridge .accepts [1], .write .client .accepts [2]]).lastEpoch ∧
    (∀ e, (Schedule.of [.write .bridge .accepts [1], .write .client .accepts [2]]).framesAt e
      < 2 ^ 64) ∧
    ¬ (TwoEnds.run Sample.suite (fun i => Sample.rot (UInt8.ofNat i))
      (.start Sample.key fun _ => Sample.frameSize)
      [.write .bridge .accepts [1], .write .client .accepts [2]]).made.Nodup := by
  refine ⟨by decide +kernel, ?_, by decide +kernel⟩
  intro e
  exact (Schedule.framesAt_le_length _ e).trans_lt (by decide)

end LatticeShield
