import LatticeShield.Crypto.Sample
import LatticeShield.Lib.Runs
import LatticeShield.Proof.Nonces

/-!
# Nonces of one endpoint whose writes may fail

`write_frame` encrypts first, then writes six times and flushes, and moves `send_seq` only behind
all of that. So a write that fails has used up a nonce the channel still holds: the next
`write_frame` under the same key encrypts with it again. Whether that is a reuse depends on the
caller alone. `retried_nonces_iff` says that the nonces of a channel are safe exactly as long as
what follows a failed write, up to the next rotation, is the same plaintext again.

The other way to come back to a nonce is that a counter runs out (2⁶⁴ frames under one key, 2³²
rotations). It is kept apart as `Unwrapped`.
-/

set_option autoImplicit false

namespace LatticeShield

open Lib EncryptedChannel

/-- What can be done with one channel. The bytes a `read_frame` finds may be anything. -/
inductive ChannelOp where
  | write (w : Writer) (data : Bytes)
  | sendKeyRotate (w : Writer) (gcmNonce : Nonce) (nonce : RotationNonce)
  | rotateKey (nonce : RotationNonce)
  | read (stream : Bytes)
deriving DecidableEq

/-- One call of the cipher by `write_frame`. It counts when the cipher is called, whether or not
the frame got out. -/
structure Encryption where
  key : Key
  nonce : Nonce
  plaintext : Bytes
deriving DecidableEq

structure OneEnd where
  ch : EncryptedChannel
  /-- Every DATA encryption made so far. -/
  made : List Encryption
  /-- The plaintext of the last `write_frame` under this key, if it encrypted and then failed. -/
  failed : Option Bytes
deriving DecidableEq

namespace OneEnd

def start (ch : EncryptedChannel) : OneEnd := ⟨ch, [], none⟩

def step (C : CipherSuite) (st : OneEnd) : ChannelOp → OneEnd
  | .write w data =>
    let out := writeFrame C st.ch w data
    match sealData C st.ch data with
    | none => { st with ch := out.channel }
    | some e =>
      { ch := out.channel
        made := st.made ++ [⟨e.key, e.nonce, data⟩]
        failed := if w = .accepts then none else some data }
  | .sendKeyRotate w gcmNonce nonce =>
    { st with ch := (sendKeyRotate C st.ch w gcmNonce nonce).channel }
  | .rotateKey nonce => { st with ch := rotateKey C st.ch nonce, failed := none }
  | .read stream => { st with ch := (readStream C.aead.decrypt st.ch stream).channel }

def run (C : CipherSuite) (ch : EncryptedChannel) (ops : List ChannelOp) : OneEnd :=
  ops.foldl (step C) (start ch)

/-- No two `write_frame` calls with different plaintexts share key and nonce. The same plaintext
twice would give the same ciphertext, which tells nobody anything new. -/
def NoReuse (st : OneEnd) : Prop :=
  st.made.Pairwise fun x y => x.plaintext ≠ y.plaintext → ¬ (x.key = y.key ∧ x.nonce = y.nonce)

/-- A `write_frame` that encrypts after one that failed has the same plaintext. Key and nonce are
then used again, but for nothing new. -/
def Retries (st : OneEnd) : ChannelOp → Prop
  | .write _ data => data.length ≤ gcmPMax → ∀ p, st.failed = some p → data = p
  | _ => True

/-- The operation does not take a counter past its end, where the addition would wrap and the
nonces begin again. -/
def Unwrapped (st : OneEnd) : ChannelOp → Prop
  | .write _ _ => st.ch.sendSeq.toNat + 1 < 2 ^ 64
  | .rotateKey _ => st.ch.epoch.toNat + 1 < 2 ^ 32
  | _ => True

instance (st : OneEnd) : Decidable st.NoReuse := inferInstanceAs (Decidable (List.Pairwise _ _))

instance (st : OneEnd) : ∀ op, Decidable (Retries st op)
  | .write _ data => decidable_of_iff (data.length ≤ gcmPMax → ∀ p ∈ st.failed, data = p) Iff.rfl
  | .sendKeyRotate _ _ _ => .isTrue trivial
  | .rotateKey _ => .isTrue trivial
  | .read _ => .isTrue trivial

instance (st : OneEnd) : ∀ op, Decidable (Unwrapped st op)
  | .write _ _ => inferInstanceAs (Decidable (_ < _))
  | .rotateKey _ => inferInstanceAs (Decidable (_ < _))
  | .sendKeyRotate _ _ _ => .isTrue trivial
  | .read _ => .isTrue trivial

/-! ## Steps -/

variable {C : CipherSuite} {st : OneEnd}

/-- What `write_frame` does, if the plaintext is not too long for the cipher. -/
theorem step_write (C : CipherSuite) (st : OneEnd) (w : Writer) {data : Bytes}
    (h : data.length ≤ gcmPMax) : step C st (.write w data) =
      { ch := if w = .accepts then { st.ch with sendSeq := st.ch.sendSeq + 1 } else st.ch
        made := st.made ++ [⟨st.ch.keyBytes, dataNonce st.ch.sendSeq st.ch.epoch, data⟩]
        failed := if w = .accepts then none else some data } := by
  have hseal := sealData_map C st.ch data
  rw [if_pos h] at hseal
  obtain ⟨e, he, hpair⟩ := Option.map_eq_some_iff.mp hseal
  rw [Prod.mk.injEq] at hpair
  simp only [step, he, writeFrame_channel, h, true_and, hpair.1, hpair.2]

theorem step_write_refused (C : CipherSuite) (st : OneEnd) (w : Writer) {data : Bytes}
    (h : ¬ data.length ≤ gcmPMax) : step C st (.write w data) = st := by
  have hseal := sealData_map C st.ch data
  rw [if_neg h, Option.map_eq_none_iff] at hseal
  simp only [step, hseal, writeFrame_channel, h, false_and, if_false]

/-- The counters of the sending half. Reading and KEY_ROTATE frames leave them as they are. -/
structure SameSending (ch ch' : EncryptedChannel) : Prop where
  keyBytes : ch'.keyBytes = ch.keyBytes
  sendSeq : ch'.sendSeq = ch.sendSeq
  epoch : ch'.epoch = ch.epoch

theorem readStream_sending (C : CipherSuite) (ch : EncryptedChannel) (stream : Bytes) :
    SameSending ch (readStream C.aead.decrypt ch stream).channel := by
  unfold readStream
  split
  · rename_i result channel rest hrun
    cases result with
    | error e =>
      rw [readFrame_error hrun]
      exact ⟨rfl, rfl, rfl⟩
    | ok r =>
      rcases readFrame_ok_cases hrun with
        ⟨len, seq, nonce, ct, tag, p, -, -, -, hch⟩ | ⟨gcmNonce, ct, tag, n, -, -, -, -, hch⟩
      · subst hch
        exact ⟨rfl, rfl, rfl⟩
      · subst hch
        exact ⟨rfl, rfl, rfl⟩
  · exact ⟨rfl, rfl, rfl⟩

theorem sendKeyRotate_sending (C : CipherSuite) (ch : EncryptedChannel) (w : Writer)
    (gcmNonce : Nonce) (nonce : RotationNonce) :
    SameSending ch (sendKeyRotate C ch w gcmNonce nonce).channel := by
  rw [sendKeyRotate_channel]
  split
  · exact ⟨rfl, rfl, rfl⟩
  · exact ⟨rfl, rfl, rfl⟩

/-! ## Where the nonces stand -/

/-- Every encryption so far was under an earlier epoch, or in this one with an earlier seq, or it
is the failed one that still holds the current nonce. The last is the case the counters do not
cover: `write_frame` moves `send_seq` only behind the write. -/
structure Behind (st : OneEnd) : Prop where
  made : ∀ x ∈ st.made, ∃ seq epoch, x.nonce = dataNonce seq epoch ∧
    (epoch.toNat < st.ch.epoch.toNat ∨
      (epoch = st.ch.epoch ∧
        (seq.toNat < st.ch.sendSeq.toNat ∨
          (seq = st.ch.sendSeq ∧ st.failed = some x.plaintext))))
  failed : ∀ p, st.failed = some p →
    (⟨st.ch.keyBytes, dataNonce st.ch.sendSeq st.ch.epoch, p⟩ : Encryption) ∈ st.made

theorem behind_start (ch : EncryptedChannel) : Behind (start ch) :=
  ⟨fun _ hx => absurd hx List.not_mem_nil, fun _ hp => absurd hp (by simp [start])⟩

theorem Behind.sending (h : Behind st) {ch : EncryptedChannel} (hch : SameSending st.ch ch) :
    Behind { st with ch } := by
  constructor
  · simp only [hch.epoch, hch.sendSeq]
    exact h.made
  · simp only [hch.epoch, hch.sendSeq, hch.keyBytes]
    exact h.failed

theorem Behind.write (h : Behind st) (w : Writer) {data : Bytes} (hlen : data.length ≤ gcmPMax)
    (hseq : st.ch.sendSeq.toNat + 1 < 2 ^ 64) (hretry : ∀ p, st.failed = some p → data = p) :
    Behind (step C st (.write w data)) := by
  rw [step_write C st w hlen]
  by_cases hw : w = .accepts
  · -- the counter moves past every nonce of the epoch
    have hnext : (st.ch.sendSeq + 1).toNat = st.ch.sendSeq.toNat + 1 := by
      rw [UInt64.toNat_add, UInt64.toNat_one, Nat.mod_eq_of_lt hseq]
    simp only [if_pos hw]
    refine ⟨?_, fun p hp => absurd hp (by simp)⟩
    intro x hx
    rcases List.mem_append.mp hx with hx | hx
    · obtain ⟨seq, epoch, hnonce, hold | ⟨hepoch, hold | ⟨hsame, -⟩⟩⟩ := h.made x hx
      · exact ⟨seq, epoch, hnonce, Or.inl hold⟩
      · exact ⟨seq, epoch, hnonce, Or.inr ⟨hepoch, Or.inl (by simp only [hnext]; omega)⟩⟩
      · exact ⟨seq, epoch, hnonce, Or.inr ⟨hepoch, Or.inl (by simp only [hnext, hsame]; omega)⟩⟩
    · rw [List.mem_singleton] at hx
      subst hx
      exact ⟨_, _, rfl, Or.inr ⟨rfl, Or.inl (by simp only [hnext]; omega)⟩⟩
  · -- the nonce stays where it is, with this plaintext on it
    simp only [if_neg hw]
    refine ⟨?_, ?_⟩
    · intro x hx
      rcases List.mem_append.mp hx with hx | hx
      · obtain ⟨seq, epoch, hnonce, hold | ⟨hepoch, hold | ⟨hsame, hfailed⟩⟩⟩ := h.made x hx
        · exact ⟨seq, epoch, hnonce, Or.inl hold⟩
        · exact ⟨seq, epoch, hnonce, Or.inr ⟨hepoch, Or.inl hold⟩⟩
        · exact ⟨seq, epoch, hnonce,
            Or.inr ⟨hepoch, Or.inr ⟨hsame, congrArg some (hretry _ hfailed)⟩⟩⟩
      · rw [List.mem_singleton] at hx
        subst hx
        exact ⟨_, _, rfl, Or.inr ⟨rfl, Or.inr ⟨rfl, rfl⟩⟩⟩
    · intro p hp
      rw [Option.some.injEq] at hp
      subst hp
      exact List.mem_append_right _ List.mem_cons_self

theorem Behind.rotateKey (h : Behind st) (nonce : RotationNonce)
    (hepoch : st.ch.epoch.toNat + 1 < 2 ^ 32) : Behind (step C st (.rotateKey nonce)) := by
  have hnext : (st.ch.epoch + 1).toNat = st.ch.epoch.toNat + 1 := by
    rw [UInt32.toNat_add, UInt32.toNat_one, Nat.mod_eq_of_lt hepoch]
  refine ⟨?_, fun p hp => absurd hp (by simp [step])⟩
  intro x hx
  obtain ⟨seq, epoch, hnonce, hold⟩ := h.made x hx
  refine ⟨seq, epoch, hnonce, Or.inl ?_⟩
  have hle : epoch.toNat ≤ st.ch.epoch.toNat := by
    rcases hold with hlt | ⟨heq, -⟩
    · exact Nat.le_of_lt hlt
    · rw [heq]
  simp only [step, EncryptedChannel.rotateKey, hnext]
  omega

theorem Behind.step (h : Behind st) {op : ChannelOp} (hwrap : Unwrapped st op)
    (hretry : Retries st op) : Behind (step C st op) := by
  cases op with
  | write w data =>
    by_cases hlen : data.length ≤ gcmPMax
    · exact h.write w hlen hwrap (hretry hlen)
    · rw [step_write_refused C st w hlen]
      exact h
  | sendKeyRotate w gcmNonce nonce => exact h.sending (sendKeyRotate_sending C st.ch w gcmNonce nonce)
  | rotateKey nonce => exact h.rotateKey nonce hwrap
  | read stream => exact h.sending (readStream_sending C st.ch stream)

/-! ## Runs -/

/-- The current nonce is taken by a failed write or by none. What was written with success has
moved the counter past its nonce. -/
theorem Behind.fresh_iff (h : Behind st) (data : Bytes) :
    (∀ x ∈ st.made, x.plaintext ≠ data →
        ¬ (x.key = st.ch.keyBytes ∧ x.nonce = dataNonce st.ch.sendSeq st.ch.epoch)) ↔
      ∀ p, st.failed = some p → data = p := by
  constructor
  · intro hfresh p hp
    by_contra hne
    exact hfresh _ (h.failed p hp) (fun heq => hne heq.symm) ⟨rfl, rfl⟩
  · rintro hretry x hx hne ⟨-, hnonce⟩
    obtain ⟨seq, epoch, hx', hold⟩ := h.made x hx
    obtain ⟨hseq, hepoch⟩ := dataNonce_inj (hx'.symm.trans hnonce)
    rw [hseq, hepoch] at hold
    rcases hold with hlt | ⟨-, hlt | ⟨-, hfailed⟩⟩
    · exact Nat.lt_irrefl _ hlt
    · exact Nat.lt_irrefl _ hlt
    · exact hne (hretry _ hfailed).symm

/-- A step keeps the nonces apart exactly when it is no different plaintext after a failed write.
Both directions of the theorem are this one, carried along the run. -/
theorem Behind.noReuse_step_iff (h : Behind st) (hno : NoReuse st) (op : ChannelOp) :
    NoReuse (OneEnd.step C st op) ↔ Retries st op := by
  cases op with
  | write w data =>
    by_cases hlen : data.length ≤ gcmPMax
    · simp only [NoReuse, step_write C st w hlen, pairwise_snoc, Retries, hlen, true_imp_iff,
        h.fresh_iff data]
      exact and_iff_right hno
    · rw [step_write_refused C st w hlen]
      exact iff_of_true hno fun hle => absurd hle hlen
  | sendKeyRotate w gcmNonce nonce => exact iff_of_true hno trivial
  | rotateKey nonce => exact iff_of_true hno trivial
  | read stream => exact iff_of_true hno trivial

theorem noReuse_of_step {op : ChannelOp} (h : NoReuse (OneEnd.step C st op)) : NoReuse st := by
  cases op with
  | write w data =>
    by_cases hlen : data.length ≤ gcmPMax
    · rw [step_write C st w hlen] at h
      exact ((pairwise_snoc _ _).mp h).1
    · rw [step_write_refused C st w hlen] at h
      exact h
  | sendKeyRotate w gcmNonce nonce => exact h
  | rotateKey nonce => exact h
  | read stream => exact h

theorem run_snoc (C : CipherSuite) (ch : EncryptedChannel) (ops : List ChannelOp)
    (op : ChannelOp) : run C ch (ops ++ [op]) = step C (run C ch ops) op := by
  simp [run]

theorem behind_run {ch : EncryptedChannel} {ops : List ChannelOp}
    (hwrap : Meets (step C) Unwrapped (start ch) ops)
    (hretry : Meets (step C) Retries (start ch) ops) : Behind (run C ch ops) := by
  induction ops using List.reverseRecOn with
  | nil => exact behind_start ch
  | append_singleton ops op ih =>
    obtain ⟨hwrap, hop⟩ := meets_snoc.mp hwrap
    obtain ⟨hretry, hop'⟩ := meets_snoc.mp hretry
    rw [run_snoc]
    exact (ih hwrap hretry).step hop hop'

/-- **A channel whose counters do not run out uses no nonce for two plaintexts exactly when every
write that follows a failed one under the same key repeats its plaintext.** Whatever is read,
rotated or announced in between does not matter, except that a rotation makes the failed nonce one
of another key. -/
theorem retried_nonces_iff (C : CipherSuite) (ch : EncryptedChannel) (ops : List ChannelOp)
    (hwrap : Meets (step C) Unwrapped (start ch) ops) :
    NoReuse (run C ch ops) ↔ Meets (step C) Retries (start ch) ops := by
  induction ops using List.reverseRecOn with
  | nil => exact iff_of_true .nil trivial
  | append_singleton ops op ih =>
    obtain ⟨hwrap, hop⟩ := meets_snoc.mp hwrap
    rw [run_snoc, meets_snoc]
    constructor
    · intro hno
      have hbefore := noReuse_of_step hno
      have hretry := (ih hwrap).mp hbefore
      exact ⟨hretry, ((behind_run hwrap hretry).noReuse_step_iff hbefore op).mp hno⟩
    · rintro ⟨hretry, hop'⟩
      exact ((behind_run hwrap hretry).noReuse_step_iff ((ih hwrap).mpr hretry) op).mpr hop'

/-- A failed write is repeated, the key is rotated, and something else is written. -/
theorem retried_nonces_apart : NoReuse (run Sample.suite Sample.channel
    [.write (.failsAfter 10) [1, 2, 3], .read [0x01], .write .accepts [1, 2, 3],
      .write (.failsAfter 0) [4], .rotateKey (Sample.rot 1), .write .accepts [5]]) := by
  apply (retried_nonces_iff _ _ _ _).mpr
  · decide +kernel
  · decide +kernel

/-- **A failed write, then another plaintext.** Thirty bytes of the first frame have left. -/
theorem failed_write_nonce_reused :
    Meets (step Sample.suite) Unwrapped (start Sample.channel)
      [.write (.failsAfter 30) [1, 2, 3, 4, 5, 6], .write .accepts [7]] ∧
    ¬ NoReuse (run Sample.suite Sample.channel
      [.write (.failsAfter 30) [1, 2, 3, 4, 5, 6], .write .accepts [7]]) := by
  decide +kernel

end OneEnd

end LatticeShield
