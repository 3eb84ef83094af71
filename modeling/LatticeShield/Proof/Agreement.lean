import LatticeShield.Crypto.Sample
import LatticeShield.Proof.JsFrames

/-!
# Rust and JavaScript across key rotations

The bridge rotates, the browser follows, and then one of them talks to the other. The two sides
meet in `InStep`: after `k` rotations they hold the same key (the browser holds it twice) and have
the same number of rotations behind them, each in its own arithmetic.

From there the directions differ. Rust reads the nonce off the wire, so it opens every JavaScript
frame (`jsToRust_agrees`). JavaScript recomputes the nonce and expects an epoch of zero in it, while
Rust counts the epoch up with each rotation: after the first rotation nothing the bridge writes is
accepted, until the 32-bit epoch comes round to zero again (`rustToJs_iff`).
-/

set_option autoImplicit false

namespace LatticeShield.Js

open Lib EncryptedChannel

/-! ## Rotating both sides -/

/-- The bridge writes KEY_ROTATE and rotates; the worker handles the frame. Neither is in the
middle of anything else, so all that can differ is what they hold. -/
def rotateStep (C : CipherSuite) (st : EncryptedChannel × Worker) (r : Nonce × RotationNonce) :
    Option (EncryptedChannel × Worker) :=
  let sent := sendKeyRotate C st.1 .accepts r.1 r.2
  match sent.result, st.2.handle C (.keyRotate sent.bytes) with
  | .ok _, (w, .keyRotated) => some (rotateKey C sent.channel r.2, w)
  | _, _ => none

def rotateBoth (C : CipherSuite) (st : EncryptedChannel × Worker) :
    List (Nonce × RotationNonce) → Option (EncryptedChannel × Worker)
  | [] => some st
  | r :: rs => (rotateStep C st r).bind fun st' => rotateBoth C st' rs

def connect (key : Key) (size : Nat) : Option (EncryptedChannel × Worker) :=
  (importSessionKey key.toList).toOption.map fun k => (.new key size, .initialised k)

/-- The two sides after `k` rotations, before either has sent anything under the new key: the key
is the same, the bridge's epoch is `k` modulo `2 ^ 32`, and the worker has no epoch at all. -/
structure InStep (k size : Nat) (ch : EncryptedChannel) (w : Worker) : Prop where
  key : w.sessionKey = some ⟨ch.keyBytes, ch.keyBytes⟩
  jsCounter : w.keyRotateRecvSeq = k
  rustCounter : ch.keyRotateSendSeq = UInt64.ofNat k
  epoch : ch.epoch = UInt32.ofNat k
  sendSeq : ch.sendSeq = 0
  recvInitialized : ch.recvInitialized = false
  maxFrameSize : ch.maxFrameSize = size
  jsSendSeq : w.sendSeq = 0
  jsRecvInitialized : w.recvInitialized = false

theorem connect_inStep (key : Key) (size : Nat) :
    ∃ ch w, connect key size = some (ch, w) ∧ InStep 0 size ch w := by
  have hk : importSessionKey key.toList = .ok ⟨key, key⟩ := by
    rw [importSessionKey, dif_pos key.toList_length]
    rfl
  refine ⟨.new key size, .initialised ⟨key, key⟩, by rw [connect, hk]; rfl, ?_⟩
  constructor <;> rfl

theorem InStep.rotate {k size : Nat} {ch : EncryptedChannel} {w : Worker} (h : InStep k size ch w)
    (C : CipherSuite) (r : Nonce × RotationNonce) (hk : k < 2 ^ 64) :
    ∃ ch' w', rotateStep C (ch, w) r = some (ch', w') ∧ InStep (k + 1) size ch' w' := by
  obtain ⟨ct, tag, hct, hopen, hsend⟩ := sendKeyRotate_accepts C ch r.1 r.2
  have hcounter : w.keyRotateRecvSeq = ch.keyRotateSendSeq.toNat := by
    rw [h.jsCounter, h.rustCounter, UInt64.toNat_ofNat_of_lt' hk]
  have hproc := processKeyRotate_eq C ⟨ch.keyBytes, ch.keyBytes⟩ r.1 tag hct
    ch.keyRotateSendSeq r.2 hopen
  refine ⟨rotateKey C { ch with keyRotateSendSeq := ch.keyRotateSendSeq + 1 } r.2,
    { w with
      sessionKey := some ⟨C.hkdf r.2 ch.keyBytes rotationHkdfInfo,
        C.hkdf r.2 ch.keyBytes rotationHkdfInfo⟩
      sendSeq := 0
      recvSeq := 0
      recvInitialized := false
      keyRotateRecvSeq := w.keyRotateRecvSeq + 1 }, ?_, ?_⟩
  · simp only [rotateStep, hsend, Worker.handle, Worker.start, Worker.handleKeyRotate, h.key,
      Worker.resume, hcounter, hproc]
  · refine ⟨rfl, ?_, ?_, ?_, rfl, rfl, h.maxFrameSize, rfl, rfl⟩
    · show w.keyRotateRecvSeq + 1 = k + 1
      rw [h.jsCounter]
    · show ch.keyRotateSendSeq + 1 = UInt64.ofNat (k + 1)
      rw [h.rustCounter, UInt64.ofNat_add]
      rfl
    · show ch.epoch + 1 = UInt32.ofNat (k + 1)
      rw [h.epoch, UInt32.ofNat_add]
      rfl

/-- The `BigInt` counter leaves the `u64` range and the rotation throws, where the bridge's
counter would wrap around. -/
theorem InStep.rotate_none {k size : Nat} {ch : EncryptedChannel} {w : Worker}
    (h : InStep k size ch w) (C : CipherSuite) (r : Nonce × RotationNonce) (hk : 2 ^ 64 ≤ k) :
    rotateStep C (ch, w) r = none := by
  obtain ⟨ct, tag, hct, -, hsend⟩ := sendKeyRotate_accepts C ch r.1 r.2
  have hgt : w.keyRotateRecvSeq > maxU64 := by
    rw [h.jsCounter, maxU64]
    omega
  have hproc := processKeyRotate_of_gt C ⟨ch.keyBytes, ch.keyBytes⟩ r.1 tag hct hgt
  simp only [rotateStep, hsend, Worker.handle, Worker.start, Worker.handleKeyRotate, h.key,
    Worker.resume, hproc]

theorem InStep.rotateAll {k size : Nat} {ch : EncryptedChannel} {w : Worker}
    (h : InStep k size ch w) (C : CipherSuite) (rs : List (Nonce × RotationNonce))
    (hk : k + rs.length ≤ 2 ^ 64) :
    ∃ ch' w', rotateBoth C (ch, w) rs = some (ch', w') ∧ InStep (k + rs.length) size ch' w' := by
  induction rs generalizing k ch w with
  | nil => exact ⟨ch, w, rfl, h⟩
  | cons r rs ih =>
    rw [List.length_cons] at hk ⊢
    obtain ⟨ch₁, w₁, hstep, h₁⟩ := h.rotate C r (by omega)
    obtain ⟨ch', w', hrest, h'⟩ := ih h₁ (by omega)
    refine ⟨ch', w', ?_, by rwa [show k + (rs.length + 1) = k + 1 + rs.length by omega]⟩
    rw [rotateBoth, hstep]
    exact hrest

theorem InStep.rotateAll_none {k size : Nat} {ch : EncryptedChannel} {w : Worker}
    (h : InStep k size ch w) (C : CipherSuite) (rs : List (Nonce × RotationNonce))
    (hk : k ≤ 2 ^ 64) (hlen : 2 ^ 64 < k + rs.length) : rotateBoth C (ch, w) rs = none := by
  induction rs generalizing k ch w with
  | nil => simp at hlen; omega
  | cons r rs ih =>
    rw [List.length_cons] at hlen
    rw [rotateBoth]
    by_cases hlt : k < 2 ^ 64
    · obtain ⟨ch₁, w₁, hstep, h₁⟩ := h.rotate C r hlt
      rw [hstep]
      exact ih h₁ (by omega) (by omega)
    · rw [h.rotate_none C r (by omega)]
      rfl

/-! ## Rust to JavaScript -/

/-- `write_frame` on each plaintext in turn; `none` if one of them fails. -/
def writeAll (C : CipherSuite) (ch : EncryptedChannel) : List Bytes → Option (List Bytes)
  | [] => some []
  | p :: ps =>
    match writeFrame C ch .accepts p with
    | ⟨.ok _, ch', frame⟩ => (writeAll C ch' ps).map (frame :: ·)
    | ⟨.error _, _, _⟩ => none

/-- `DECRYPT` on each frame in turn; `none` if one of them is refused. -/
def decryptAll (C : CipherSuite) (w : Worker) : List Bytes → Option (List Bytes)
  | [] => some []
  | frame :: frames =>
    match w.handle C (.decrypt "" frame) with
    | (w', .decrypted _ p) => (decryptAll C w' frames).map (p :: ·)
    | _ => none

/-- The whole way: connect, rotate, write in Rust, decrypt in JavaScript. -/
def rustToJs (C : CipherSuite) (key : Key) (size : Nat) (rs : List (Nonce × RotationNonce))
    (ps : List Bytes) : Option (List Bytes) := do
  let st ← connect key size
  let (ch, w) ← rotateBoth C st rs
  let frames ← writeAll C ch ps
  decryptAll C w frames

/-- The two sides after `i` frames from the bridge under the current key. The worker knows the
last seq it has accepted, and the bridge's next one is `i` modulo `2 ^ 64`. -/
structure Fed (k i : Nat) (ch : EncryptedChannel) (w : Worker) : Prop where
  key : w.sessionKey = some ⟨ch.keyBytes, ch.keyBytes⟩
  epoch : ch.epoch = UInt32.ofNat k
  sendSeq : ch.sendSeq = UInt64.ofNat i
  recvInitialized : w.recvInitialized = true ↔ 0 < i
  recvSeq : 0 < i → w.recvSeq + 1 = i
  le : i ≤ 2 ^ 64

theorem dataNonce_eq_epoch_zero (x : UInt64) (e : UInt32) :
    dataNonce x e = dataNonce x 0 ↔ e = 0 := by
  constructor
  · intro h
    have hlist : (dataNonce x e).toList = (dataNonce x 0).toList := congrArg _ h
    simp only [dataNonce, List.Vector.toList_mk] at hlist
    exact u32ToBe_inj.mp (ByteArr.toList_inj.mp (ByteArr.append_inj hlist).2)
  · rintro rfl
    rfl

theorem uint32_ofNat_eq_zero_iff (k : Nat) : UInt32.ofNat k = 0 ↔ k % 2 ^ 32 = 0 := by
  rw [← UInt32.toNat_inj, UInt32.toNat_ofNat']
  rfl

theorem handle_decrypt_dataFrame (C : CipherSuite) {w : Worker} {key : SessionKey}
    (hkey : w.sessionKey = some key) (id : String) (len : UInt32) (x : UInt64) (nonce : Nonce)
    (ct : Bytes) (tag : Tag) (w' : Worker) (p : Bytes) :
    w.handle C (.decrypt id (dataFrame len (u64ToBe x) nonce ct tag)) = (w', .decrypted id p) ↔
      ∃ q, decodeFrame C key (dataFrame len (u64ToBe x) nonce ct tag) w.recvSeq w.recvInitialized =
        .ok (p, q) ∧ w' = { w with recvSeq := q, recvInitialized := true } := by
  have hhead : ¬ ((dataFrame len (u64ToBe x) nonce ct tag).length > 0 ∧
      (dataFrame len (u64ToBe x) nonce ct tag).headD 0 = frameKeyRotate) := by
    rintro ⟨-, h⟩
    exact absurd h (by show ¬ frameData = frameKeyRotate; decide)
  simp only [Worker.handle, Worker.start, Worker.handleDecrypt, hkey, if_neg hhead, Worker.resume]
  cases decodeFrame C key (dataFrame len (u64ToBe x) nonce ct tag) w.recvSeq w.recvInitialized with
  | error e => simp
  | ok r =>
    obtain ⟨p', q⟩ := r
    simp [eq_comm, and_comm]

/-- The counter is not one the browser has seen, until it wraps. The browser's own counter is
unbounded, so only the bridge's side can wrap. -/
theorem Fed.not_replay_iff {k i : Nat} {ch : EncryptedChannel} {w : Worker} (h : Fed k i ch w) :
    ¬ (w.recvInitialized = true ∧ ch.sendSeq.toNat ≤ w.recvSeq) ↔ i < 2 ^ 64 := by
  have hle := h.le
  rw [h.sendSeq, UInt64.toNat_ofNat', h.recvInitialized]
  by_cases hi : i < 2 ^ 64
  · rw [Nat.mod_eq_of_lt hi]
    refine iff_of_true ?_ hi
    rintro ⟨hpos, hseq⟩
    have := h.recvSeq hpos
    omega
  · obtain rfl : i = 2 ^ 64 := by omega
    refine iff_of_false (not_not.mpr ⟨by decide, ?_⟩) hi
    rw [Nat.mod_self]
    exact Nat.zero_le _

/-- **One frame gets across** exactly in an epoch that is zero on the wire, within the 32-bit
length, and before the seq wraps. The epoch decides because the worker rebuilds the nonce from the
seq alone, with zeros where the bridge has put its epoch. -/
theorem Fed.frame_iff {k i : Nat} {ch : EncryptedChannel} {w : Worker} (h : Fed k i ch w)
    {C : CipherSuite} {p ct : Bytes} {tag : Tag} (hct : ct.length = p.length)
    (hopen : C.aead.decrypt ch.keyBytes (dataNonce ch.sendSeq ch.epoch)
      (u64ToBe ch.sendSeq).toList ct tag = some p) (w' : Worker) :
    w.handle C (.decrypt "" (dataFrame (UInt32.ofNat (ct.length + 16)) (u64ToBe ch.sendSeq)
        (dataNonce ch.sendSeq ch.epoch) ct tag)) = (w', .decrypted "" p) ↔
      (k % 2 ^ 32 = 0 ∧ p.length + 16 < 2 ^ 32 ∧ i < 2 ^ 64) ∧
        w' = { w with recvSeq := ch.sendSeq.toNat, recvInitialized := true } := by
  have hlen : (UInt32.ofNat (ct.length + 16)).toNat = (p.length + 16) % 2 ^ 32 := by
    rw [UInt32.toNat_ofNat', hct]
  have hle : (UInt32.ofNat (ct.length + 16)).toNat ≤ ct.length + 16 := by
    rw [hlen, hct]
    exact Nat.mod_le _ _
  -- cut to its length field, the body opens to `p` only if nothing was cut off
  have hbody : subtleDecrypt C ch.keyBytes (dataNonce ch.sendSeq ch.epoch)
      (u64ToBe ch.sendSeq).toList
      ((ct ++ tag.toList).take (UInt32.ofNat (ct.length + 16)).toNat) = .ok p ↔
      p.length + 16 < 2 ^ 32 := by
    constructor
    · intro hdec
      have := length_of_subtleDecrypt hdec
      rw [List.length_take, List.length_append, List.Vector.toList_length, hlen] at this
      have := Nat.mod_lt (p.length + 16) (show 0 < 2 ^ 32 by decide)
      omega
    · intro hlt
      rw [hlen, Nat.mod_eq_of_lt hlt, List.take_of_length_le (by simp [hct]),
        subtleDecrypt_append, hopen]
  rw [handle_decrypt_dataFrame C h.key]
  constructor
  · rintro ⟨q, hdec, rfl⟩
    obtain ⟨rfl, hfresh, hnonce, hdec⟩ :=
      (decodeFrame_dataFrame_iff C _ _ _ _ _ _ hle _ _ _ _).mp hdec
    refine ⟨⟨?_, hbody.mp hdec, h.not_replay_iff.mp hfresh⟩, rfl⟩
    rw [← uint32_ofNat_eq_zero_iff, ← h.epoch]
    exact (dataNonce_eq_epoch_zero _ _).mp hnonce
  · rintro ⟨⟨hk, hlt, hi⟩, rfl⟩
    refine ⟨_, (decodeFrame_dataFrame_iff C _ _ _ _ _ _ hle _ _ _ _).mpr
      ⟨rfl, h.not_replay_iff.mpr hi, ?_, hbody.mpr hlt⟩, rfl⟩
    rw [dataNonce_eq_epoch_zero, h.epoch, uint32_ofNat_eq_zero_iff]
    exact hk

theorem Fed.next {k i : Nat} {ch : EncryptedChannel} {w : Worker} (h : Fed k i ch w)
    (hi : i < 2 ^ 64) :
    Fed k (i + 1) { ch with sendSeq := ch.sendSeq + 1 }
      { w with recvSeq := ch.sendSeq.toNat, recvInitialized := true } where
  key := h.key
  epoch := h.epoch
  sendSeq := by
    show ch.sendSeq + 1 = UInt64.ofNat (i + 1)
    rw [h.sendSeq, UInt64.ofNat_add]
    rfl
  recvInitialized := iff_of_true rfl (Nat.succ_pos i)
  recvSeq _ := by
    show ch.sendSeq.toNat + 1 = i + 1
    rw [h.sendSeq, UInt64.toNat_ofNat_of_lt' hi]
  le := hi

theorem handle_decrypt_id {C : CipherSuite} {w w' : Worker} {id id' : String} {buf p : Bytes}
    (h : w.handle C (.decrypt id buf) = (w', .decrypted id' p)) : id' = id := by
  unfold Worker.handle Worker.start Worker.handleDecrypt at h
  cases hk : w.sessionKey with
  | none => simp [hk] at h
  | some key =>
    rw [hk] at h
    by_cases hrot : buf.length > 0 ∧ buf.headD 0 = frameKeyRotate
    · simp only [if_pos hrot] at h
      exact absurd (congrArg Prod.snd h) (by simp)
    · simp only [if_neg hrot, Worker.resume] at h
      split at h <;> simp at h
      exact h.2.1.symm

theorem decryptAll_cons {C : CipherSuite} {w : Worker} {frame p : Bytes} {frames ps : List Bytes} :
    decryptAll C w (frame :: frames) = some (p :: ps) ↔
      ∃ w', w.handle C (.decrypt "" frame) = (w', .decrypted "" p) ∧
        decryptAll C w' frames = some ps := by
  rw [decryptAll]
  constructor
  · intro h
    split at h
    · rename_i w' id q hh
      obtain ⟨qs, hqs, heq⟩ := Option.map_eq_some_iff.mp h
      obtain ⟨rfl, rfl⟩ := List.cons.inj heq
      obtain rfl := handle_decrypt_id hh
      exact ⟨w', hh, hqs⟩
    · exact absurd h (by simp)
  · rintro ⟨w', hh, hrest⟩
    simp [hh, hrest]

theorem Fed.writeAll_decryptAll {k : Nat} (C : CipherSuite) (ps : List Bytes) {i : Nat}
    {ch : EncryptedChannel} {w : Worker} (h : Fed k i ch w) :
    (∃ frames, writeAll C ch ps = some frames ∧ decryptAll C w frames = some ps) ↔
      ps = [] ∨
        k % 2 ^ 32 = 0 ∧ (∀ p ∈ ps, p.length + 16 < 2 ^ 32) ∧ i + ps.length ≤ 2 ^ 64 := by
  induction ps generalizing i ch w with
  | nil => simp [writeAll, decryptAll]
  | cons p ps ih =>
    simp only [List.cons_ne_nil, false_or, List.forall_mem_cons, List.length_cons]
    by_cases hp : p.length ≤ gcmPMax
    · obtain ⟨ct, tag, hct, hopen, hwrite⟩ := writeFrame_accepts C ch hp
      have hframe := h.frame_iff hct hopen
      rw [writeAll, hwrite]
      dsimp only
      constructor
      · rintro ⟨frames, hframes, hdec⟩
        obtain ⟨rest, hrest, rfl⟩ := Option.map_eq_some_iff.mp hframes
        obtain ⟨w', hh, hdec⟩ := decryptAll_cons.mp hdec
        obtain ⟨⟨hk, hlt, hi⟩, rfl⟩ := (hframe w').mp hh
        rcases (ih (h.next hi)).mp ⟨rest, hrest, hdec⟩ with rfl | ⟨-, hall, hcount⟩
        · exact ⟨hk, ⟨hlt, by simp⟩, by simp; omega⟩
        · exact ⟨hk, ⟨hlt, hall⟩, by omega⟩
      · rintro ⟨hk, ⟨hlt, hall⟩, hcount⟩
        have hi : i < 2 ^ 64 := by omega
        obtain ⟨rest, hrest, hdec⟩ :=
          (ih (h.next hi)).mpr (Or.inr ⟨hk, hall, by omega⟩)
        refine ⟨_, by rw [hrest]; rfl, decryptAll_cons.mpr ⟨_, ?_, hdec⟩⟩
        exact (hframe _).mpr ⟨⟨hk, hlt, hi⟩, rfl⟩
    · -- over `P_MAX` nothing is written, and the length does not fit either
      have hfail : writeFrame C ch .accepts p = ⟨.error .aeadFailure, ch, []⟩ := by
        simp only [writeFrame, C.aead.encrypt_eq_none _ _ _ (by rw [C.pMax]; exact hp)]
      rw [writeAll, hfail]
      refine iff_of_false (by simp) ?_
      rintro ⟨-, ⟨hlt, -⟩, -⟩
      unfold gcmPMax at hp
      omega

/-- **What the bridge writes after `k` rotations reaches the browser exactly when its epoch field
is zero again**, or when there is nothing to reach it. After any rotation short of the `2 ^ 32`-th
the browser cannot open a single DATA frame, for every key and every plaintext: the iff needs no
hypothesis on either. -/
theorem rustToJs_iff (C : CipherSuite) (key : Key) (size : Nat)
    (rs : List (Nonce × RotationNonce)) (ps : List Bytes) :
    rustToJs C key size rs ps = some ps ↔
      rs.length ≤ 2 ^ 64 ∧
        (ps = [] ∨ rs.length % 2 ^ 32 = 0 ∧ (∀ p ∈ ps, p.length + 16 < 2 ^ 32) ∧
          ps.length ≤ 2 ^ 64) := by
  obtain ⟨ch₀, w₀, hconnect, h₀⟩ := connect_inStep key size
  simp only [rustToJs, hconnect, Option.bind_eq_bind, Option.bind_some]
  by_cases hlen : rs.length ≤ 2 ^ 64
  · obtain ⟨ch, w, hrot, h⟩ := h₀.rotateAll C rs (by omega)
    rw [Nat.zero_add] at h
    have hfed : Fed rs.length 0 ch w :=
      ⟨h.key, h.epoch, h.sendSeq, by simp [h.jsRecvInitialized], by simp, by omega⟩
    rw [hrot]
    simp only [Option.bind_some, Option.bind_eq_some_iff, hlen, true_and]
    rw [hfed.writeAll_decryptAll C ps, Nat.zero_add]
  · rw [h₀.rotateAll_none C rs (by omega) (by omega)]
    exact iff_of_false (by simp) fun h => hlen h.1

/-- One rotation, one plaintext: the bridge's frame is refused. The key is the right one; it is
the epoch in the nonce that the browser leaves out. -/
theorem rustToJs_after_one_rotation :
    rustToJs Sample.suite Sample.key Sample.frameSize [(Sample.gcm 1, Sample.rot 1)] [[1, 2, 3]] ≠
      some [[1, 2, 3]] := by
  decide +kernel

/-! ## JavaScript to Rust -/

/-- `ENCRYPT` on each plaintext, one at a time; `none` if one of them is refused. -/
def encryptAll (C : CipherSuite) (w : Worker) : List Bytes → Option (List Bytes)
  | [] => some []
  | p :: ps =>
    match w.handle C (.encrypt "" p) with
    | (w', .encrypted _ frame) => (encryptAll C w' ps).map (frame :: ·)
    | _ => none

/-- `n` calls of `read_frame` on one stream: what they return and what is left unread. `none` if
one of them fails or is still waiting. -/
def readFrames (opener : Opener Key Nonce 16) (ch : EncryptedChannel) :
    Nat → Bytes → Option (List FrameResult × Bytes)
  | 0, bs => some ([], bs)
  | n + 1, bs =>
    match (readFrame opener ch).run bs with
    | some ((.ok r, ch'), rest) => (readFrames opener ch' n rest).map fun x => (r :: x.1, x.2)
    | _ => none

/-- The whole way: connect, rotate, encrypt in JavaScript, read in Rust. -/
def jsToRust (C : CipherSuite) (key : Key) (size : Nat) (rs : List (Nonce × RotationNonce))
    (ps : List Bytes) : Option (List FrameResult × Bytes) := do
  let st ← connect key size
  let (ch, w) ← rotateBoth C st rs
  let frames ← encryptAll C w ps
  readFrames C.aead.decrypt ch ps.length frames.flatten

/-- The two sides after `i` frames from the browser under the current key. The reader may have
read none of them, and then it takes any seq. -/
structure Filled (i : Nat) (ch : EncryptedChannel) (w : Worker) : Prop where
  key : w.sessionKey = some ⟨ch.keyBytes, ch.keyBytes⟩
  sendSeq : w.sendSeq = i
  recvInitialized : ch.recvInitialized = true → 0 < i
  recvSeq : 0 < i → ch.recvSeq.toNat < i
  fits : ch.maxFrameSize + 16 < 2 ^ 32

/-- One plaintext gets across, and leaves the stream where the next frame begins. Its length is
bounded by the limit the reader was made with. -/
theorem Filled.frame {i : Nat} {ch : EncryptedChannel} {w : Worker} (h : Filled i ch w)
    (C : CipherSuite) {p : Bytes} (hp : p.length ≤ ch.maxFrameSize) (hi : i < 2 ^ 64) :
    ∃ frame, w.handle C (.encrypt "" p) = ({ w with sendSeq := w.sendSeq + 1 },
        .encrypted "" frame) ∧
      (∀ rest, (readFrame C.aead.decrypt ch).run (frame ++ rest) =
        some ((.ok (.data p), ch.acceptData (UInt64.ofNat i)), rest)) ∧
      Filled (i + 1) (ch.acceptData (UInt64.ofNat i)) { w with sendSeq := w.sendSeq + 1 } := by
  have hseq : w.sendSeq = (UInt64.ofNat i).toNat := by
    rw [h.sendSeq, UInt64.toNat_ofNat_of_lt' hi]
  have hfits := h.fits
  obtain ⟨ct, tag, henc⟩ := C.aead.exists_encrypt ch.keyBytes (dataNonce (UInt64.ofNat i) 0)
    (u64ToBe (UInt64.ofNat i)).toList (p := p) (by rw [C.pMax]; unfold gcmPMax; omega)
  have hct := C.aead.length_ct _ _ _ _ _ _ henc
  refine ⟨dataFrame (UInt32.ofNat (ct.length + 16)) (u64ToBe (UInt64.ofNat i))
    (dataNonce (UInt64.ofNat i) 0) ct tag, ?_, ?_, ?_⟩
  · simp only [Worker.handle, Worker.start, Worker.handleEncrypt, h.key, Worker.resume, hseq,
      encodeFrame_toNat, henc]
  · intro rest
    refine run_readDataFrame rest ⟨?_, by omega, ?_,
      C.aead.decrypt_encrypt _ _ _ _ _ _ henc⟩
    · rw [UInt32.toNat_ofNat', Nat.mod_eq_of_lt (by omega)]
    · intro hinit
      have hlt := h.recvSeq (h.recvInitialized hinit)
      rw [UInt64.lt_iff_toNat_lt, ← hseq, h.sendSeq]
      exact hlt
  · refine ⟨h.key, by rw [h.sendSeq], fun _ => Nat.succ_pos i, ?_, h.fits⟩
    intro _
    show (UInt64.ofNat i).toNat < i + 1
    rw [← hseq, h.sendSeq]
    exact Nat.lt_succ_self i

theorem Filled.refused {i : Nat} {ch : EncryptedChannel} {w : Worker} (h : Filled i ch w)
    (C : CipherSuite) (p : Bytes) (hi : 2 ^ 64 ≤ i) :
    w.handle C (.encrypt "" p) =
      (w, .cryptoErr "" (.rangeError s!"seq out of u64 range: {i}")) := by
  have hgt : i > maxU64 := by
    unfold maxU64
    omega
  simp only [Worker.handle, Worker.start, Worker.handleEncrypt, h.key, Worker.resume, h.sendSeq,
    encodeFrame_of_gt C _ p hgt]

theorem Filled.encryptAll_readFrames (C : CipherSuite) (ps : List Bytes) {i : Nat}
    {ch : EncryptedChannel} {w : Worker} (h : Filled i ch w)
    (hps : ∀ p ∈ ps, p.length ≤ ch.maxFrameSize) (hi : i + ps.length ≤ 2 ^ 64) :
    ∃ frames, encryptAll C w ps = some frames ∧ ∀ rest,
      readFrames C.aead.decrypt ch ps.length (frames.flatten ++ rest) =
        some (ps.map .data, rest) := by
  induction ps generalizing i ch w with
  | nil => exact ⟨[], rfl, fun rest => rfl⟩
  | cons p ps ih =>
    rw [List.length_cons] at hi
    obtain ⟨hp, hps⟩ := List.forall_mem_cons.mp hps
    obtain ⟨frame, hhandle, hread, hnext⟩ := h.frame C hp (by omega)
    obtain ⟨frames, henc, hdec⟩ := ih hnext hps (by omega)
    refine ⟨frame :: frames, ?_, ?_⟩
    · simp only [encryptAll, hhandle, henc, Option.map_some]
    · intro rest
      simp only [List.flatten_cons, List.append_assoc, List.length_cons, readFrames, hread, hdec,
        Option.map_some, List.map_cons]

theorem Filled.encryptAll_none (C : CipherSuite) (ps : List Bytes) {i : Nat}
    {ch : EncryptedChannel} {w : Worker} (h : Filled i ch w)
    (hps : ∀ p ∈ ps, p.length ≤ ch.maxFrameSize) (hle : i ≤ 2 ^ 64)
    (hi : 2 ^ 64 < i + ps.length) : encryptAll C w ps = none := by
  induction ps generalizing i ch w with
  | nil => simp at hi; omega
  | cons p ps ih =>
    rw [List.length_cons] at hi
    obtain ⟨hp, hps⟩ := List.forall_mem_cons.mp hps
    by_cases hlt : i < 2 ^ 64
    · obtain ⟨frame, hhandle, -, hnext⟩ := h.frame C hp hlt
      simp only [encryptAll, hhandle, ih hnext hps (by omega) (by omega), Option.map_none]
    · simp only [encryptAll, h.refused C p (by omega)]

/-- Key and counter agree until the Rust counter wraps: at `2 ^ 64` it is zero and the `BigInt` is
not. -/
theorem rotated_agree_iff (C : CipherSuite) (key : Key) (size : Nat)
    (rs : List (Nonce × RotationNonce)) :
    (∃ ch w, (connect key size).bind (rotateBoth C · rs) = some (ch, w) ∧
        w.sessionKey = some ⟨ch.keyBytes, ch.keyBytes⟩ ∧
        w.keyRotateRecvSeq = ch.keyRotateSendSeq.toNat) ↔ rs.length < 2 ^ 64 := by
  obtain ⟨ch₀, w₀, hconnect, h₀⟩ := connect_inStep key size
  rw [hconnect, Option.bind_some]
  by_cases hlen : rs.length ≤ 2 ^ 64
  · obtain ⟨ch, w, hrot, h⟩ := h₀.rotateAll C rs (by omega)
    rw [Nat.zero_add] at h
    rw [hrot]
    constructor
    · rintro ⟨ch', w', heq, -, hcounter⟩
      obtain ⟨rfl, rfl⟩ := Prod.mk.inj (Option.some.inj heq)
      rw [h.jsCounter, h.rustCounter, UInt64.toNat_ofNat'] at hcounter
      rw [hcounter]
      exact Nat.mod_lt _ (by decide)
    · intro hlt
      refine ⟨ch, w, rfl, h.key, ?_⟩
      rw [h.jsCounter, h.rustCounter, UInt64.toNat_ofNat_of_lt' hlt]
  · rw [h₀.rotateAll_none C rs (by omega) (by omega)]
    exact iff_of_false (by simp) (by omega)

/-- Everything the browser encrypts is read back, until its seq leaves the `u64` range. The
rotations are counted under the same bound, since they have a counter of their own. -/
theorem jsToRust_eq_iff (C : CipherSuite) (key : Key) {size : Nat} (hsize : size + 16 < 2 ^ 32)
    (rs : List (Nonce × RotationNonce)) {ps : List Bytes} (hps : ∀ p ∈ ps, p.length ≤ size) :
    jsToRust C key size rs ps = some (ps.map .data, []) ↔
      rs.length ≤ 2 ^ 64 ∧ ps.length ≤ 2 ^ 64 := by
  obtain ⟨ch₀, w₀, hconnect, h₀⟩ := connect_inStep key size
  simp only [jsToRust, hconnect, Option.bind_eq_bind, Option.bind_some]
  by_cases hlen : rs.length ≤ 2 ^ 64
  · obtain ⟨ch, w, hrot, h⟩ := h₀.rotateAll C rs (by omega)
    have hfilled : Filled 0 ch w := by
      refine ⟨h.key, h.jsSendSeq, by simp [h.recvInitialized], by simp, ?_⟩
      rw [h.maxFrameSize]
      exact hsize
    have hps' : ∀ p ∈ ps, p.length ≤ ch.maxFrameSize := h.maxFrameSize.symm ▸ hps
    rw [hrot]
    refine ⟨fun hrun => ⟨hlen, ?_⟩, ?_⟩
    · by_contra hgt
      simp [hfilled.encryptAll_none C ps hps' (by omega) (by omega)] at hrun
    · intro hle
      obtain ⟨frames, henc, hread⟩ := hfilled.encryptAll_readFrames C ps hps' (by omega)
      have hall := hread []
      rw [List.append_nil] at hall
      simp only [Option.bind_some, henc, hall]
  · rw [h₀.rotateAll_none C rs (by omega) (by omega)]
    exact iff_of_false (by simp) fun h => hlen h.1

/-- **The browser keeps step with the bridge, and all it sends arrives**, as long as the counters
stay within 64 bits. The length field of a frame has 32 bits for a plaintext and its tag, and that
is all that is asked of the frame size. -/
theorem jsToRust_agrees (C : CipherSuite) (key : Key) (size : Nat) (hsize : size + 16 < 2 ^ 32)
    (rs : List (Nonce × RotationNonce)) (ps : List Bytes) (hps : ∀ p ∈ ps, p.length ≤ size) :
    ((∃ ch w, (connect key size).bind (rotateBoth C · rs) = some (ch, w) ∧
        w.sessionKey = some ⟨ch.keyBytes, ch.keyBytes⟩ ∧
        w.keyRotateRecvSeq = ch.keyRotateSendSeq.toNat) ↔ rs.length < 2 ^ 64) ∧
    (jsToRust C key size rs ps = some (ps.map .data, []) ↔
      rs.length ≤ 2 ^ 64 ∧ ps.length ≤ 2 ^ 64) :=
  ⟨rotated_agree_iff C key size rs, jsToRust_eq_iff C key hsize rs hps⟩

/-- Two rotations and two plaintexts. -/
theorem jsToRust_agrees_after_two :
    jsToRust Sample.suite Sample.key Sample.frameSize
      [(Sample.gcm 1, Sample.rot 1), (Sample.gcm 2, Sample.rot 2)] [[1, 2, 3], []] =
        some ([.data [1, 2, 3], .data []], []) :=
  (jsToRust_agrees Sample.suite Sample.key Sample.frameSize (by decide) _ [[1, 2, 3], []]
    (by decide)).2.mpr (by decide)

/-- `2 ^ 64 + 1` empty plaintexts without a rotation: the last one is refused in the browser, by
the guard of `seqToNonce`, before it wraps as the bridge's counter would. -/
theorem jsToRust_seq_exhausted :
    ValidFrameSize Sample.frameSize ∧
    (∀ p ∈ List.replicate (2 ^ 64 + 1) ([] : Bytes), p.length ≤ Sample.frameSize) ∧
    jsToRust Sample.suite Sample.key Sample.frameSize [] (List.replicate (2 ^ 64 + 1) []) ≠
      some ((List.replicate (2 ^ 64 + 1) []).map .data, []) := by
  have hps : ∀ p ∈ List.replicate (2 ^ 64 + 1) ([] : Bytes), p.length ≤ Sample.frameSize := by
    intro p hp
    rw [List.eq_of_mem_replicate hp]
    exact Nat.zero_le _
  refine ⟨by decide, hps, ?_⟩
  intro h
  have hle := ((jsToRust_eq_iff Sample.suite Sample.key (by decide) [] hps).mp h).2
  rw [List.length_replicate] at hle
  omega

end LatticeShield.Js
