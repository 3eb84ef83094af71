import LatticeShield.Js.Worker
import LatticeShield.Proof.Frames

/-!
# The JavaScript framing against the Rust one

What each function of `framing.ts` does on the bytes the Rust side produces, in the Rust side's
terms. `encodeFrame` is `write_frame` *in epoch 0*; `decodeFrame` opens what `write_frame` wrote
exactly when the nonce is an epoch-0 one; `processKeyRotate` follows `rotate_key`. Everything the
agreement results need of `framing.ts` is stated here, once, and the definitions are not unfolded
again.
-/

set_option autoImplicit false

namespace LatticeShield.Js

open Lib EncryptedChannel

/-! ## Counters in range -/

theorem not_gt_maxU64 (x : UInt64) : ¬ x.toNat > maxU64 := by
  have hx := x.toNat_lt
  unfold maxU64
  omega

theorem seqToNonce_toNat (x : UInt64) : seqToNonce x.toNat = .ok (dataNonce x 0) := by
  rw [seqToNonce, if_neg (not_gt_maxU64 x)]
  rfl

theorem seqToAad_toNat (x : UInt64) : seqToAad x.toNat = .ok (u64ToBe x).toList := by
  rw [seqToAad, if_neg (not_gt_maxU64 x)]
  rfl

theorem encodeFrame_of_gt (C : CipherSuite) (key : SessionKey) {seq : Nat} (p : Bytes)
    (h : seq > maxU64) :
    encodeFrame C key seq p = .error (.rangeError s!"seq out of u64 range: {seq}") := by
  rw [encodeFrame, seqToNonce, if_pos h]
  rfl

/-! ## `crypto.subtle` -/

theorem subtleDecrypt_append (C : CipherSuite) (key : Key) (iv : Nonce) (aad ct : Bytes)
    (tag : Tag) :
    subtleDecrypt C key iv aad (ct ++ tag.toList) =
      match C.aead.decrypt key iv aad ct tag with
      | none => .error .operationError
      | some p => .ok p := by
  have hlen : 16 ≤ (ct ++ tag.toList).length := by
    rw [List.length_append, List.Vector.toList_length]
    omega
  have hsplit := splitTag_append hlen ⟨ct ++ tag.toList, rfl⟩ ct tag (List.Vector.toList_mk _ _)
  unfold subtleDecrypt
  cases hdec : C.aead.decrypt key iv aad ct tag with
  | none => simp only [dif_pos hlen, hsplit, hdec]
  | some p => simp only [dif_pos hlen, hsplit, hdec]

theorem length_of_subtleDecrypt {C : CipherSuite} {key : Key} {iv : Nonce} {aad data p : Bytes}
    (h : subtleDecrypt C key iv aad data = .ok p) : p.length + 16 = data.length := by
  unfold subtleDecrypt at h
  split at h
  · rename_i hlen
    have hsplit := length_splitTag_fst hlen ⟨data, rfl⟩
    generalize splitTag hlen ⟨data, rfl⟩ = ctTag at h hsplit
    obtain ⟨ct, tag⟩ := ctTag
    dsimp only at h hsplit
    cases hd : C.aead.decrypt key iv aad ct tag with
    | none => rw [hd] at h; exact absurd h (by simp)
    | some q =>
      rw [hd, Except.ok.injEq] at h
      rw [← h, C.aead.length_plain _ _ _ _ _ _ hd]
      exact hsplit
  · exact absurd h (by simp)

/-! ## DATA frames -/

/-- **`encodeFrame` is `write_frame` in epoch 0.** The layouts agree byte for byte; what the
browser does not have is the epoch of its peer. -/
theorem encodeFrame_toNat (C : CipherSuite) (key : SessionKey) (x : UInt64) (p : Bytes) :
    encodeFrame C key x.toNat p =
      match C.aead.encrypt key.aes (dataNonce x 0) (u64ToBe x).toList p with
      | none => .error .operationError
      | some (ct, tag) =>
        .ok (dataFrame (UInt32.ofNat (ct.length + 16)) (u64ToBe x) (dataNonce x 0) ct tag) := by
  rw [encodeFrame, seqToNonce_toNat, seqToAad_toNat]
  simp only [bind, Except.bind, subtleEncrypt]
  cases C.aead.encrypt key.aes (dataNonce x 0) (u64ToBe x).toList p with
  | none => rfl
  | some r =>
    obtain ⟨ct, tag⟩ := r
    simp [pure, Except.pure, dataFrame, u64ToBe]

theorem firstMismatch_eq_none (n m : Nonce) : firstMismatch n m = none ↔ n = m := by
  rw [firstMismatch, List.find?_eq_none]
  constructor
  · intro h
    refine ByteArr.toList_inj.mp (List.ext_getElem? ?_)
    intro i
    by_cases hi : i < 12
    · simpa using h i (List.mem_range.mpr hi)
    · rw [List.getElem?_eq_none (by simp; omega), List.getElem?_eq_none (by simp; omega)]
  · rintro rfl i -
    simp

/-- `decodeFrame` slices a Rust DATA frame into the fields it was built from. The two layouts are
written down separately, and this is where they meet. -/
theorem decodeFrame_dataFrame (C : CipherSuite) (key : SessionKey) (len : UInt32) (x : UInt64)
    (nonce : Nonce) (ct : Bytes) (tag : Tag) (recvSeq : Nat) (recvInitialized : Bool) :
    decodeFrame C key (dataFrame len (u64ToBe x) nonce ct tag) recvSeq recvInitialized =
      decodeFields C key (25 + (ct.length + 16)) frameData len.toNat x.toNat nonce
        (ct ++ tag.toList) recvSeq recvInitialized := by
  have hsize := length_dataFrame len (u64ToBe x) nonce ct tag
  have hlen : beNat (((dataFrame len (u64ToBe x) nonce ct tag).drop 1).take 4) = len.toNat := by
    rw [dataFrame_len_field, u32ToBe, List.Vector.toList_mk,
      beNat_beBytes (by have := len.toNat_lt; omega)]
  have hseq : beNat (((dataFrame len (u64ToBe x) nonce ct tag).drop 5).take 8) = x.toNat := by
    rw [dataFrame_seq_field, u64ToBe, List.Vector.toList_mk,
      beNat_beBytes (by have := x.toNat_lt; omega)]
  have hnonce := dataFrame_nonce_field len (u64ToBe x) nonce ct tag
  have hbody := dataFrame_drop_nonce len (u64ToBe x) nonce ct tag
  rw [decodeFrame, dif_neg (by omega)]
  congr 1
  exact ByteArr.toList_inj.mp hnonce

/-- **What `decodeFrame` accepts of a Rust DATA frame**: a new seq, an epoch-0 nonce, and a body
that opens. The length field is the truncated one, so the body is cut to it. -/
theorem decodeFrame_dataFrame_iff (C : CipherSuite) (key : SessionKey) (len : UInt32) (x : UInt64)
    (nonce : Nonce) (ct : Bytes) (tag : Tag) (hlen : len.toNat ≤ ct.length + 16) (recvSeq : Nat)
    (recvInitialized : Bool) (p : Bytes) (q : Nat) :
    decodeFrame C key (dataFrame len (u64ToBe x) nonce ct tag) recvSeq recvInitialized =
        .ok (p, q) ↔
      q = x.toNat ∧ ¬ (recvInitialized = true ∧ x.toNat ≤ recvSeq) ∧ nonce = dataNonce x 0 ∧
        subtleDecrypt C key.aes nonce (u64ToBe x).toList ((ct ++ tag.toList).take len.toNat) =
          .ok p := by
  rw [decodeFrame_dataFrame, decodeFields, seqToNonce_toNat, seqToAad_toNat]
  rw [if_neg (by simp), if_neg (by omega)]
  by_cases hreplay : recvInitialized = true ∧ x.toNat ≤ recvSeq
  · simp [hreplay]
  · rw [if_neg hreplay]
    simp only [bind, Except.bind, pure, Except.pure]
    cases hmis : firstMismatch nonce (dataNonce x 0) with
    | some i =>
      have hne : nonce ≠ dataNonce x 0 := fun h => by
        rw [(firstMismatch_eq_none _ _).mpr h] at hmis
        exact absurd hmis (by simp)
      simp [hne]
    | none =>
      have heq := (firstMismatch_eq_none _ _).mp hmis
      cases subtleDecrypt C key.aes nonce (u64ToBe x).toList
          ((ct ++ tag.toList).take len.toNat) with
      | error e => simp
      | ok p' => simp [heq, hreplay, and_comm, eq_comm]

/-! ## KEY_ROTATE frames -/

theorem parseKeyRotateFrame_eq (gcmNonce : Nonce) {ct : Bytes} (tag : Tag) (hct : ct.length = 32) :
    parseKeyRotateFrame (keyRotateFrame gcmNonce ct tag) = .ok (gcmNonce, ct ++ tag.toList) := by
  have h12 : gcmNonce.toList.length = 12 := List.Vector.toList_length _
  have hsize : (keyRotateFrame gcmNonce ct tag).length = keyRotateFrameLen := by
    simp [keyRotateFrame, hct, keyRotateFrameLen, nonceLen, rotationNonceLen, tagLen]
  have hgcm : ((keyRotateFrame gcmNonce ct tag).drop 1).take 12 = gcmNonce.toList := by
    simp [keyRotateFrame, h12]
  have hbody : ((keyRotateFrame gcmNonce ct tag).drop 13).take 48 = ct ++ tag.toList := by
    simp [keyRotateFrame, h12, hct]
  have hhead : (keyRotateFrame gcmNonce ct tag).headD 0 = frameKeyRotate := rfl
  rw [parseKeyRotateFrame, dif_neg (by simp [hsize]), if_neg (not_not.mpr hhead), hbody]
  congr 2
  exact ByteArr.toList_inj.mp hgcm

/-- **`processKeyRotate` follows `rotate_key`**: from a frame that opens to `n`, both halves of
the new session key are the key the Rust side derives. -/
theorem processKeyRotate_eq (C : CipherSuite) (key : SessionKey) (gcmNonce : Nonce) {ct : Bytes}
    (tag : Tag) (hct : ct.length = 32) (x : UInt64) (n : RotationNonce)
    (hopen : C.aead.decrypt key.aes gcmNonce (u64ToBe x).toList ct tag = some n.toList) :
    processKeyRotate C key (keyRotateFrame gcmNonce ct tag) x.toNat =
      .ok ⟨C.hkdf n key.hkdf rotationHkdfInfo, C.hkdf n key.hkdf rotationHkdfInfo⟩ := by
  have hn : n.toList.length = 32 := n.toList_length
  rw [processKeyRotate, parseKeyRotateFrame_eq gcmNonce tag hct, seqToAad_toNat]
  simp only [bind, Except.bind, subtleDecrypt_append, hopen, hn, dif_pos, pure, Except.pure]
  rfl

/-- A counter out of range stops the rotation: `seqToAad` throws, and the worker keeps the key it
has. -/
theorem processKeyRotate_of_gt (C : CipherSuite) (key : SessionKey) (gcmNonce : Nonce) {ct : Bytes}
    (tag : Tag) (hct : ct.length = 32) {seq : Nat} (h : seq > maxU64) :
    processKeyRotate C key (keyRotateFrame gcmNonce ct tag) seq =
      .error (.rangeError s!"seq out of u64 range: {seq}") := by
  rw [processKeyRotate, parseKeyRotateFrame_eq gcmNonce tag hct, seqToAad, if_pos h]
  rfl

end LatticeShield.Js
