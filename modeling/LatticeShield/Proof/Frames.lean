import LatticeShield.Crypto.Channel

/-!
# What `read_frame` accepts

`readFrame` is a tree of exact reads with six ways to fail in it. Every later argument wants the
same one fact about it, in one of two directions: *these bytes are accepted, with this result*
(an honest peer wrote them) and *these bytes were accepted, so they had this shape* (an adversary
wrote them). So the accepting leaves are characterised once, and `readFrame` is not unfolded
again: `run_readDataFrame` and `run_readKeyRotateFrame` for the first direction,
`readFrame_ok_cases` for the second.
-/

set_option autoImplicit false

namespace LatticeShield

open Lib

namespace EncryptedChannel

/-! ## What the writers leave behind -/

/-- What `write_frame` does to the sending half: nothing but move `send_seq`, and that only when
it succeeds. -/
theorem writeFrame_channel (C : CipherSuite) (ch : EncryptedChannel) (w : Writer) (data : Bytes) :
    (writeFrame C ch w data).channel =
      if data.length ≤ gcmPMax ∧ w = .accepts then { ch with sendSeq := ch.sendSeq + 1 } else ch := by
  unfold writeFrame
  dsimp only
  by_cases hlen : data.length ≤ gcmPMax
  · obtain ⟨c, t, hct⟩ := C.aead.exists_encrypt ch.keyBytes (dataNonce ch.sendSeq ch.epoch)
      (u64ToBe ch.sendSeq).toList (by rw [C.pMax]; exact hlen)
    rw [hct]
    cases w <;> simp [hlen]
  · rw [C.aead.encrypt_eq_none _ _ _ (by rw [C.pMax]; exact hlen)]
    simp [hlen]

/-- `send_key_rotate` moves its own counter and nothing else. The key changes in a step of its
own, behind it. -/
theorem sendKeyRotate_channel (C : CipherSuite) (ch : EncryptedChannel) (w : Writer)
    (gcmNonce : Nonce) (nonce : RotationNonce) :
    (sendKeyRotate C ch w gcmNonce nonce).channel =
      if w = .accepts then { ch with keyRotateSendSeq := ch.keyRotateSendSeq + 1 } else ch := by
  -- 32 bytes are never too long for GCM
  obtain ⟨c, t, hct⟩ := C.aead.exists_encrypt (p := nonce.toList) ch.keyBytes gcmNonce
    (u64ToBe ch.keyRotateSendSeq).toList (by rw [C.pMax, nonce.toList_length]; decide)
  unfold sendKeyRotate
  dsimp only
  rw [hct]
  cases w <;> simp

/-! ## What the writers put on the wire -/

/-- What `write_frame` puts on the wire, and that it opens. -/
theorem writeFrame_accepts (C : CipherSuite) (ch : EncryptedChannel) {p : Bytes}
    (hp : p.length ≤ gcmPMax) :
    ∃ ct tag, ct.length = p.length ∧
      C.aead.decrypt ch.keyBytes (dataNonce ch.sendSeq ch.epoch) (u64ToBe ch.sendSeq).toList ct
        tag = some p ∧
      writeFrame C ch .accepts p =
        ⟨.ok (), { ch with sendSeq := ch.sendSeq + 1 },
          dataFrame (UInt32.ofNat (ct.length + 16)) (u64ToBe ch.sendSeq)
            (dataNonce ch.sendSeq ch.epoch) ct tag⟩ := by
  obtain ⟨ct, tag, henc⟩ := C.aead.exists_encrypt ch.keyBytes (dataNonce ch.sendSeq ch.epoch)
    (u64ToBe ch.sendSeq).toList (p := p) (by rw [C.pMax]; exact hp)
  refine ⟨ct, tag, C.aead.length_ct _ _ _ _ _ _ henc, C.aead.decrypt_encrypt _ _ _ _ _ _ henc, ?_⟩
  simp only [writeFrame, henc, tagLen]

/-- What `send_key_rotate` puts on the wire, and that it opens. -/
theorem sendKeyRotate_accepts (C : CipherSuite) (ch : EncryptedChannel) (gcmNonce : Nonce)
    (n : RotationNonce) :
    ∃ ct tag, ct.length = 32 ∧
      C.aead.decrypt ch.keyBytes gcmNonce (u64ToBe ch.keyRotateSendSeq).toList ct tag =
        some n.toList ∧
      sendKeyRotate C ch .accepts gcmNonce n =
        ⟨.ok (), { ch with keyRotateSendSeq := ch.keyRotateSendSeq + 1 },
          keyRotateFrame gcmNonce ct tag⟩ := by
  obtain ⟨ct, tag, henc⟩ := C.aead.exists_encrypt (p := n.toList) ch.keyBytes gcmNonce
    (u64ToBe ch.keyRotateSendSeq).toList (by rw [C.pMax, n.toList_length]; decide)
  refine ⟨ct, tag, ?_, C.aead.decrypt_encrypt _ _ _ _ _ _ henc, ?_⟩
  · rw [C.aead.length_ct _ _ _ _ _ _ henc, n.toList_length]
  · simp only [sendKeyRotate, henc]

/-! ## Fields of a DATA frame

Where a reader that slices by offset finds what `dataFrame` was built from. -/

section Fields

variable (len : UInt32) (seq : ByteArr 8) (nonce : Nonce) (ct : Bytes) (tag : Tag)

theorem drop_append_array {n : Nat} (v : ByteArr n) (bs : Bytes) {k : Nat} (h : n ≤ k) :
    (v.toList ++ bs).drop k = bs.drop (k - n) := by
  rw [List.drop_append, List.drop_of_length_le (by simpa using h), List.nil_append,
    List.Vector.toList_length]

theorem take_append_array {n : Nat} (v : ByteArr n) (bs : Bytes) :
    (v.toList ++ bs).take n = v.toList := by
  rw [List.take_append, List.Vector.toList_length, Nat.sub_self, List.take_zero, List.append_nil,
    List.take_of_length_le (by simp)]

theorem length_dataFrame : (dataFrame len seq nonce ct tag).length = 25 + (ct.length + 16) := by
  simp [dataFrame]
  omega

theorem dataFrame_drop_type : (dataFrame len seq nonce ct tag).drop 1 =
    (u32ToBe len).toList ++ (seq.toList ++ (nonce.toList ++ (ct ++ tag.toList))) := rfl

theorem dataFrame_drop_len : (dataFrame len seq nonce ct tag).drop 5 =
    seq.toList ++ (nonce.toList ++ (ct ++ tag.toList)) := by
  rw [← List.drop_drop (i := 4) (j := 1), dataFrame_drop_type, drop_append_array _ _ (by omega),
    Nat.sub_self, List.drop_zero]

theorem dataFrame_drop_seq : (dataFrame len seq nonce ct tag).drop 13 =
    nonce.toList ++ (ct ++ tag.toList) := by
  rw [← List.drop_drop (i := 8) (j := 5), dataFrame_drop_len, drop_append_array _ _ (by omega),
    Nat.sub_self, List.drop_zero]

theorem dataFrame_drop_nonce : (dataFrame len seq nonce ct tag).drop 25 = ct ++ tag.toList := by
  rw [← List.drop_drop (i := 12) (j := 13), dataFrame_drop_seq, drop_append_array _ _ (by omega),
    Nat.sub_self, List.drop_zero]

theorem dataFrame_len_field : ((dataFrame len seq nonce ct tag).drop 1).take 4 =
    (u32ToBe len).toList := by
  rw [dataFrame_drop_type, take_append_array]

theorem dataFrame_seq_field : ((dataFrame len seq nonce ct tag).drop 5).take 8 = seq.toList := by
  rw [dataFrame_drop_len, take_append_array]

theorem dataFrame_nonce_field : ((dataFrame len seq nonce ct tag).drop 13).take 12 =
    nonce.toList := by
  rw [dataFrame_drop_seq, take_append_array]

end Fields

/-! ## Splitting off the tag -/

theorem splitTag_toList {len : Nat} (h : 16 ≤ len) (v : ByteArr len) :
    v.toList = (splitTag h v).1 ++ (splitTag h v).2.toList := by
  simp [splitTag]

theorem length_splitTag_fst {len : Nat} (h : 16 ≤ len) (v : ByteArr len) :
    (splitTag h v).1.length + 16 = len := by
  simp [splitTag]; omega

theorem splitTag_append {len : Nat} (h : 16 ≤ len) (v : ByteArr len) (ct : Bytes) (tag : Tag)
    (hv : v.toList = ct ++ tag.toList) : splitTag h v = (ct, tag) := by
  have hsplit := splitTag_toList h v
  rw [hv] at hsplit
  have htag : tag.toList.length = (splitTag h v).2.toList.length := by simp
  obtain ⟨hct, ht⟩ := List.append_inj' hsplit htag
  exact Prod.ext hct.symm (ByteArr.toList_inj.mp ht.symm)

/-! ## The type byte -/

/-- The one-byte buffer `read_frame` reads first. -/
def typeByte (b : UInt8) : ByteArr 1 := ⟨[b], rfl⟩

theorem eq_typeByte (v : ByteArr 1) : v = typeByte v.head := by
  obtain ⟨l, hl⟩ := v
  match l, hl with
  | [b], _ => rfl

theorem run_readFrame_data (opener : Opener Key Nonce 16) (ch : EncryptedChannel) (bs : Bytes) :
    (readFrame opener ch).run (frameData :: bs) = (readDataFrame opener ch).run bs :=
  Reader.run_readExact_append _ (typeByte frameData) bs

theorem run_readFrame_keyRotate (opener : Opener Key Nonce 16) (ch : EncryptedChannel)
    (bs : Bytes) :
    (readFrame opener ch).run (frameKeyRotate :: bs) = (readKeyRotateFrame opener ch).run bs :=
  Reader.run_readExact_append _ (typeByte frameKeyRotate) bs

/-! ## DATA -/

/-- Everything `read_frame` demands of a DATA frame it accepts. The nonce is the frame's own and
is not compared with the counters. -/
structure AcceptsData (opener : Opener Key Nonce 16) (ch : EncryptedChannel) (len : UInt32)
    (seq : UInt64) (nonce : Nonce) (ct : Bytes) (tag : Tag) (p : Bytes) : Prop where
  len_eq : ct.length + 16 = len.toNat
  len_le : ct.length ≤ ch.maxFrameSize
  fresh : ch.recvInitialized = true → ch.recvSeq < seq
  opens : opener ch.keyBytes nonce (u64ToBe seq).toList ct tag = some p

/-- The channel after it accepted a DATA frame. Seqs between the last one and this one are passed
over for good. -/
def acceptData (ch : EncryptedChannel) (seq : UInt64) : EncryptedChannel :=
  { ch with recvSeq := seq, recvInitialized := true }

theorem run_readDataFrame {opener : Opener Key Nonce 16} {ch : EncryptedChannel} {len : UInt32}
    {seq : UInt64} {nonce : Nonce} {ct : Bytes} {tag : Tag} {p : Bytes} (rest : Bytes)
    (h : AcceptsData opener ch len seq nonce ct tag p) :
    (readFrame opener ch).run (dataFrame len (u64ToBe seq) nonce ct tag ++ rest) =
      some ((.ok (.data p), ch.acceptData seq), rest) := by
  have hlen : ¬ (len.toNat < 16 ∨ len.toNat > ch.maxFrameSize + 16) := by
    have h1 := h.len_eq
    have h2 := h.len_le
    omega
  have hseq : ¬ (ch.recvInitialized ∧ seq ≤ ch.recvSeq) := by
    rintro ⟨hinit, hle⟩
    exact absurd (h.fresh hinit) (UInt64.not_lt.mpr hle)
  -- the body buffer: `len` bytes that are the ciphertext and then the tag
  have hbody : (ct ++ tag.toList).length = len.toNat := by
    rw [List.length_append, List.Vector.toList_length]
    exact h.len_eq
  let body : ByteArr len.toNat := ⟨ct ++ tag.toList, hbody⟩
  have hframe : dataFrame len (u64ToBe seq) nonce ct tag ++ rest =
      frameData :: ((u32ToBe len).toList ++ ((u64ToBe seq).toList ++
        (nonce.toList ++ (body.toList ++ rest)))) := by
    simp [dataFrame, body]
  rw [hframe, run_readFrame_data, readDataFrame, Reader.run_readExact_append, u32OfBe_u32ToBe,
    readDataBody, dif_neg hlen, Reader.run_readExact_append, u64OfBe_u64ToBe]
  dsimp only
  rw [if_neg hseq, Reader.run_readExact_append, Reader.run_readExact_append,
    splitTag_append _ body ct tag (List.Vector.toList_mk _ _)]
  simp only [h.opens, Reader.run_pure, acceptData]

/-- A DATA frame whose seq is not above the last one is refused before its nonce is read. The
bytes behind the seq stay on the stream, and the next call begins in the middle of a frame. -/
theorem run_readDataFrame_replay {opener : Opener Key Nonce 16} {ch : EncryptedChannel}
    {len : UInt32} {seq : UInt64} {nonce : Nonce} {ct : Bytes} {tag : Tag}
    (hlen : 16 ≤ len.toNat ∧ len.toNat ≤ ch.maxFrameSize + 16) (hinit : ch.recvInitialized = true)
    (hseq : seq ≤ ch.recvSeq) :
    (readFrame opener ch).run (dataFrame len (u64ToBe seq) nonce ct tag) =
      some ((.error (.replay seq ch.recvSeq), ch), nonce.toList ++ (ct ++ tag.toList)) := by
  have hlen' : ¬ (len.toNat < 16 ∨ len.toNat > ch.maxFrameSize + 16) := by omega
  rw [dataFrame, List.singleton_append, run_readFrame_data, readDataFrame,
    Reader.run_readExact_append, u32OfBe_u32ToBe, readDataBody, dif_neg hlen',
    Reader.run_readExact_append, u64OfBe_u64ToBe]
  dsimp only
  rw [if_pos ⟨hinit, hseq⟩, Reader.run_pure]

theorem readDataFrame_inv {opener : Opener Key Nonce 16} {ch ch' : EncryptedChannel}
    {bs rest : Bytes} {r : FrameResult}
    (h : (readDataFrame opener ch).run bs = some ((.ok r, ch'), rest)) :
    ∃ len seq nonce ct tag p, r = .data p ∧
      frameData :: bs = dataFrame len (u64ToBe seq) nonce ct tag ++ rest ∧
      AcceptsData opener ch len seq nonce ct tag p ∧ ch' = ch.acceptData seq := by
  obtain ⟨lenBuf, bs₁, rfl, h₁⟩ := Reader.run_readExact_eq_some.mp h
  rw [readDataBody] at h₁
  split at h₁
  · simp at h₁
  rename_i hlen
  obtain ⟨seqBuf, bs₂, rfl, h₂⟩ := Reader.run_readExact_eq_some.mp h₁
  dsimp only at h₂
  split at h₂
  · simp at h₂
  rename_i hseq
  obtain ⟨nonce, bs₃, rfl, h₃⟩ := Reader.run_readExact_eq_some.mp h₂
  obtain ⟨body, bs₄, rfl, h₄⟩ := Reader.run_readExact_eq_some.mp h₃
  have h16 : 16 ≤ (u32OfBe lenBuf).toNat := by omega
  have hbody := splitTag_toList h16 body
  have hct := length_splitTag_fst h16 body
  generalize splitTag _ body = ctTag at h₄ hbody hct
  obtain ⟨ct, tag⟩ := ctTag
  dsimp only at h₄ hbody hct
  cases ho : opener ch.keyBytes nonce (u64ToBe (u64OfBe seqBuf)).toList ct tag with
  | none => rw [ho] at h₄; simp at h₄
  | some p =>
    rw [ho] at h₄
    simp only [Reader.run_pure, Option.some.injEq, Prod.mk.injEq, Except.ok.injEq] at h₄
    obtain ⟨⟨hr, hch⟩, hrest⟩ := h₄
    refine ⟨u32OfBe lenBuf, u64OfBe seqBuf, nonce, ct, tag, p, hr.symm, ?_, ?_, hch.symm⟩
    · simp [dataFrame, hbody, hrest]
    · refine ⟨hct, by omega, ?_, ho⟩
      intro hinit
      exact UInt64.not_le.mp fun hle => hseq ⟨hinit, hle⟩

/-! ## KEY_ROTATE -/

/-- The channel after it accepted a KEY_ROTATE frame; `rotate_key` is the caller's. -/
def acceptKeyRotate (ch : EncryptedChannel) : EncryptedChannel :=
  { ch with keyRotateRecvSeq := ch.keyRotateRecvSeq + 1 }

theorem run_readKeyRotateFrame {opener : Opener Key Nonce 16} {ch : EncryptedChannel}
    {gcmNonce : Nonce} {ct : Bytes} {tag : Tag} {n : RotationNonce} (rest : Bytes)
    (hlen : ct.length = 32)
    (ho : opener ch.keyBytes gcmNonce (u64ToBe ch.keyRotateRecvSeq).toList ct tag =
      some n.toList) :
    (readFrame opener ch).run (keyRotateFrame gcmNonce ct tag ++ rest) =
      some ((.ok (.keyRotate n), ch.acceptKeyRotate), rest) := by
  have hbody : (ct ++ tag.toList).length = 48 := by
    rw [List.length_append, List.Vector.toList_length, hlen]
  let body : ByteArr 48 := ⟨ct ++ tag.toList, hbody⟩
  have hframe : keyRotateFrame gcmNonce ct tag ++ rest =
      frameKeyRotate :: (gcmNonce.toList ++ (body.toList ++ rest)) := by
    simp [keyRotateFrame, body]
  rw [hframe, run_readFrame_keyRotate, readKeyRotateFrame, Reader.run_readExact_append,
    Reader.run_readExact_append,
    splitTag_append _ body ct tag (List.Vector.toList_mk _ _)]
  dsimp only
  have hn : n.toList.length = 32 := n.toList_length
  simp only [ho, hn, dif_pos, Reader.run_pure, acceptKeyRotate]
  rfl

theorem readKeyRotateFrame_inv {opener : Opener Key Nonce 16} {ch ch' : EncryptedChannel}
    {bs rest : Bytes} {r : FrameResult}
    (h : (readKeyRotateFrame opener ch).run bs = some ((.ok r, ch'), rest)) :
    ∃ gcmNonce ct tag n, r = .keyRotate n ∧
      frameKeyRotate :: bs = keyRotateFrame gcmNonce ct tag ++ rest ∧ ct.length = 32 ∧
      opener ch.keyBytes gcmNonce (u64ToBe ch.keyRotateRecvSeq).toList ct tag =
        some n.toList ∧ ch' = ch.acceptKeyRotate := by
  obtain ⟨gcmNonce, bs₁, rfl, h₁⟩ := Reader.run_readExact_eq_some.mp h
  obtain ⟨body, bs₂, rfl, h₂⟩ := Reader.run_readExact_eq_some.mp h₁
  have h16 : 16 ≤ 48 := by decide
  have hbody := splitTag_toList h16 body
  have hct := length_splitTag_fst h16 body
  generalize splitTag _ body = ctTag at h₂ hbody hct
  obtain ⟨ct, tag⟩ := ctTag
  dsimp only at h₂ hbody hct
  cases ho : opener ch.keyBytes gcmNonce (u64ToBe ch.keyRotateRecvSeq).toList ct tag with
  | none => rw [ho] at h₂; simp at h₂
  | some p =>
    rw [ho] at h₂
    dsimp only at h₂
    split at h₂
    · rename_i hp
      simp only [Reader.run_pure, Option.some.injEq, Prod.mk.injEq, Except.ok.injEq] at h₂
      obtain ⟨⟨hr, hch⟩, hrest⟩ := h₂
      refine ⟨gcmNonce, ct, tag, ⟨p, hp⟩, hr.symm, ?_, by omega, by simpa using ho, hch.symm⟩
      simp [keyRotateFrame, hbody, hrest]
    · simp at h₂

/-! ## Errors -/

/-- **A frame that is refused leaves the channel as it was.** The counters are written at the very
end of each branch, behind the decryption. -/
theorem readFrame_error {opener : Opener Key Nonce 16} {ch ch' : EncryptedChannel}
    {bs rest : Bytes} {e : FrameError}
    (h : (readFrame opener ch).run bs = some ((.error e, ch'), rest)) : ch' = ch := by
  obtain ⟨ty, bs₁, -, h₁⟩ := Reader.run_readExact_eq_some.mp h
  split at h₁
  · obtain ⟨lenBuf, bs₂, -, h₂⟩ := Reader.run_readExact_eq_some.mp h₁
    rw [readDataBody] at h₂
    split at h₂
    · simp_all
    obtain ⟨seqBuf, bs₃, -, h₃⟩ := Reader.run_readExact_eq_some.mp h₂
    dsimp only at h₃
    split at h₃
    · simp_all
    obtain ⟨nonce, bs₄, -, h₄⟩ := Reader.run_readExact_eq_some.mp h₃
    obtain ⟨body, bs₅, -, h₅⟩ := Reader.run_readExact_eq_some.mp h₄
    split at h₅ <;> simp_all
  · split at h₁
    · obtain ⟨gcmNonce, bs₂, -, h₂⟩ := Reader.run_readExact_eq_some.mp h₁
      obtain ⟨body, bs₃, -, h₃⟩ := Reader.run_readExact_eq_some.mp h₂
      dsimp only at h₃
      split at h₃
      · simp_all
      · split at h₃ <;> simp_all
    · simp_all

/-! ## The two accepting answers -/

/-- **`read_frame` accepts exactly the two frame shapes.** Whatever it answered `Ok` to was a DATA
frame that passed the length and the replay check and opened under its own seq, or a KEY_ROTATE
frame that opened under the receiver's counter. -/
theorem readFrame_ok_cases {opener : Opener Key Nonce 16} {ch ch' : EncryptedChannel}
    {bs rest : Bytes} {r : FrameResult}
    (h : (readFrame opener ch).run bs = some ((.ok r, ch'), rest)) :
    (∃ len seq nonce ct tag p, r = .data p ∧
      bs = dataFrame len (u64ToBe seq) nonce ct tag ++ rest ∧
      AcceptsData opener ch len seq nonce ct tag p ∧ ch' = ch.acceptData seq) ∨
    (∃ gcmNonce ct tag n, r = .keyRotate n ∧ bs = keyRotateFrame gcmNonce ct tag ++ rest ∧
      ct.length = 32 ∧
      opener ch.keyBytes gcmNonce (u64ToBe ch.keyRotateRecvSeq).toList ct tag =
        some n.toList ∧ ch' = ch.acceptKeyRotate) := by
  obtain ⟨ty, bs₁, rfl, h₁⟩ := Reader.run_readExact_eq_some.mp h
  have hty : ty.toList = [ty.head] := by
    conv => lhs; rw [eq_typeByte ty]
    rfl
  rw [hty, List.singleton_append]
  split at h₁
  · rename_i hd
    exact Or.inl (hd ▸ readDataFrame_inv h₁)
  · split at h₁
    · rename_i hk
      exact Or.inr (hk ▸ readKeyRotateFrame_inv h₁)
    · simp at h₁

end EncryptedChannel

end LatticeShield
