import LatticeShield.Proof.Frames

/-!
# The grammar of `read_frame`

What `read_frame` accepts, said about the bytes of the stream and the fields of the channel alone.
`readFrame_ok_cases` and the two `run_` lemmas have both directions already; here they are put
together with the streams that are too short, so that every finite stream falls under one of three
cases: a DATA frame, a KEY_ROTATE frame, or an error that leaves the channel as it was.
-/

set_option autoImplicit false

namespace LatticeShield

open Lib

namespace EncryptedChannel

/-- `stream` starts with `0x01`, the big-endian `len` and `seq`, a nonce, and `len` bytes, a
ciphertext and its tag, that decrypt to `p`; `len` is in its range and `seq` is new. -/
structure StartsWithData (C : CipherSuite) (ch : EncryptedChannel) (stream : Bytes) (len : UInt32)
    (seq : UInt64) (p : Bytes) : Prop where
  layout : ∃ (nonce : Nonce) (ct : Bytes) (tag : Tag) (rest : Bytes),
    stream = [0x01] ++ (u32ToBe len).toList ++ (u64ToBe seq).toList ++ nonce.toList ++
      (ct ++ tag.toList) ++ rest ∧
    (ct ++ tag.toList).length = len.toNat ∧
    C.aead.decrypt ch.keyBytes nonce (u64ToBe seq).toList ct tag = some p
  len_ge : 16 ≤ len.toNat
  len_le : len.toNat ≤ ch.maxFrameSize + 16
  fresh : ch.recvSeq < seq ∨ ch.recvInitialized = false

/-- `stream` starts with `0x02` and 60 bytes, a nonce, a ciphertext and its tag, that decrypt to
`n`. -/
def StartsWithKeyRotate (C : CipherSuite) (ch : EncryptedChannel) (stream : Bytes)
    (n : RotationNonce) : Prop :=
  ∃ (gcmNonce : Nonce) (ct : Bytes) (tag : Tag) (rest : Bytes),
    stream = [0x02] ++ (gcmNonce.toList ++ ct ++ tag.toList) ++ rest ∧
    (gcmNonce.toList ++ ct ++ tag.toList).length = 60 ∧
    C.aead.decrypt ch.keyBytes gcmNonce (u64ToBe ch.keyRotateRecvSeq).toList ct tag = some n.toList

variable {C : CipherSuite} {ch : EncryptedChannel} {stream : Bytes}

/-! ## Frames are read -/

theorem StartsWithData.readStream {len : UInt32} {seq : UInt64} {p : Bytes}
    (h : StartsWithData C ch stream len seq p) :
    25 + len.toNat ≤ stream.length ∧ readStream C.aead.decrypt ch stream =
      { result := .ok (.data p)
        channel := { ch with recvSeq := seq, recvInitialized := true }
        rest := stream.drop (25 + len.toNat) } := by
  obtain ⟨nonce, ct, tag, rest, rfl, hlen, hopens⟩ := h.layout
  have hct : ct.length + 16 = len.toNat := by
    rw [← hlen, List.length_append, List.Vector.toList_length]
  have haccepts : AcceptsData C.aead.decrypt ch len seq nonce ct tag p := by
    refine ⟨hct, ?_, ?_, hopens⟩
    · have := h.len_le
      omega
    · intro hinit
      rcases h.fresh with hlt | hno
      · exact hlt
      · rw [hno] at hinit
        exact Bool.noConfusion hinit
  have hframe : [0x01] ++ (u32ToBe len).toList ++ (u64ToBe seq).toList ++ nonce.toList ++
      (ct ++ tag.toList) ++ rest = dataFrame len (u64ToBe seq) nonce ct tag ++ rest := by
    simp [dataFrame, frameData]
  have hsize : (dataFrame len (u64ToBe seq) nonce ct tag).length = 25 + len.toNat := by
    rw [length_dataFrame, hct]
  rw [hframe]
  constructor
  · rw [List.length_append, hsize]
    exact Nat.le_add_right _ _
  · rw [EncryptedChannel.readStream, run_readDataFrame rest haccepts, ← hsize, List.drop_left]
    rfl

theorem StartsWithKeyRotate.readStream {n : RotationNonce} (h : StartsWithKeyRotate C ch stream n) :
    61 ≤ stream.length ∧ readStream C.aead.decrypt ch stream =
      { result := .ok (.keyRotate n)
        channel := { ch with keyRotateRecvSeq := ch.keyRotateRecvSeq + 1 }
        rest := stream.drop 61 } := by
  obtain ⟨gcmNonce, ct, tag, rest, rfl, hlen, hopens⟩ := h
  have hct : ct.length = 32 := by
    simp only [List.length_append, List.Vector.toList_length] at hlen
    omega
  have hframe : [0x02] ++ (gcmNonce.toList ++ ct ++ tag.toList) ++ rest =
      keyRotateFrame gcmNonce ct tag ++ rest := by
    simp [keyRotateFrame, frameKeyRotate]
  have hsize : (keyRotateFrame gcmNonce ct tag).length = 61 := by
    simp [keyRotateFrame, hct]
  rw [hframe]
  constructor
  · rw [List.length_append, hsize]
    exact Nat.le_add_right _ _
  · rw [EncryptedChannel.readStream, run_readKeyRotateFrame rest hct hopens, ← hsize, List.drop_left]
    rfl

/-! ## Nothing else is -/

/-- An `Ok` was one of the two. -/
theorem startsWith_of_ok {r : FrameResult}
    (h : (readStream C.aead.decrypt ch stream).result = .ok r) :
    (∃ p, r = .data p ∧ ∃ len seq, StartsWithData C ch stream len seq p) ∨
      (∃ n, r = .keyRotate n ∧ StartsWithKeyRotate C ch stream n) := by
  unfold readStream at h
  split at h
  · rename_i result channel rest hrun
    dsimp only at h
    subst h
    rcases readFrame_ok_cases hrun with
      ⟨len, seq, nonce, ct, tag, p, hr, hstream, haccepts, -⟩ |
      ⟨gcmNonce, ct, tag, n, hr, hstream, hct, hopens, -⟩
    · refine Or.inl ⟨p, hr, len, seq, ⟨nonce, ct, tag, rest, ?_, ?_, haccepts.opens⟩, ?_, ?_, ?_⟩
      · rw [hstream]
        simp [dataFrame, frameData]
      · rw [List.length_append, List.Vector.toList_length, haccepts.len_eq]
      · have := haccepts.len_eq
        omega
      · have h₁ := haccepts.len_eq
        have h₂ := haccepts.len_le
        omega
      · cases hinit : ch.recvInitialized with
        | false => exact Or.inr rfl
        | true => exact Or.inl (haccepts.fresh hinit)
    · refine Or.inr ⟨n, hr, gcmNonce, ct, tag, rest, ?_, ?_, hopens⟩
      · rw [hstream]
        simp [keyRotateFrame, frameKeyRotate]
      · simp [hct]
  · exact absurd h (by simp)

theorem readStream_error {e : FrameError}
    (h : (readStream C.aead.decrypt ch stream).result = .error e) :
    (readStream C.aead.decrypt ch stream).channel = ch := by
  unfold readStream at h ⊢
  split
  · rename_i result channel rest hrun
    rw [hrun] at h
    dsimp only at h
    subst h
    exact readFrame_error hrun
  · rfl

/-- **`read_frame` accepts exactly the frames of framing v3**, consumes exactly the frame, moves
exactly the counters of its kind, and changes nothing when it fails. The shapes are stated on the
stream of bytes, by position, and owe nothing to the order in which the code reads. -/
theorem readFrame_grammar (C : CipherSuite) (ch : EncryptedChannel) (stream : Bytes) :
    (∀ p, (readStream C.aead.decrypt ch stream).result = .ok (.data p) ↔
      ∃ len seq, StartsWithData C ch stream len seq p) ∧
    (∀ len seq p, StartsWithData C ch stream len seq p →
      25 + len.toNat ≤ stream.length ∧
      (readStream C.aead.decrypt ch stream).rest = stream.drop (25 + len.toNat) ∧
      (readStream C.aead.decrypt ch stream).channel =
        { ch with recvSeq := seq, recvInitialized := true }) ∧
    (∀ n, (readStream C.aead.decrypt ch stream).result = .ok (.keyRotate n) ↔
      StartsWithKeyRotate C ch stream n) ∧
    (∀ n, StartsWithKeyRotate C ch stream n →
      61 ≤ stream.length ∧
      (readStream C.aead.decrypt ch stream).rest = stream.drop 61 ∧
      (readStream C.aead.decrypt ch stream).channel =
        { ch with keyRotateRecvSeq := ch.keyRotateRecvSeq + 1 }) ∧
    ((¬ ∃ len seq p, StartsWithData C ch stream len seq p) →
      (¬ ∃ n, StartsWithKeyRotate C ch stream n) →
      (∃ e, (readStream C.aead.decrypt ch stream).result = .error e) ∧
      (readStream C.aead.decrypt ch stream).channel = ch) := by
  refine ⟨fun p => ⟨?_, ?_⟩, ?_, fun n => ⟨?_, ?_⟩, ?_, ?_⟩
  -- A frame that is read is one of the two kinds, and the tag decides which. The rest of the stream
  -- and the channel are then computed from the kind that starts it.
  · intro h
    rcases startsWith_of_ok h with ⟨p', hp, hstarts⟩ | ⟨n, hn, -⟩
    · rw [FrameResult.data.injEq] at hp
      exact hp ▸ hstarts
    · exact FrameResult.noConfusion hn
  · rintro ⟨len, seq, h⟩
    rw [h.readStream.2]
  · intro len seq p h
    obtain ⟨hle, hread⟩ := h.readStream
    rw [hread]
    exact ⟨hle, rfl, rfl⟩
  · intro h
    rcases startsWith_of_ok h with ⟨p, hp, -⟩ | ⟨n', hn, hstarts⟩
    · exact FrameResult.noConfusion hp
    · rw [FrameResult.keyRotate.injEq] at hn
      exact hn ▸ hstarts
  · intro h
    rw [h.readStream.2]
  · intro n h
    obtain ⟨hle, hread⟩ := h.readStream
    rw [hread]
    exact ⟨hle, rfl, rfl⟩
  -- a result other than an error would be one of the two starts just excluded
  · intro hdata hrotate
    cases hresult : (readStream C.aead.decrypt ch stream).result with
    | error e => exact ⟨⟨e, rfl⟩, readStream_error hresult⟩
    | ok r =>
      rcases startsWith_of_ok hresult with ⟨p, -, len, seq, hstarts⟩ | ⟨n, -, hstarts⟩
      · exact absurd ⟨len, seq, p, hstarts⟩ hdata
      · exact absurd ⟨n, hstarts⟩ hrotate

end EncryptedChannel

end LatticeShield
