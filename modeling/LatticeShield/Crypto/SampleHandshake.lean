import LatticeShield.Crypto.Handshake
import LatticeShield.Crypto.Sample

/-!
# Handshake primitives that can be evaluated

The counterpart of `Sample.suite` for the handshake: every law of `HandshakeSuite.Lawful` holds,
and the signature scheme is ideal by construction. A signature is its message, padded to 3309
bytes, and it verifies only if `signs` says that the holder of the key signed the message. So
`signs` *is* the log of what was signed, and a run picks it.
-/

set_option autoImplicit false

namespace LatticeShield.Sample

open Lib

/-- `bs` with zeros behind it, up to `n` bytes. -/
def padTo (n : Nat) (bs : Bytes) (h : bs.length ≤ n) : ByteArr n :=
  ⟨bs ++ List.replicate (n - bs.length) 0, by
    rw [List.length_append, List.length_replicate]
    omega⟩

theorem take_padTo {n : Nat} {bs : Bytes} (h : bs.length ≤ n) {k : Nat} (hk : bs.length = k) :
    (padTo n bs h).toList.take k = bs :=
  List.take_left' hk

/-- 32 bytes in a longer buffer. -/
def pad32 (n : Nat) (v : ByteArr 32) (h : 32 ≤ n := by decide) : ByteArr n :=
  padTo n v.toList (v.toList_length.symm ▸ h)

theorem slice_pad32 {n : Nat} (v : ByteArr 32) (h : 32 ≤ n) (h' : 0 + 32 ≤ n) :
    (pad32 n v h).slice 0 32 h' = v := by
  apply ByteArr.toList_inj.mp
  exact take_padTo (v.toList_length.symm ▸ h) v.toList_length

/-! ## Signatures -/

/-- The message with its length in front, padded; longer ones are not signed. -/
def encodeMessage (msg : Bytes) : Option Signature :=
  if h : msg.length ≤ 3305 then
    some (padTo signatureLen (beBytes 4 msg.length ++ msg) (by
      rw [List.length_append, length_beBytes]
      show 4 + msg.length ≤ 3309
      omega))
  else none

theorem encodeMessage_eq_some {msg : Bytes} {sig : Signature} (h : encodeMessage msg = some sig) :
    msg.length ≤ 3305 ∧ ∃ pad, sig.toList = beBytes 4 msg.length ++ (msg ++ pad) := by
  unfold encodeMessage at h
  split at h
  · rename_i hlen
    rw [← Option.some.inj h]
    exact ⟨hlen, _, List.append_assoc _ _ _⟩
  · exact absurd h (by simp)

theorem encodeMessage_inj {msg msg' : Bytes} {sig : Signature}
    (h : encodeMessage msg = some sig) (h' : encodeMessage msg' = some sig) : msg = msg' := by
  obtain ⟨hle, _, hsig⟩ := encodeMessage_eq_some h
  obtain ⟨hle', _, hsig'⟩ := encodeMessage_eq_some h'
  rw [hsig] at hsig'
  obtain ⟨hbe, hrest⟩ := List.append_inj hsig' (by simp)
  have hlen : msg.length = msg'.length := by
    rw [← beNat_beBytes (w := 4) (n := msg.length) (by omega), hbe, beNat_beBytes (by omega)]
  exact (List.append_inj hrest hlen).1

def keyPair (seed : ByteArr 32) : SigningKey × VerifyingKey :=
  (pad32 signingKeyLen seed, pad32 verifyingKeyLen seed)

def publicOf (sk : SigningKey) : VerifyingKey := pad32 verifyingKeyLen (sk.slice 0 32)

def dsa (signs : VerifyingKey → Bytes → Bool) : MlDsa where
  generateKeyPair := keyPair
  sign sk msg context _ :=
    if signs (publicOf sk) msg ∧ context = signingContext then encodeMessage msg else none
  verify vk msg context sig :=
    signs vk msg && decide (context = signingContext) && decide (encodeMessage msg = some sig)

theorem publicOf_keyPair (seed : ByteArr 32) : publicOf (keyPair seed).1 = (keyPair seed).2 := by
  rw [publicOf, keyPair, slice_pad32]

theorem dsa_correct (signs : VerifyingKey → Bytes → Bool) : (dsa signs).Correct := by
  rintro sk vk ⟨seed, hpair⟩ msg context randomness sig h
  have hsk : sk = (keyPair seed).1 := (congrArg Prod.fst hpair).symm
  have hvk : vk = (keyPair seed).2 := (congrArg Prod.snd hpair).symm
  subst hsk hvk
  simp only [dsa] at h ⊢
  rw [publicOf_keyPair] at h
  split at h
  · rename_i hc
    simp [hc.1, hc.2, h]
  · exact absurd h (by simp)

theorem dsa_ideal (signs : VerifyingKey → Bytes → Bool) :
    (dsa signs).Ideal {e | signs e.vk e.msg = true} where
  signed vk msg sig h := by
    simp only [dsa, Bool.and_eq_true] at h
    exact h.1.1
  bound vk msg msg' sig h h' := by
    simp only [dsa, Bool.and_eq_true, decide_eq_true_eq] at h h'
    exact encodeMessage_inj h.2 h'.2

/-! ## Key exchange -/

def xor (u v : ByteArr 32) : ByteArr 32 :=
  ⟨List.zipWith (· ^^^ ·) u.toList v.toList, by simp⟩

theorem xor_comm (u v : ByteArr 32) : xor u v = xor v u := by
  apply ByteArr.toList_inj.mp
  show List.zipWith _ _ _ = List.zipWith _ _ _
  rw [List.zipWith_comm]
  simp only [UInt8.xor_comm]

theorem xor_cancel (u v : ByteArr 32) : xor (xor u v) v = u := by
  apply ByteArr.toList_inj.mp
  show List.zipWith _ (List.zipWith _ u.toList v.toList) v.toList = u.toList
  apply List.ext_getElem
  · simp
  · intro i _ _
    simp only [List.getElem_zipWith]
    rw [UInt8.xor_assoc, UInt8.xor_self, UInt8.xor_zero]

def handshake (signs : VerifyingKey → Bytes → Bool) : HandshakeSuite where
  toMlDsa := dsa signs
  X25519Secret := ByteArr 32
  randomFromRng := Rng.fill 32
  x25519Public := id
  diffieHellman := xor
  DecapKey := ByteArr 32
  EncapKey := ByteArr 32
  kemGenerate rng := (((rng.fill 32).1, (rng.fill 32).1), (rng.fill 32).2)
  encapKeyBytes ek := pad32 mlkem768EkLen ek
  encapKeyFromBytes bytes := bytes.slice 0 32
  encapsulate ek rng :=
    (some (pad32 mlkem768CtLen (xor (rng.fill 32).1 ek), (rng.fill 32).1), (rng.fill 32).2)
  decapsulate dk ct := some (xor (ct.slice 0 32) dk)
  hkdfExpand salt ikm info n :=
    if n ≤ 255 * 32 then some ⟨beBytes n (digest (salt ++ ikm ++ info)), length_beBytes _ _⟩
    else none

theorem handshake_lawful (signs : VerifyingKey → Bytes → Bool) : (handshake signs).Lawful where
  diffieHellman_comm := xor_comm
  decapsulate_encapsulate := by
    intro rng dk ek rng' hgen r ct ss r' henc
    have hkeys : dk = ek := by
      have h := congrArg Prod.fst hgen
      exact (congrArg Prod.fst h).symm.trans (congrArg Prod.snd h)
    have hout := Option.some.inj (congrArg Prod.fst henc)
    have hct := (congrArg Prod.fst hout).symm
    have hss := (congrArg Prod.snd hout).symm
    subst hkeys hct hss
    show some (xor ((pad32 mlkem768CtLen (xor (r.fill 32).1 dk)).slice 0 32) dk) = some _
    rw [slice_pad32]
    exact congrArg some (xor_cancel (r.fill 32).1 dk)
  encapKey_roundTrip := by
    intro ek
    exact slice_pad32 ek (by decide) (by decide)
  signatures := dsa_correct signs

/-! ## Everything that can succeed does -/

section Succeeds

variable (signs : VerifyingKey → Bytes → Bool)

theorem sign_succeeds {sk : SigningKey} {msg : Bytes} (h : signs (publicOf sk) msg = true)
    (hlen : msg.length ≤ 3305) (rng : Rng) :
    ∃ sig rng', sign (dsa signs) sk msg rng = (.ok sig, rng') := by
  have hsign : (dsa signs).sign sk msg signingContext (rng.fill 32).1 = encodeMessage msg :=
    if_pos ⟨h, rfl⟩
  simp only [sign, hsign, encodeMessage, dif_pos hlen]
  exact ⟨_, _, rfl⟩

theorem serverHelloSignedBytes_succeeds (server : ServerHandshake (handshake signs))
    (sk : SigningKey) (h : signs (publicOf sk) server.serverHelloRaw.toList = true) (rng : Rng) :
    ∃ buf rng', server.serverHelloSignedBytes sk rng = (.ok buf, rng') := by
  obtain ⟨sig, rng', hsign⟩ := sign_succeeds signs h (by rw [List.Vector.toList_length]; decide) rng
  have hsign' : sign (handshake signs).toMlDsa sk server.serverHelloRaw.toList rng =
    (.ok sig, rng') := hsign
  simp only [ServerHandshake.serverHelloSignedBytes, ServerHandshake.serverHelloBytes, hsign']
  exact ⟨_, _, rfl⟩

theorem serializeClientResponseSigned_succeeds (resp : ClientResponse) (sk : SigningKey)
    (hello : ByteArr serverHelloLen)
    (h : signs (publicOf sk)
      (ServerHandshake.signedMessage (serializeClientResponse resp) hello).toList = true)
    (rng : Rng) :
    ∃ buf rng', serializeClientResponseSigned (handshake signs) resp sk hello rng =
      (.ok buf, rng') := by
  obtain ⟨sig, rng', hsign⟩ := sign_succeeds signs h (by rw [List.Vector.toList_length]; decide) rng
  have hsign' : sign (handshake signs).toMlDsa sk
    (ServerHandshake.signedMessage (serializeClientResponse resp) hello).toList rng =
      (.ok sig, rng') := hsign
  simp only [serializeClientResponseSigned, hsign']
  exact ⟨_, _, rfl⟩

theorem clientRespond_succeeds (hello : ClientHello (handshake signs)) (rng : Rng) :
    ∃ resp key rng', clientRespond hello rng = (.ok (resp, key), rng') :=
  ⟨_, _, _, rfl⟩

end Succeeds

/-- A random generator that gives the byte `b` for ever. -/
def rng (b : UInt8) : Rng := fun _ => b

/-- The primitives in a world in which everything was signed. -/
abbrev allSigned : HandshakeSuite := handshake fun _ _ => true

/-- The long-term keys of the sample server and client. -/
def serverKeys : SigningKey × VerifyingKey := keyPair (rot 1)

def clientKeys : SigningKey × VerifyingKey := keyPair (rot 2)

theorem serverKeys_matches (signs : VerifyingKey → Bytes → Bool) :
    (handshake signs).Matches serverKeys.1 serverKeys.2 := ⟨rot 1, rfl⟩

theorem clientKeys_matches (signs : VerifyingKey → Bytes → Bool) :
    (handshake signs).Matches clientKeys.1 clientKeys.2 := ⟨rot 2, rfl⟩

end LatticeShield.Sample
