import LatticeShield.Crypto.Channel

/-!
# The JavaScript framing (`latticeshield-js/src/framing.ts`)

The same wire format as `channel.rs`, written a second time in TypeScript over `crypto.subtle`.
Two differences to the Rust side show in the types: the counters are `BigInt`s, so they are `Nat`s
here and leave the `u64` range instead of wrapping, and a session key is *two* `CryptoKey`s, one
for AES-GCM and one as HKDF base material, derived by two separate calls.

The functions are `async`, but the only thing any of them awaits is `crypto.subtle`, and none of
them touches shared state; what they return is a function of their arguments, which is what this
file defines. The yield points that matter are the handlers' own and belong to the worker.

`decodeFrame` recomputes the nonce from the seq with `seqToNonce`, which leaves bytes 8..12 zero.
-/

set_option autoImplicit false

namespace LatticeShield.Js

open Lib EncryptedChannel

/-! ## Errors -/

/-- What a call may throw: an `Error` or `RangeError` with the text the source gives it, or the
`OperationError` of `crypto.subtle`, whose text is the platform's. -/
inductive JsError where
  | error (message : String)
  | rangeError (message : String)
  | operationError
deriving DecidableEq, Repr

/-- `MAX_U64`. -/
def maxU64 : Nat := 2 ^ 64 - 1

/-- A session key: the same 32 bytes twice, as a key of AES-GCM and as base material of the HKDF.
`CryptoKey`s are opaque, so the source needs both. -/
structure SessionKey where
  aes : Key
  hkdf : Key
deriving DecidableEq

/-! ## `crypto.subtle` -/

/-- AES-GCM with a 128-bit tag: the ciphertext with the tag behind it. -/
def subtleEncrypt (C : CipherSuite) (key : Key) (iv : Nonce) (aad plaintext : Bytes) :
    Except JsError Bytes :=
  match C.aead.encrypt key iv aad plaintext with
  | none => .error .operationError
  | some (ct, tag) => .ok (ct ++ tag.toList)

/-- `crypto.subtle.decrypt`. Data shorter than the tag is an `OperationError`, as is a tag that
does not verify; the two cannot be told apart. -/
def subtleDecrypt (C : CipherSuite) (key : Key) (iv : Nonce) (aad data : Bytes) :
    Except JsError Bytes :=
  if h : 16 ≤ data.length then
    let (ct, tag) := splitTag h ⟨data, rfl⟩
    match C.aead.decrypt key iv aad ct tag with
    | none => .error .operationError
    | some plaintext => .ok plaintext
  else .error .operationError

/-! ## Nonce helpers -/

/-- Bytes 0..8 are the seq; bytes 8..12 stay zero, whatever the epoch. -/
def seqToNonce (seq : Nat) : Except JsError Nonce :=
  if seq > maxU64 then .error (.rangeError s!"seq out of u64 range: {seq}")
  else .ok ⟨beBytes 8 seq ++ [0, 0, 0, 0], by simp [length_beBytes]⟩

/-- The associated data of a DATA frame: the seq in eight bytes, the same that stand in the
header. -/
def seqToAad (seq : Nat) : Except JsError Bytes :=
  if seq > maxU64 then .error (.rangeError s!"seq out of u64 range: {seq}")
  else .ok (beBytes 8 seq)

/-! ## DATA frames -/

/-- `setUint32` keeps the low 32 bits of the length. The seq stands in the header and, with four
zeros behind it, in the nonce, so a frame can only be of epoch 0. -/
def encodeFrame (C : CipherSuite) (key : SessionKey) (seq : Nat) (plaintext : Bytes) :
    Except JsError Bytes := do
  let nonce ← seqToNonce seq
  let aad ← seqToAad seq
  let ctWithTag ← subtleEncrypt C key.aes nonce aad plaintext
  return [frameData] ++ ((u32ToBe (UInt32.ofNat ctWithTag.length)).toList ++
    (beBytes 8 seq ++ (nonce.toList ++ ctWithTag)))

/-- `toString(16)`: lower case, no padding. It is used in messages only. -/
def hex (b : UInt8) : String := String.ofList (Nat.toDigits 16 b.toNat)

/-- The first byte in which two nonces differ, which the message of the refusal names. -/
def firstMismatch (nonce expected : Nonce) : Option Nat :=
  (List.range 12).find? fun i => nonce.toList[i]? ≠ expected.toList[i]?

/-- `decodeFrame` once the header is sliced: `size` is the buffer's length and `body` what stands
behind the header. -/
def decodeFields (C : CipherSuite) (key : SessionKey) (size : Nat) (tag : UInt8) (len seq : Nat)
    (nonce : Nonce) (body : Bytes) (recvSeq : Nat) (recvInitialized : Bool) :
    Except JsError (Bytes × Nat) :=
  let expectedTotal := 1 + 4 + 8 + 12 + len
  if tag ≠ frameData then .error (.error s!"unexpected frame tag: 0x{hex tag}")
  else if size < expectedTotal then
    .error (.error s!"frame body truncated: expected {expectedTotal} bytes, got {size}")
  else if recvInitialized ∧ seq ≤ recvSeq then
    .error (.error s!"replay detected: received seq={seq}, expected >{recvSeq}")
  else do
    let expectedNonce ← seqToNonce seq
    match firstMismatch nonce expectedNonce with
    | some i =>
      .error (.error s!"nonce mismatch at byte {i}: frame nonce does not match seq-derived nonce")
    | none =>
      let aad ← seqToAad seq
      let plaintext ← subtleDecrypt C key.aes nonce aad (body.take len)
      return (plaintext, seq)

/-- `decodeFrame`: the header is cut at fixed offsets once the buffer is long enough for it, and
the checks come behind that. -/
def decodeFrame (C : CipherSuite) (key : SessionKey) (buf : Bytes) (recvSeq : Nat)
    (recvInitialized : Bool) : Except JsError (Bytes × Nat) :=
  if h : buf.length < 1 + 4 + 8 + 12 then
    .error (.error s!"frame too short: {buf.length} bytes")
  else
    decodeFields C key buf.length (buf.headD 0) (beNat ((buf.drop 1).take 4))
      (beNat ((buf.drop 5).take 8)) ⟨(buf.drop 13).take 12, by simp; omega⟩ (buf.drop 25) recvSeq
      recvInitialized

/-! ## KEY_ROTATE frames -/

/-- `parseKeyRotateFrame`. A frame of this kind has one length, and a longer buffer is refused as
well as a shorter one. -/
def parseKeyRotateFrame (buf : Bytes) : Except JsError (Nonce × Bytes) :=
  if h : buf.length ≠ keyRotateFrameLen then
    .error (.error s!"KEY_ROTATE frame must be {keyRotateFrameLen} bytes, got {buf.length}")
  else if buf.headD 0 ≠ frameKeyRotate then
    .error (.error s!"not a KEY_ROTATE frame: tag=0x{hex (buf.headD 0)}")
  else
    .ok (⟨(buf.drop 1).take 12, by
      rw [not_not] at h
      simp [h, keyRotateFrameLen, nonceLen, rotationNonceLen, tagLen]⟩, (buf.drop 13).take 48)

/-- The new AES key and the new HKDF key come from two calls with the same salt, base key and
info: `deriveKey`, and `deriveBits` followed by `importKey`. -/
def processKeyRotate (C : CipherSuite) (currentKey : SessionKey) (frame : Bytes)
    (keyRotateRecvSeq : Nat) : Except JsError SessionKey := do
  let (nonce, ciphertextWithTag) ← parseKeyRotateFrame frame
  let aad ← seqToAad keyRotateRecvSeq
  let rotationNonceBytes ← subtleDecrypt C currentKey.aes nonce aad ciphertextWithTag
  if h : rotationNonceBytes.length = 32 then
    let newAesKey := C.hkdf ⟨rotationNonceBytes, h⟩ currentKey.hkdf rotationHkdfInfo
    let newKeyRaw := C.hkdf ⟨rotationNonceBytes, h⟩ currentKey.hkdf rotationHkdfInfo
    return { aes := newAesKey, hkdf := newKeyRaw }
  else
    throw (.error s!"rotation nonce must be 32 bytes, got {rotationNonceBytes.length}")

/-- `importSessionKey`: both halves of the first key are the 32 bytes of the handshake. -/
def importSessionKey (keyBytes : Bytes) : Except JsError SessionKey :=
  if h : keyBytes.length = 32 then .ok { aes := ⟨keyBytes, h⟩, hkdf := ⟨keyBytes, h⟩ }
  else .error (.error s!"session key must be 32 bytes, got {keyBytes.length}")

end LatticeShield.Js
