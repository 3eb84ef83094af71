import LatticeShield.Lib.Aead
import LatticeShield.Lib.Reader

/-!
# The encrypted channel (`latticeshield-crypto/src/channel.rs`)

One endpoint's half of a session: the key, the two DATA counters, the two KEY_ROTATE counters
and the epoch, with the four operations of the source on them. Framing v3 on the wire is

```
DATA        [0x01][4B len][8B seq][12B nonce][ciphertext][16B tag]
KEY_ROTATE  [0x02][12B gcm nonce][32B encrypted rotation nonce][16B tag]
```

with every number big-endian. The type byte and the length are *not* authenticated: a DATA
ciphertext has its seq as associated data, a KEY_ROTATE ciphertext has the sender's KEY_ROTATE
counter, and both are sealed under the same key. That is the source's layout and this file keeps
it.

AES-256-GCM and HKDF-SHA256 come from crates outside the repository, so they are a parameter
(`CipherSuite`) with their documented laws. `readFrame` takes the decryption function itself:
the real one is `C.aead.decrypt`, and a run under an ideal AEAD passes `C.aead.idealDecrypt log`.

Counters are `UInt64` and the epoch is `UInt32`: `+= 1` wraps, as in the release profile, which
leaves overflow checks off.
-/

set_option autoImplicit false

namespace LatticeShield

open Lib

/-! ## Constants and wire types -/

def nonceLen : Nat := 12
def tagLen : Nat := 16
def rotationNonceLen : Nat := 32

def frameData : UInt8 := 0x01
def frameKeyRotate : UInt8 := 0x02

/-- `b"latticeshield-v1-key-rotation"`. -/
def rotationHkdfInfo : Bytes := "latticeshield-v1-key-rotation".toUTF8.toList

/-- `[0x02][12B GCM nonce][32B encrypted rotation nonce + 16B GCM tag]`. -/
def keyRotateFrameLen : Nat := 1 + nonceLen + rotationNonceLen + tagLen

abbrev Key := ByteArr 32
abbrev Nonce := ByteArr 12
abbrev Tag := ByteArr 16
abbrev RotationNonce := ByteArr 32

/-- A ciphertext with everything its decryption depends on. -/
abbrev Ciphertext := Sealed Key Nonce 16

/-- `P_MAX` of the `aes_gcm` crate, in bytes. A frame's plaintext stays far below it wherever the
configuration is validated. -/
def gcmPMax : Nat := 2 ^ 36

/-- The two primitives the channel is built from, AES-256-GCM and HKDF-SHA256. The laws of the
cipher are those of `Aead`; nothing is assumed of the HKDF. -/
structure CipherSuite where
  aead : Aead Key Nonce 16
  /-- `aes_gcm` refuses the plaintexts over `P_MAX` and no others. -/
  pMax : aead.maxLen = gcmPMax
  /-- `Hkdf::<Sha256>::new(Some(salt), ikm).expand(info, &mut [0u8; 32])`. -/
  hkdf : (salt : RotationNonce) → (ikm : Key) → (info : Bytes) → Key

inductive IoError where
  | unexpectedEof
  | writeFailed
deriving DecidableEq, Repr

/-- Why `read_frame` or `write_frame` fails. A replay carries both numbers, and an invalid frame
the text of its message. -/
inductive FrameError where
  | replay (received lastSeen : UInt64)
  | aeadFailure
  | invalid (msg : String)
  | io (e : IoError)
deriving DecidableEq, Repr

inductive FrameResult where
  | data (plaintext : Bytes)
  | keyRotate (nonce : RotationNonce)
deriving DecidableEq

/-- What the `AsyncWrite` under a frame does with it: takes every byte and flushes, or fails with
an I/O error once it has taken the first `n`. -/
inductive Writer where
  | accepts
  | failsAfter (n : Nat)
deriving DecidableEq, Repr

/-! ## The channel -/

/-- The source also stores the `Aes256Gcm` built from `key_bytes`; both are always replaced
together, so the cipher *is* the key here. -/
structure EncryptedChannel where
  keyBytes : Key
  maxFrameSize : Nat
  sendSeq : UInt64
  recvSeq : UInt64
  recvInitialized : Bool
  keyRotateSendSeq : UInt64
  keyRotateRecvSeq : UInt64
  epoch : UInt32
deriving DecidableEq

namespace EncryptedChannel

def new (sessionKey : Key) (maxFrameSize : Nat) : EncryptedChannel where
  keyBytes := sessionKey
  maxFrameSize := maxFrameSize
  sendSeq := 0
  recvSeq := 0
  recvInitialized := false
  keyRotateSendSeq := 0
  keyRotateRecvSeq := 0
  epoch := 0

/-- Bytes 0..8 are the seq, bytes 8..12 the epoch. Nothing in it says which of the two ends has
sealed. -/
def dataNonce (seq : UInt64) (epoch : UInt32) : Nonce :=
  ⟨(u64ToBe seq).toList ++ (u32ToBe epoch).toList, by simp⟩

/-- The DATA frame layout, given its already sealed parts. -/
def dataFrame (len : UInt32) (seq : ByteArr 8) (nonce : Nonce) (ct : Bytes) (tag : Tag) : Bytes :=
  [frameData] ++ ((u32ToBe len).toList ++ (seq.toList ++ (nonce.toList ++ (ct ++ tag.toList))))

/-- The KEY_ROTATE frame layout, given its already sealed parts. -/
def keyRotateFrame (gcmNonce : Nonce) (ct : Bytes) (tag : Tag) : Bytes :=
  [frameKeyRotate] ++ (gcmNonce.toList ++ (ct ++ tag.toList))

/-! ## Writing -/

/-- What a write leaves behind: its result, the channel, and the bytes the writer took. After a
failure these are the front of a frame. -/
structure Written (ε : Type) where
  result : Except ε Unit
  channel : EncryptedChannel
  bytes : Bytes

/-- `write_frame`. The counter moves only when every write and the flush have succeeded, so a
failed frame leaves its nonce to be used again. -/
def writeFrame (C : CipherSuite) (ch : EncryptedChannel) (w : Writer) (data : Bytes) :
    Written FrameError :=
  let seqBe := u64ToBe ch.sendSeq
  let nonce := dataNonce ch.sendSeq ch.epoch
  match C.aead.encrypt ch.keyBytes nonce seqBe.toList data with
  | none => ⟨.error .aeadFailure, ch, []⟩
  | some (buf, tag) =>
    -- `as u32` truncates
    let len := UInt32.ofNat (buf.length + tagLen)
    let frame := dataFrame len seqBe nonce buf tag
    match w with
    | .failsAfter n => ⟨.error (.io .writeFailed), ch, frame.take n⟩
    | .accepts => ⟨.ok (), { ch with sendSeq := ch.sendSeq + 1 }, frame⟩

/-- The `anyhow` context of the write that failed, by how many bytes had been taken. -/
def keyRotateWriteContext (n : Nat) : String :=
  if n < 1 then "write KEY_ROTATE type"
  else if n < 1 + nonceLen then "write KEY_ROTATE gcm_nonce"
  else if n < 1 + nonceLen + rotationNonceLen then "write KEY_ROTATE encrypted nonce"
  else if n < keyRotateFrameLen then "write KEY_ROTATE tag"
  else "flush KEY_ROTATE"

/-- `send_key_rotate`, sealed under the key that is being left. `gcmNonce` is what
`OsRng.fill_bytes` returned, so it is random here and a counter in a DATA frame. -/
def sendKeyRotate (C : CipherSuite) (ch : EncryptedChannel) (w : Writer) (gcmNonce : Nonce)
    (nonce : RotationNonce) : Written String :=
  let aad := u64ToBe ch.keyRotateSendSeq
  match C.aead.encrypt ch.keyBytes gcmNonce aad.toList nonce.toList with
  | none => ⟨.error "KEY_ROTATE encrypt failed", ch, []⟩
  | some (rotationNonce, tag) =>
    let frame := keyRotateFrame gcmNonce rotationNonce tag
    match w with
    | .failsAfter n => ⟨.error (keyRotateWriteContext n), ch, frame.take n⟩
    | .accepts => ⟨.ok (), { ch with keyRotateSendSeq := ch.keyRotateSendSeq + 1 }, frame⟩

/-- `rotate_key`: the DATA counters restart, the KEY_ROTATE counters persist, the epoch moves on.
The receiving half is reset with the sending half. -/
def rotateKey (C : CipherSuite) (ch : EncryptedChannel) (nonce : RotationNonce) :
    EncryptedChannel :=
  { ch with
    keyBytes := C.hkdf nonce ch.keyBytes rotationHkdfInfo
    sendSeq := 0
    recvSeq := 0
    recvInitialized := false
    epoch := ch.epoch + 1 }

/-! ## What the writers seal

The AES-GCM calls behind `writeFrame` and `sendKeyRotate`, as the record decryption depends on.
A call is made whether or not the writer then takes the frame. -/

def sealData (C : CipherSuite) (ch : EncryptedChannel) (data : Bytes) : Option Ciphertext :=
  let nonce := dataNonce ch.sendSeq ch.epoch
  let aad := (u64ToBe ch.sendSeq).toList
  (C.aead.encrypt ch.keyBytes nonce aad data).map fun (ct, tag) =>
    ⟨ch.keyBytes, nonce, aad, ct, tag⟩

def sealKeyRotate (C : CipherSuite) (ch : EncryptedChannel) (gcmNonce : Nonce)
    (nonce : RotationNonce) : Option Ciphertext :=
  let aad := (u64ToBe ch.keyRotateSendSeq).toList
  (C.aead.encrypt ch.keyBytes gcmNonce aad nonce.toList).map fun (ct, tag) =>
    ⟨ch.keyBytes, gcmNonce, aad, ct, tag⟩

/-- The key after `i` rotations from `key`, the `j`-th of them with nonce `rot j`. Each key is
made from the one before, so two ends with the same nonces have the same keys. -/
def ratchet (C : CipherSuite) (key : Key) (rot : Nat → RotationNonce) : Nat → Key
  | 0 => key
  | i + 1 => C.hkdf (rot i) (ratchet C key rot i) rotationHkdfInfo

/-! ## Reading -/

/-- A buffer of at least `tagLen` bytes as ciphertext and tag (`split_at`, `Tag::from_slice`). -/
def splitTag {len : Nat} (h : 16 ≤ len) (v : ByteArr len) : Bytes × Tag :=
  (v.toList.take (len - 16), ⟨v.toList.drop (len - 16), by simp; omega⟩)

/-- Rust's `{:#04x}` of a byte. -/
def hexByte (b : UInt8) : String :=
  "0x" ++ String.ofList [Nat.digitChar (b.toNat / 16), Nat.digitChar (b.toNat % 16)]

/-- `read_frame` on a DATA frame, from the length check on. The replay check comes before the
decryption and the counter moves behind it, so a forged frame does not move it. -/
def readDataBody (opener : Opener Key Nonce 16) (ch : EncryptedChannel) (len : Nat) :
    Reader (Except FrameError FrameResult × EncryptedChannel) :=
  if h : len < 16 ∨ len > ch.maxFrameSize + 16 then
    .pure (.error (.invalid s!"frame len invalido: {len}"), ch)
  else
    .readExact 8 fun seqBuf =>
      let wireSeq := u64OfBe seqBuf
      -- strictly greater than the last accepted one, unless this is the epoch's first frame
      if ch.recvInitialized ∧ wireSeq ≤ ch.recvSeq then
        .pure (.error (.replay wireSeq ch.recvSeq), ch)
      else
        .readExact 12 fun nonce =>
          .readExact len fun ctAndTag =>
            let (ct, tag) := splitTag (Nat.le_of_not_lt fun hlt => h (Or.inl hlt)) ctAndTag
            match opener ch.keyBytes nonce (u64ToBe wireSeq).toList ct tag with
            | none => .pure (.error .aeadFailure, ch)
            | some plaintext =>
              .pure (.ok (.data plaintext), { ch with recvSeq := wireSeq, recvInitialized := true })

/-- `read_frame` after its type byte, when that byte is `0x01`. -/
def readDataFrame (opener : Opener Key Nonce 16) (ch : EncryptedChannel) :
    Reader (Except FrameError FrameResult × EncryptedChannel) :=
  .readExact 4 fun lenBuf => readDataBody opener ch (u32OfBe lenBuf).toNat

/-- `read_frame` after its type byte, when that byte is `0x02`. The plaintext buffer is the `[u8;
32]` the ciphertext was copied into, so an answer of another length cannot arise. -/
def readKeyRotateFrame (opener : Opener Key Nonce 16) (ch : EncryptedChannel) :
    Reader (Except FrameError FrameResult × EncryptedChannel) :=
  .readExact 12 fun gcmNonce =>
    .readExact 48 fun ctAndTag =>
      let (ct, tag) := splitTag (by decide) ctAndTag
      match opener ch.keyBytes gcmNonce (u64ToBe ch.keyRotateRecvSeq).toList ct tag with
      | none => .pure (.error .aeadFailure, ch)
      | some rotationNonce =>
        if h : rotationNonce.length = 32 then
          .pure (.ok (.keyRotate ⟨rotationNonce, h⟩),
            { ch with keyRotateRecvSeq := ch.keyRotateRecvSeq + 1 })
        else .pure (.error .aeadFailure, ch)

def readFrame (opener : Opener Key Nonce 16) (ch : EncryptedChannel) :
    Reader (Except FrameError FrameResult × EncryptedChannel) :=
  .readExact 1 fun typeBuf =>
    if typeBuf.head = frameData then readDataFrame opener ch
    else if typeBuf.head = frameKeyRotate then readKeyRotateFrame opener ch
    else .pure (.error (.invalid s!"unknown frame type: {hexByte typeBuf.head}"), ch)

/-- `read_frame` as the future a `select!` polls: it has taken `taken` from the stream and the
next byte `b` has arrived. `none` means that it is suspended again. -/
def pollFrame (C : CipherSuite) (ch : EncryptedChannel) (taken : Bytes) (b : UInt8) :
    Option (Except FrameError FrameResult × EncryptedChannel) :=
  ((readFrame C.aead.decrypt ch).run (taken ++ [b])).map Prod.fst

/-- What a call of `read_frame` leaves behind. The channel is there in the error case, too, where
it is the one before. -/
structure ReadOutcome where
  result : Except FrameError FrameResult
  channel : EncryptedChannel
  /-- What of the stream was not consumed. -/
  rest : Bytes

/-- `read_frame` on a stream that ends behind `stream`: a `read_exact` that does not find its
bytes consumes what is there and fails. -/
def readStream (opener : Opener Key Nonce 16) (ch : EncryptedChannel) (stream : Bytes) :
    ReadOutcome :=
  match (readFrame opener ch).run stream with
  | some ((result, channel), rest) => { result, channel, rest }
  | none => { result := .error (.io .unexpectedEof), channel := ch, rest := [] }

end EncryptedChannel

/-! ## The two endpoints of a session -/

inductive Side where
  | bridge
  | client
deriving DecidableEq, Repr

def Side.peer : Side → Side
  | bridge => client
  | client => bridge

/-! ## Configuration -/

/-- The range `Config::validate` and `ClientConfig::validate` accept for `max_frame_size`. -/
def ValidFrameSize (n : Nat) : Prop := 1024 ≤ n ∧ n ≤ 16 * 1024 * 1024

instance (n : Nat) : Decidable (ValidFrameSize n) := inferInstanceAs (Decidable (_ ∧ _))

end LatticeShield
