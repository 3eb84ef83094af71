import LatticeShield.Crypto.Signing
import LatticeShield.Crypto.Channel

/-!
# The hybrid handshake (`latticeshield-crypto/src/handshake.rs`)

X25519 and ML-KEM-768 side by side, with the two shared secrets put through HKDF. The wire is

```
ServerHello            [32B X25519 public][1184B ML-KEM EK][32B nonce]        1248
signed ServerHello     [1248B ServerHello][3309B signature]                   4557
ClientResponse         [32B X25519 public][1088B ML-KEM ciphertext]           1120
signed ClientResponse  [1120B ClientResponse][3309B signature]                4429
```

and the client's signature covers the response *and* the 1248 bytes of the hello it answers. The
buffers are written and read at the source's own offsets, field by field.

X25519, ML-KEM and HKDF come from crates outside the repository and are a parameter
(`HandshakeSuite`), as ML-DSA is. X25519 public keys are their 32 bytes; the ML-KEM keys are
abstract, with an encoding.

A random generator is threaded through: every function that draws from it returns what is left.
-/

set_option autoImplicit false

namespace LatticeShield

open Lib

abbrev sessionKeyLen : Nat := 32
abbrev x25519KeyLen : Nat := 32
abbrev mlkem768EkLen : Nat := 1184
abbrev mlkem768CtLen : Nat := 1088
abbrev helloNonceLen : Nat := 32

abbrev serverHelloLen : Nat := x25519KeyLen + mlkem768EkLen + helloNonceLen
abbrev serverHelloSignedLen : Nat := serverHelloLen + signatureLen
abbrev clientResponseLen : Nat := x25519KeyLen + mlkem768CtLen
abbrev clientResponseSignedLen : Nat := clientResponseLen + signatureLen

/-- `b"latticeshield-v1-session-key"`. -/
def hkdfInfo : Bytes := "latticeshield-v1-session-key".toUTF8.toList

inductive HandshakeError where
  | encapsulate
  | decapsulate
  | hkdf
  | authenticationFailed
  | clientAuthFailed
deriving DecidableEq, Repr

/-- The primitives the handshake is built from. -/
structure HandshakeSuite extends MlDsa where
  /-- `x25519_dalek::EphemeralSecret`. -/
  X25519Secret : Type
  randomFromRng : Rng → X25519Secret × Rng
  x25519Public : X25519Secret → ByteArr x25519KeyLen
  diffieHellman : X25519Secret → ByteArr x25519KeyLen → ByteArr 32
  /-- `<MlKem768 as KemCore>::DecapsulationKey`. -/
  DecapKey : Type
  /-- `<MlKem768 as KemCore>::EncapsulationKey`. -/
  EncapKey : Type
  kemGenerate : Rng → (DecapKey × EncapKey) × Rng
  encapKeyBytes : EncapKey → ByteArr mlkem768EkLen
  encapKeyFromBytes : ByteArr mlkem768EkLen → EncapKey
  encapsulate : EncapKey → Rng → Option (ByteArr mlkem768CtLen × ByteArr 32) × Rng
  decapsulate : DecapKey → ByteArr mlkem768CtLen → Option (ByteArr 32)
  /-- `Hkdf::<Sha256>::new(Some(salt), ikm).expand(info, &mut [0u8; n])`. -/
  hkdfExpand : (salt ikm info : Bytes) → (n : Nat) → Option (ByteArr n)

/-- What the handshake relies on in its primitives. -/
structure HandshakeSuite.Lawful (H : HandshakeSuite) : Prop where
  diffieHellman_comm : ∀ a b,
    H.diffieHellman a (H.x25519Public b) = H.diffieHellman b (H.x25519Public a)
  decapsulate_encapsulate : ∀ rng dk ek rng', H.kemGenerate rng = ((dk, ek), rng') →
    ∀ r ct ss r', H.encapsulate ek r = (some (ct, ss), r') → H.decapsulate dk ct = some ss
  encapKey_roundTrip : ∀ ek, H.encapKeyFromBytes (H.encapKeyBytes ek) = ek
  signatures : H.toMlDsa.Correct

variable (H : HandshakeSuite)

structure ClientHello where
  x25519Public : ByteArr x25519KeyLen
  kemEncapKey : H.EncapKey
  nonce : ByteArr helloNonceLen

structure ClientResponse where
  x25519Public : ByteArr x25519KeyLen
  kemCiphertext : ByteArr mlkem768CtLen
deriving DecidableEq

structure ServerHandshake where
  x25519Secret : H.X25519Secret
  kemDecapKey : H.DecapKey
  kemEncapKey : H.EncapKey
  nonce : ByteArr helloNonceLen
  /-- Serialised once, when the handshake is made. -/
  serverHelloRaw : ByteArr serverHelloLen

/-! ## Key derivation -/

def deriveSessionKey (x25519Secret kemSecret : Bytes) (nonce : ByteArr helloNonceLen) :
    Except HandshakeError Key :=
  let ikm := x25519Secret ++ kemSecret
  match H.hkdfExpand nonce.toList ikm hkdfInfo sessionKeyLen with
  | none => .error .hkdf
  | some okm => .ok okm

/-! ## The server -/

namespace ServerHandshake

variable {H}

def new (rng : Rng) : ServerHandshake H × Rng :=
  let (x25519Secret, rng) := H.randomFromRng rng
  let ((kemDecapKey, kemEncapKey), rng) := H.kemGenerate rng
  let (nonce, rng) := rng.fill helloNonceLen
  let raw := ByteArr.zeros serverHelloLen
  let raw := raw.copyFromSlice 0 (H.x25519Public x25519Secret)
  let raw := raw.copyFromSlice x25519KeyLen (H.encapKeyBytes kemEncapKey)
  let raw := raw.copyFromSlice (x25519KeyLen + mlkem768EkLen) nonce
  ({ x25519Secret, kemDecapKey, kemEncapKey, nonce, serverHelloRaw := raw }, rng)

def serverHelloBytes (server : ServerHandshake H) : ByteArr serverHelloLen := server.serverHelloRaw

def serverHelloSignedBytes (server : ServerHandshake H) (signingKey : SigningKey) (rng : Rng) :
    Except HandshakeError (ByteArr serverHelloSignedLen) × Rng :=
  let hello := server.serverHelloBytes
  match sign H.toMlDsa signingKey hello.toList rng with
  | (.error _, rng) => (.error .authenticationFailed, rng)
  | (.ok sig, rng) =>
    let buf := ByteArr.zeros serverHelloSignedLen
    let buf := buf.copyFromSlice 0 hello
    let buf := buf.copyFromSlice serverHelloLen sig
    (.ok buf, rng)

def complete (server : ServerHandshake H) (response : ClientResponse) :
    Except HandshakeError Key :=
  let x25519Shared := H.diffieHellman server.x25519Secret response.x25519Public
  match H.decapsulate server.kemDecapKey response.kemCiphertext with
  | none => .error .decapsulate
  | some kemShared => deriveSessionKey H x25519Shared.toList kemShared.toList server.nonce

def completeFromWire (server : ServerHandshake H) (bytes : ByteArr clientResponseLen) :
    Except HandshakeError Key :=
  server.complete
    { x25519Public := bytes.slice 0 x25519KeyLen
      kemCiphertext := bytes.slice x25519KeyLen mlkem768CtLen }

/-- The message a signed response is checked against: `CR_bytes || server_hello`. -/
def signedMessage (crBytes : ByteArr clientResponseLen) (serverHello : ByteArr serverHelloLen) :
    ByteArr (clientResponseLen + serverHelloLen) :=
  let message := ByteArr.zeros (clientResponseLen + serverHelloLen)
  let message := message.copyFromSlice 0 crBytes
  message.copyFromSlice clientResponseLen serverHello

def completeFromWireSigned (server : ServerHandshake H) (bytes : ByteArr clientResponseSignedLen)
    (clientVk : VerifyingKey) : Except HandshakeError Key :=
  let crBytes := bytes.slice 0 clientResponseLen
  let sigBytes := bytes.slice clientResponseLen signatureLen
  let message := signedMessage crBytes server.serverHelloRaw
  match Signature.fromBytes sigBytes.toList with
  | .error _ => .error .clientAuthFailed
  | .ok sig =>
    match verify H.toMlDsa clientVk message.toList sig with
    | .error _ => .error .clientAuthFailed
    | .ok () => server.completeFromWire crBytes

end ServerHandshake

/-! ## The client -/

def parseServerHello (bytes : ByteArr serverHelloLen) : ClientHello H where
  x25519Public := bytes.slice 0 x25519KeyLen
  kemEncapKey := H.encapKeyFromBytes (bytes.slice x25519KeyLen mlkem768EkLen)
  nonce := bytes.slice (x25519KeyLen + mlkem768EkLen) helloNonceLen

def parseServerHelloSigned (bytes : ByteArr serverHelloSignedLen) (vk : VerifyingKey) :
    Except HandshakeError (ClientHello H) :=
  let helloBytes := bytes.slice 0 serverHelloLen
  match Signature.fromBytes (bytes.slice serverHelloLen signatureLen).toList with
  | .error _ => .error .authenticationFailed
  | .ok sig =>
    match verify H.toMlDsa vk helloBytes.toList sig with
    | .error _ => .error .authenticationFailed
    | .ok () => .ok (parseServerHello H helloBytes)

def serializeClientResponse (response : ClientResponse) : ByteArr clientResponseLen :=
  let buf := ByteArr.zeros clientResponseLen
  let buf := buf.copyFromSlice 0 response.x25519Public
  buf.copyFromSlice x25519KeyLen response.kemCiphertext

def serializeClientResponseSigned (resp : ClientResponse) (sk : SigningKey)
    (serverHello : ByteArr serverHelloLen) (rng : Rng) :
    Except HandshakeError (ByteArr clientResponseSignedLen) × Rng :=
  let crBytes := serializeClientResponse resp
  let message := ServerHandshake.signedMessage crBytes serverHello
  match sign H.toMlDsa sk message.toList rng with
  | (.error _, rng) => (.error .clientAuthFailed, rng)
  | (.ok sig, rng) =>
    let buf := ByteArr.zeros clientResponseSignedLen
    let buf := buf.copyFromSlice 0 crBytes
    let buf := buf.copyFromSlice clientResponseLen sig
    (.ok buf, rng)

variable {H} in
def clientRespond (hello : ClientHello H) (rng : Rng) :
    Except HandshakeError (ClientResponse × Key) × Rng :=
  let (clientX25519Secret, rng) := H.randomFromRng rng
  let clientX25519Public := H.x25519Public clientX25519Secret
  let x25519Shared := H.diffieHellman clientX25519Secret hello.x25519Public
  match H.encapsulate hello.kemEncapKey rng with
  | (none, rng) => (.error .encapsulate, rng)
  | (some (kemCiphertext, kemShared), rng) =>
    match deriveSessionKey H x25519Shared.toList kemShared.toList hello.nonce with
    | .error e => (.error e, rng)
    | .ok sessionKey =>
      (.ok ({ x25519Public := clientX25519Public, kemCiphertext }, sessionKey), rng)

end LatticeShield
