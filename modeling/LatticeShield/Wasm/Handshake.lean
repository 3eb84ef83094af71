import LatticeShield.Crypto.Handshake

/-!
# The WebAssembly client handshake (`latticeshield-wasm/src/handshake.rs`, `signing.rs`)

The client half of the handshake, written a second time for the browser: its own constants, its
own length checks (on plain slices, before anything else), its own calls of ML-DSA with its own
context string, and a `client_respond` that serialises the response itself. Nothing of the native
crate is used, so nothing of its model is used here either; the primitives are the same crates and
hence the same `HandshakeSuite`.

`OsRng` is the stream of bytes it gives. `map_err` on the conversion of a range of a fixed-size
array to an array of that size never runs, and the conversion is a `slice` here.
-/

set_option autoImplicit false

namespace LatticeShield.Wasm

open Lib

abbrev verifyingKeyLen : Nat := 1952
abbrev signatureLen : Nat := 3309

abbrev x25519KeyLen : Nat := 32
abbrev mlkem768EkLen : Nat := 1184
abbrev mlkem768CtLen : Nat := 1088
abbrev nonceLen : Nat := 32
abbrev serverHelloLen : Nat := x25519KeyLen + mlkem768EkLen + nonceLen
abbrev serverHelloSignedLen : Nat := serverHelloLen + signatureLen
abbrev clientResponseLen : Nat := x25519KeyLen + mlkem768CtLen
abbrev sessionKeyLen : Nat := 32

/-- `b"latticeshield-v1-session-key"`. -/
def hkdfInfo : Bytes := "latticeshield-v1-session-key".toUTF8.toList

/-- `b"latticeshield-v1"`. -/
def signingContext : Bytes := "latticeshield-v1".toUTF8.toList

/-- `WasmError`, as far as the handshake raises it. Its texts are its own and differ from those of
the native crate. -/
inductive WasmError where
  | invalidKeyLength (expected got : Nat)
  | invalidSignatureLength (expected got : Nat)
  | handshakeError (msg : String)
deriving DecidableEq, Repr

def verifyingKeyFromBytes (bytes : Bytes) : Except WasmError (ByteArr verifyingKeyLen) :=
  match ByteArr.tryInto verifyingKeyLen bytes with
  | none => .error (.invalidKeyLength verifyingKeyLen bytes.length)
  | some arr => .ok arr

def signatureFromBytes (bytes : Bytes) : Except WasmError (ByteArr signatureLen) :=
  match ByteArr.tryInto signatureLen bytes with
  | none => .error (.invalidSignatureLength signatureLen bytes.length)
  | some arr => .ok arr

variable (H : HandshakeSuite)

structure ClientHello where
  x25519Public : ByteArr x25519KeyLen
  kemEncapKey : H.EncapKey
  nonce : ByteArr nonceLen

def parseServerHello (bytes : ByteArr serverHelloLen) : ClientHello H where
  x25519Public := bytes.slice 0 x25519KeyLen
  kemEncapKey := H.encapKeyFromBytes (bytes.slice x25519KeyLen mlkem768EkLen)
  nonce := bytes.slice (x25519KeyLen + mlkem768EkLen) nonceLen

def parseServerHelloSigned (bytes : ByteArr serverHelloSignedLen) (vkBytes : Bytes) :
    Except WasmError (ClientHello H) := do
  let helloBytes := bytes.slice 0 serverHelloLen
  let sig ← signatureFromBytes (bytes.slice serverHelloLen signatureLen).toList
  let vk ← verifyingKeyFromBytes vkBytes
  if H.verify vk helloBytes.toList signingContext sig then
    .ok (parseServerHello H helloBytes)
  else .error (.handshakeError "server authentication failed")

def deriveSessionKey (x25519Secret kemSecret : Bytes) (nonce : ByteArr nonceLen) :
    Except WasmError (ByteArr sessionKeyLen) :=
  let ikm := x25519Secret ++ kemSecret
  match H.hkdfExpand nonce.toList ikm hkdfInfo sessionKeyLen with
  | none => .error (.handshakeError "HKDF expansion failed")
  | some okm => .ok okm

variable {H} in
def clientRespond (hello : ClientHello H) (rng : Rng) :
    Except WasmError (ByteArr clientResponseLen × ByteArr sessionKeyLen) :=
  let (clientX25519Secret, rng) := H.randomFromRng rng
  let clientX25519Public := H.x25519Public clientX25519Secret
  let x25519Shared := H.diffieHellman clientX25519Secret hello.x25519Public
  match H.encapsulate hello.kemEncapKey rng with
  | (none, _) => .error (.handshakeError "ML-KEM encapsulation failed")
  | (some (kemCiphertext, kemShared), _) => do
    let sessionKey ← deriveSessionKey H x25519Shared.toList kemShared.toList hello.nonce
    let cr := ByteArr.zeros clientResponseLen
    let cr := cr.copyFromSlice 0 clientX25519Public
    let cr := cr.copyFromSlice x25519KeyLen kemCiphertext
    return (cr, sessionKey)

/-- `generate_client_response`, the exported function. Both lengths are checked before anything is
parsed, the hello's first. -/
def generateClientResponse (serverHelloSigned serverVkBytes : Bytes) (rng : Rng) :
    Except WasmError (Bytes × Bytes) :=
  if serverHelloSigned.length ≠ serverHelloSignedLen then
    .error (.handshakeError s!"server_hello_signed must be {serverHelloSignedLen} bytes, got {serverHelloSigned.length}")
  else if serverVkBytes.length ≠ verifyingKeyLen then
    .error (.invalidKeyLength verifyingKeyLen serverVkBytes.length)
  else
    match ByteArr.tryInto serverHelloSignedLen serverHelloSigned with
    | none => .error (.handshakeError "server_hello_signed slice conversion failed")
    | some signedArr => do
      let hello ← parseServerHelloSigned H signedArr serverVkBytes
      let (crBytes, sessionKeyBytes) ← clientRespond hello rng
      return (crBytes.toList, sessionKeyBytes.toList)

end LatticeShield.Wasm
