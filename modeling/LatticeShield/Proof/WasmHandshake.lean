import LatticeShield.Wasm.Handshake
import LatticeShield.Proof.Handshake

/-!
# The browser's handshake is the native one

The WebAssembly crate writes the client half of the handshake a second time. `nativeResponse` is
what a native client does with the same bytes, in the same order; the two agree on every hello
buffer of every length, every verifying key of every length and every stream of random bytes: one
answers exactly when the other does, and then with the same bytes.
-/

set_option autoImplicit false

namespace LatticeShield

open Lib

variable (H : HandshakeSuite)

/-- The native client: decode the key, take the hello as its array, parse and verify it, respond,
serialise. `none` is an `Err` of any of them. -/
def nativeResponse (serverHelloSigned serverVkBytes : Bytes) (rng : Rng) :
    Option (ByteArr clientResponseLen × Key) := do
  let vk ← (VerifyingKey.fromBytes serverVkBytes).toOption
  let bytes ← ByteArr.tryInto serverHelloSignedLen serverHelloSigned
  let hello ← (parseServerHelloSigned H bytes vk).toOption
  let (response, sessionKey) ← (clientRespond hello rng).1.toOption
  return (serializeClientResponse response, sessionKey)

/-- The two `ClientHello`s hold the same fields. The modules do not share their types, so one is
turned into the other. -/
def nativeHello {H : HandshakeSuite} (hello : Wasm.ClientHello H) : ClientHello H where
  x25519Public := hello.x25519Public
  kemEncapKey := hello.kemEncapKey
  nonce := hello.nonce

theorem wasm_parseServerHelloSigned_eq (bytes : ByteArr serverHelloSignedLen) (vk : VerifyingKey) :
    Wasm.parseServerHelloSigned H bytes vk.toList =
      if H.verify vk (bytes.slice 0 serverHelloLen).toList signingContext
          (bytes.slice serverHelloLen signatureLen) then
        .ok (Wasm.parseServerHello H (bytes.slice 0 serverHelloLen))
      else .error (.handshakeError "server authentication failed") := by
  unfold Wasm.parseServerHelloSigned Wasm.signatureFromBytes Wasm.verifyingKeyFromBytes
  rw [ByteArr.tryInto_toList, ByteArr.tryInto_toList]
  rfl

/-- The second `client_respond` answers what the first one answers, serialised. They draw the same
random bytes in the same order. -/
theorem wasm_clientRespond_toOption (hello : Wasm.ClientHello H) (rng : Rng) :
    (Wasm.clientRespond hello rng).toOption =
      (clientRespond (nativeHello hello) rng).1.toOption.map
        fun (response, sessionKey) => (serializeClientResponse response, sessionKey) := by
  unfold Wasm.clientRespond clientRespond
  dsimp only [nativeHello]
  rcases H.encapsulate hello.kemEncapKey (H.randomFromRng rng).2 with ⟨_ | ⟨ct, ss⟩, rng'⟩
  · rfl
  · unfold Wasm.deriveSessionKey deriveSessionKey
    dsimp only
    show Except.toOption (Except.bind _ _) = _
    -- the salt, the input and the label are the same bytes
    cases hkdf : H.hkdfExpand hello.nonce.toList
        ((H.diffieHellman (H.randomFromRng rng).1 hello.x25519Public).toList ++ ss.toList) hkdfInfo
        sessionKeyLen with
    | none =>
      have hkdf' : H.hkdfExpand hello.nonce.toList
        ((H.diffieHellman (H.randomFromRng rng).1 hello.x25519Public).toList ++ ss.toList)
        Wasm.hkdfInfo Wasm.sessionKeyLen = none := hkdf
      rw [hkdf']
      rfl
    | some okm =>
      have hkdf' : H.hkdfExpand hello.nonce.toList
        ((H.diffieHellman (H.randomFromRng rng).1 hello.x25519Public).toList ++ ss.toList)
        Wasm.hkdfInfo Wasm.sessionKeyLen = some okm := hkdf
      rw [hkdf']
      rfl

/-- What the second implementation returns is what the first returns, as slices. -/
theorem wasm_generateClientResponse_toOption (serverHelloSigned serverVkBytes : Bytes) (rng : Rng) :
    (Wasm.generateClientResponse H serverHelloSigned serverVkBytes rng).toOption =
      (nativeResponse H serverHelloSigned serverVkBytes rng).map
        fun (cr, key) => (cr.toList, key.toList) := by
  unfold Wasm.generateClientResponse nativeResponse VerifyingKey.fromBytes arrayFromBytes
  -- the wasm module checks both lengths first, the native one in the two `try_into` conversions
  by_cases hhello : serverHelloSigned.length = serverHelloSignedLen
  · by_cases hvk : serverVkBytes.length = verifyingKeyLen
    · obtain ⟨bytes, rfl⟩ : ∃ v : ByteArr serverHelloSignedLen, serverHelloSigned = v.toList :=
        ⟨⟨serverHelloSigned, hhello⟩, rfl⟩
      obtain ⟨vk, rfl⟩ : ∃ v : VerifyingKey, serverVkBytes = v.toList := ⟨⟨serverVkBytes, hvk⟩, rfl⟩
      rw [if_neg (not_not.mpr hhello), if_neg (not_not.mpr hvk), ByteArr.tryInto_toList,
        ByteArr.tryInto_toList]
      dsimp only
      rw [wasm_parseServerHelloSigned_eq]
      show _ = Option.map _ (Option.bind (parseServerHelloSigned H bytes vk).toOption _)
      rw [parseServerHelloSigned_eq]
      cases H.verify vk (bytes.slice 0 serverHelloLen).toList signingContext
          (bytes.slice serverHelloLen signatureLen) with
      -- a bad signature is refused by both, with different errors that `toOption` forgets
      | false => rfl
      | true =>
        have hrespond := wasm_clientRespond_toOption H
          (Wasm.parseServerHello H (bytes.slice 0 serverHelloLen)) rng
        show Except.toOption (Except.bind (Wasm.clientRespond
          (Wasm.parseServerHello H (bytes.slice 0 serverHelloLen)) rng) _) = Option.map _
            (Option.bind (clientRespond (parseServerHello H (bytes.slice 0 serverHelloLen))
              rng).1.toOption _)
        cases hwasm : Wasm.clientRespond
            (Wasm.parseServerHello H (bytes.slice 0 serverHelloLen)) rng with
        -- the remaining steps are the same functions, so both succeed or neither
        | error e =>
          rw [hwasm] at hrespond
          have hnone := Option.map_eq_none_iff.mp hrespond.symm
          rw [show (clientRespond (parseServerHello H (bytes.slice 0 serverHelloLen))
            rng).1.toOption = none from hnone]
          rfl
        | ok answer =>
          rw [hwasm] at hrespond
          obtain ⟨⟨response, sessionKey⟩, hsome, rfl⟩ := Option.map_eq_some_iff.mp hrespond.symm
          rw [show (clientRespond (parseServerHello H (bytes.slice 0 serverHelloLen))
            rng).1.toOption = some (response, sessionKey) from hsome]
          rfl
    · rw [if_neg (not_not.mpr hhello), if_pos hvk, ByteArr.tryInto_eq_none.mpr hvk]
      rfl
  · rw [if_pos hhello, ByteArr.tryInto_eq_none.mpr hhello]
    cases ByteArr.tryInto verifyingKeyLen serverVkBytes <;> rfl

theorem toOption_eq_some {ε α : Type} {x : Except ε α} {a : α} :
    x.toOption = some a ↔ x = .ok a := by
  cases x with
  | error e => simp [Except.toOption]
  | ok b => simp [Except.toOption]

/-- **The WebAssembly handshake is the native one**: for every hello buffer, every verifying key
and every stream of random bytes, one returns `Ok` exactly when the other does, and then the 1120
response bytes and the 32 bytes of the session key are the same. -/
theorem wasm_handshake_eq_native (serverHelloSigned serverVkBytes : Bytes) (rng : Rng)
    (cr key : Bytes) :
    Wasm.generateClientResponse H serverHelloSigned serverVkBytes rng = .ok (cr, key) ↔
      cr.length = 1120 ∧ key.length = 32 ∧
      ∃ (response : ByteArr clientResponseLen) (sessionKey : Key),
        nativeResponse H serverHelloSigned serverVkBytes rng = some (response, sessionKey) ∧
        response.toList = cr ∧ sessionKey.toList = key := by
  rw [← toOption_eq_some, wasm_generateClientResponse_toOption, Option.map_eq_some_iff]
  constructor
  · rintro ⟨⟨response, sessionKey⟩, hnative, heq⟩
    obtain ⟨rfl, rfl⟩ := Prod.mk.inj heq
    exact ⟨response.toList_length, sessionKey.toList_length, response, sessionKey, hnative, rfl,
      rfl⟩
  · rintro ⟨-, -, response, sessionKey, hnative, rfl, rfl⟩
    exact ⟨(response, sessionKey), hnative, rfl⟩

end LatticeShield
