import LatticeShield.Lib.Buffer

/-!
# Signatures (`latticeshield-crypto/src/signing.rs`)

ML-DSA-65 behind three newtypes over fixed-size byte arrays. The scheme itself is `libcrux_ml_dsa`,
outside the repository: a parameter (`MlDsa`) whose functions are functions of bytes. Everything
LatticeShield signs or verifies goes through `sign` and `verify` with the one context string.

What is assumed of the scheme is stated where it is used: `MlDsa.Correct` (verify accepts what sign
made) and `MlDsa.Ideal` (verify accepts nothing else, relative to a log of what was signed).
-/

set_option autoImplicit false

namespace LatticeShield

open Lib

abbrev signingKeyLen : Nat := 4032
abbrev verifyingKeyLen : Nat := 1952
abbrev signatureLen : Nat := 3309

/-- `b"latticeshield-v1"`. -/
def signingContext : Bytes := "latticeshield-v1".toUTF8.toList

abbrev SigningKey := ByteArr signingKeyLen
abbrev VerifyingKey := ByteArr verifyingKeyLen
abbrev Signature := ByteArr signatureLen

inductive SigningError where
  | signing
  | verification
  | invalidLength
deriving DecidableEq, Repr

def SigningError.display : SigningError → String
  | .signing => "ML-DSA-65 signing operation failed"
  | .verification => "ML-DSA-65 signature verification failed"
  | .invalidLength => "invalid key or signature byte length"

/-- `ml_dsa_65::portable`. Signing may give up (rejection sampling). Verification is a function of
its arguments, and no key is ill-formed for it. -/
structure MlDsa where
  generateKeyPair : ByteArr 32 → SigningKey × VerifyingKey
  sign : SigningKey → (msg context : Bytes) → (randomness : ByteArr 32) → Option Signature
  verify : VerifyingKey → (msg context : Bytes) → Signature → Bool

/-- The three newtypes' `from_bytes`, which look at the length and at nothing else. -/
def arrayFromBytes (n : Nat) (bytes : Bytes) : Except SigningError (ByteArr n) :=
  match ByteArr.tryInto n bytes with
  | none => .error .invalidLength
  | some arr => .ok arr

def SigningKey.fromBytes (bytes : Bytes) : Except SigningError SigningKey :=
  arrayFromBytes signingKeyLen bytes

def VerifyingKey.fromBytes (bytes : Bytes) : Except SigningError VerifyingKey :=
  arrayFromBytes verifyingKeyLen bytes

def Signature.fromBytes (bytes : Bytes) : Except SigningError Signature :=
  arrayFromBytes signatureLen bytes

@[simp] theorem arrayFromBytes_toList {n : Nat} (v : ByteArr n) :
    arrayFromBytes n v.toList = .ok v := by
  rw [arrayFromBytes, ByteArr.tryInto_toList]

theorem arrayFromBytes_eq_ok {n : Nat} {bytes : Bytes} {v : ByteArr n} :
    arrayFromBytes n bytes = .ok v ↔ bytes = v.toList := by
  rw [arrayFromBytes, ← ByteArr.tryInto_eq_some]
  cases ByteArr.tryInto n bytes <;> simp

def generateKeypair (D : MlDsa) (rng : Rng) : (SigningKey × VerifyingKey) × Rng :=
  let (seed, rng) := rng.fill 32
  (D.generateKeyPair seed, rng)

def sign (D : MlDsa) (key : SigningKey) (msg : Bytes) (rng : Rng) :
    Except SigningError Signature × Rng :=
  let (randomness, rng) := rng.fill 32
  match D.sign key msg signingContext randomness with
  | none => (.error .signing, rng)
  | some sig => (.ok sig, rng)

def verify (D : MlDsa) (key : VerifyingKey) (msg : Bytes) (sig : Signature) :
    Except SigningError Unit :=
  if D.verify key msg signingContext sig then .ok () else .error .verification

/-! ## What is assumed of the scheme -/

namespace MlDsa

variable (D : MlDsa)

/-- The two halves of one generated pair. -/
def Matches (sk : SigningKey) (vk : VerifyingKey) : Prop := ∃ seed, D.generateKeyPair seed = (sk, vk)

/-- Verification accepts what the matching key signed. -/
def Correct : Prop :=
  ∀ sk vk, D.Matches sk vk → ∀ msg context randomness sig,
    D.sign sk msg context randomness = some sig → D.verify vk msg context sig = true

/-- One signature made with the signing key of `vk` under LatticeShield's context. The signature's
bytes are not in it: who verifies knows that something was signed, not which bytes came of it. -/
structure Signed where
  vk : VerifyingKey
  msg : Bytes
deriving DecidableEq

/-- An ideal scheme in a world in which exactly `log` was signed: what verifies was signed, and a
signature is a signature on one message. -/
structure Ideal (log : Set Signed) : Prop where
  signed : ∀ vk msg sig, D.verify vk msg signingContext sig = true → ⟨vk, msg⟩ ∈ log
  bound : ∀ vk msg msg' sig, D.verify vk msg signingContext sig = true →
    D.verify vk msg' signingContext sig = true → msg = msg'

end MlDsa

variable {D : MlDsa}

theorem verify_eq_ok {key : VerifyingKey} {msg : Bytes} {sig : Signature} :
    verify D key msg sig = .ok () ↔ D.verify key msg signingContext sig = true := by
  unfold verify
  split
  · rename_i h; exact iff_of_true rfl h
  · rename_i h; exact iff_of_false (by simp) h

/-- What `sign` returned verifies. -/
theorem verify_of_sign (hD : D.Correct) {sk : SigningKey} {vk : VerifyingKey}
    (hpair : D.Matches sk vk) {msg : Bytes} {rng rng' : Rng} {sig : Signature}
    (h : sign D sk msg rng = (.ok sig, rng')) : verify D vk msg sig = .ok () := by
  rw [verify_eq_ok]
  unfold sign at h
  cases hsign : D.sign sk msg signingContext (rng.fill 32).1 with
  | none => simp [hsign] at h
  | some s =>
    simp only [hsign, Prod.mk.injEq, Except.ok.injEq] at h
    rw [← h.1]
    exact hD sk vk hpair _ _ _ _ hsign

end LatticeShield
