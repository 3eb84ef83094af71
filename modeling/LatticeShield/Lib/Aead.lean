import LatticeShield.Lib.Bytes

/-!
# Authenticated encryption with associated data

The interface of an AEAD with a detached tag, as a structure that carries its own laws: what a
program may rely on is what the fields say, and a function that breaks a law is not an `Aead`.
Encryption is a *function* of key, nonce, associated data and plaintext — the nonce is an
argument, so reusing one is a property of the caller and not of the primitive.

No law says that decryption *rejects* anything. That is the ideal-world assumption, and it is
relative to a run: `idealDecrypt log` opens a ciphertext only if some honest party sealed it under
the same key, nonce and associated data. A receiver that reads through `idealDecrypt log` is the
receiver of a run in which nobody forged (`idealDecrypt_eq_decrypt`).
-/

set_option autoImplicit false

namespace Lib

/-- What opens a ciphertext: key, nonce, associated data, ciphertext, tag. -/
abbrev Opener (Key Nonce : Type) (tagLen : Nat) :=
  Key → Nonce → Bytes → Bytes → ByteArr tagLen → Option Bytes

structure Aead (Key Nonce : Type) (tagLen : Nat) where
  /-- The longest plaintext the implementation accepts. -/
  maxLen : Nat
  encrypt : Key → Nonce → Bytes → Bytes → Option (Bytes × ByteArr tagLen)
  decrypt : Opener Key Nonce tagLen
  encrypt_isSome_iff : ∀ k n a p, (encrypt k n a p).isSome ↔ p.length ≤ maxLen
  length_ct : ∀ k n a p c t, encrypt k n a p = some (c, t) → c.length = p.length
  decrypt_encrypt : ∀ k n a p c t, encrypt k n a p = some (c, t) → decrypt k n a c t = some p
  length_plain : ∀ k n a c t p, decrypt k n a c t = some p → p.length = c.length

/-- One sealed message: everything decryption looks at. Two of them are the same message when all
five agree. -/
structure Sealed (Key Nonce : Type) (tagLen : Nat) where
  key : Key
  nonce : Nonce
  aad : Bytes
  ct : Bytes
  tag : ByteArr tagLen
deriving DecidableEq

namespace Aead

variable {Key Nonce : Type} {tagLen : Nat} (A : Aead Key Nonce tagLen)

/-- `e` is the encryption of `p`. -/
def Seals (e : Sealed Key Nonce tagLen) (p : Bytes) : Prop :=
  A.encrypt e.key e.nonce e.aad p = some (e.ct, e.tag)

theorem exists_encrypt {p : Bytes} (k : Key) (n : Nonce) (a : Bytes) (h : p.length ≤ A.maxLen) :
    ∃ c t, A.encrypt k n a p = some (c, t) := by
  obtain ⟨⟨c, t⟩, hct⟩ := Option.isSome_iff_exists.mp ((A.encrypt_isSome_iff k n a p).mpr h)
  exact ⟨c, t, hct⟩

theorem encrypt_eq_none {p : Bytes} (k : Key) (n : Nonce) (a : Bytes)
    (h : ¬ p.length ≤ A.maxLen) : A.encrypt k n a p = none := by
  rw [← Option.not_isSome_iff_eq_none, A.encrypt_isSome_iff]
  exact h

/-- A sealed message determines its plaintext. -/
theorem Seals.inj {A : Aead Key Nonce tagLen} {e : Sealed Key Nonce tagLen} {p q : Bytes}
    (hp : A.Seals e p) (hq : A.Seals e q) : p = q := by
  have h := A.decrypt_encrypt _ _ _ _ _ _ hp
  rw [A.decrypt_encrypt _ _ _ _ _ _ hq] at h
  exact (Option.some.inj h).symm

/-! ## The ideal receiver -/

variable [DecidableEq Key] [DecidableEq Nonce]

/-- Decryption in a run without forgeries: only what `log` records can be opened. It is what
unforgeability comes to in a run, without probabilities. -/
def idealDecrypt (log : List (Sealed Key Nonce tagLen)) : Opener Key Nonce tagLen :=
  fun k n a c t => if ⟨k, n, a, c, t⟩ ∈ log then A.decrypt k n a c t else none

theorem idealDecrypt_eq_some {log : List (Sealed Key Nonce tagLen)} {k : Key} {n : Nonce}
    {a c : Bytes} {t : ByteArr tagLen} {p : Bytes} :
    A.idealDecrypt log k n a c t = some p ↔
      ⟨k, n, a, c, t⟩ ∈ log ∧ A.decrypt k n a c t = some p := by
  unfold idealDecrypt
  by_cases h : (⟨k, n, a, c, t⟩ : Sealed Key Nonce tagLen) ∈ log
  · simp [h]
  · simp [h]

/-- Where no forgery happens the ideal receiver is the real one. -/
theorem idealDecrypt_eq_decrypt {log : List (Sealed Key Nonce tagLen)} {k : Key} {n : Nonce}
    {a c : Bytes} {t : ByteArr tagLen}
    (h : ∀ p, A.decrypt k n a c t = some p → ⟨k, n, a, c, t⟩ ∈ log) :
    A.idealDecrypt log k n a c t = A.decrypt k n a c t := by
  unfold idealDecrypt
  split
  · rfl
  · rename_i hmem
    cases hd : A.decrypt k n a c t with
    | none => rfl
    | some p => exact absurd (h p hd) hmem

end Aead

end Lib
