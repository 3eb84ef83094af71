import LatticeShield.Crypto.Channel

/-!
# A cipher suite that can be evaluated

Every result about the channel is stated for an arbitrary `CipherSuite`; this file supplies one
that the kernel can run, for the concrete runs that show a hypothesis is satisfiable or a property
fails. It keeps the laws of the interface and, like the real primitives on the inputs those runs
use, it rejects a ciphertext presented under another key, nonce or associated data: the tag is a
digest of all four inputs, and the derived key a digest of the salt, the old key and the label.
-/

set_option autoImplicit false

namespace LatticeShield.Sample

open Lib

/-- A polynomial digest of a byte string. -/
def digest (bs : Bytes) : Nat := bs.foldl (fun acc b => acc * 257 + b.toNat + 1) 7

def tagOf (k : Key) (n : Nonce) (a p : Bytes) : Tag :=
  ⟨beBytes 16 (digest (k.toList ++ n.toList ++ a ++ p)), length_beBytes _ _⟩

/-- One pad byte for the whole message, from key and nonce. -/
def pad (k : Key) (n : Nonce) : UInt8 := UInt8.ofNat (digest (k.toList ++ n.toList))

theorem xor_pad_cancel (x : UInt8) (bs : Bytes) : (bs.map (· ^^^ x)).map (· ^^^ x) = bs := by
  rw [List.map_map]
  conv => rhs; rw [← List.map_id bs]
  apply List.map_congr_left
  intro b _
  show (b ^^^ x) ^^^ x = b
  rw [UInt8.xor_assoc, UInt8.xor_self, UInt8.xor_zero]

def encrypt (k : Key) (n : Nonce) (a p : Bytes) : Option (Bytes × Tag) :=
  if p.length ≤ 2 ^ 36 then some (p.map (· ^^^ pad k n), tagOf k n a p) else none

def decrypt (k : Key) (n : Nonce) (a c : Bytes) (t : Tag) : Option Bytes :=
  let p := c.map (· ^^^ pad k n)
  if t = tagOf k n a p then some p else none

def aead : Aead Key Nonce 16 where
  maxLen := 2 ^ 36
  encrypt := encrypt
  decrypt := decrypt
  encrypt_isSome_iff k n a p := by
    unfold encrypt
    split
    · rename_i h; exact iff_of_true rfl h
    · rename_i h; exact iff_of_false (by simp) h
  length_ct k n a p c t h := by
    unfold encrypt at h
    split at h
    · simp only [Option.some.injEq, Prod.mk.injEq] at h
      rw [← h.1, List.length_map]
    · exact absurd h (by simp)
  decrypt_encrypt k n a p c t h := by
    unfold encrypt at h
    split at h
    · simp only [Option.some.injEq, Prod.mk.injEq] at h
      obtain ⟨rfl, rfl⟩ := h
      rw [decrypt, xor_pad_cancel, if_pos rfl]
    · exact absurd h (by simp)
  length_plain k n a c t p h := by
    unfold decrypt at h
    dsimp only at h
    split at h
    · simp only [Option.some.injEq] at h
      rw [← h, List.length_map]
    · exact absurd h (by simp)

def suite : CipherSuite where
  aead := aead
  pMax := rfl
  hkdf salt ikm info :=
    ⟨beBytes 32 (digest (salt.toList ++ ikm.toList ++ info)), length_beBytes _ _⟩

/-- The session key of the sample runs. -/
def key : Key := ⟨List.replicate 32 0x42, rfl⟩

/-- A rotation nonce, one for each `b`. -/
def rot (b : UInt8) : RotationNonce := ⟨List.replicate 32 b, rfl⟩

/-- A KEY_ROTATE frame's GCM nonce, one for each `b`. -/
def gcm (b : UInt8) : Nonce := ⟨List.replicate 12 b, rfl⟩

/-- The default `max_frame_size` of both configurations. -/
def frameSize : Nat := 65536

theorem frameSize_valid : ValidFrameSize frameSize := by decide

def channel : EncryptedChannel := .new key frameSize

end LatticeShield.Sample
