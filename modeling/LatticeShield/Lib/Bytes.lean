import Mathlib.Data.List.Induction
import Mathlib.Data.Vector.Basic

/-!
# Byte strings and big-endian words

A wire format is a list of bytes, a fixed-size buffer (`[u8; n]`, `Uint8Array(n)`) is a
`List.Vector UInt8 n`, and a machine word goes on the wire as its base-256 digits, most
significant first. Nothing here knows about any particular protocol.

The two facts everything downstream spends are the two round trips of the word encodings:
`beNat (beBytes w n) = n` below `256 ^ w` (what a *reader* of an honest frame needs) and
`beBytes bs.length (beNat bs) = bs` with no side condition at all (what a *parser of arbitrary
bytes* needs: re-encoding the number it read gives back the very bytes it read).
-/

set_option autoImplicit false

namespace Lib

abbrev Bytes := List UInt8

/-- A buffer of exactly `n` bytes. -/
abbrev ByteArr (n : Nat) := List.Vector UInt8 n

/-! ## Fixed buffers -/

theorem ByteArr.toList_inj {n : Nat} {u v : ByteArr n} : u.toList = v.toList ↔ u = v :=
  ⟨fun h => Subtype.ext h, fun h => h ▸ rfl⟩

/-- Two equal byte strings that both start with an `n`-byte buffer start with the same one. -/
theorem ByteArr.append_inj {n : Nat} {u v : ByteArr n} {a b : Bytes}
    (h : u.toList ++ a = v.toList ++ b) : u = v ∧ a = b := by
  have hlen : u.toList.length = v.toList.length := by simp
  obtain ⟨huv, hab⟩ := List.append_inj h hlen
  exact ⟨ByteArr.toList_inj.mp huv, hab⟩

/-! ## Big-endian numbers -/

/-- The number whose base-256 digits are `bs`, most significant first. -/
def beNat (bs : Bytes) : Nat := bs.foldl (fun acc b => acc * 256 + b.toNat) 0

/-- The `w` low base-256 digits of `n`, most significant first. -/
def beBytes : Nat → Nat → Bytes
  | 0, _ => []
  | w + 1, n => beBytes w (n / 256) ++ [UInt8.ofNat (n % 256)]

@[simp] theorem length_beBytes (w n : Nat) : (beBytes w n).length = w := by
  induction w generalizing n with
  | zero => rfl
  | succ w ih => simp [beBytes, ih]

theorem beNat_snoc (bs : Bytes) (b : UInt8) : beNat (bs ++ [b]) = beNat bs * 256 + b.toNat := by
  simp [beNat]

theorem beNat_lt (bs : Bytes) : beNat bs < 256 ^ bs.length := by
  induction bs using List.reverseRecOn with
  | nil => simp [beNat]
  | append_singleton bs b ih =>
    have hb := b.toNat_lt
    rw [beNat_snoc, List.length_append, List.length_singleton, Nat.pow_succ]
    omega

/-- Below `256 ^ w` nothing is truncated. -/
theorem beNat_beBytes {w n : Nat} (h : n < 256 ^ w) : beNat (beBytes w n) = n := by
  induction w generalizing n with
  | zero => simp at h; simp [beBytes, beNat, h]
  | succ w ih =>
    have hdiv : n / 256 < 256 ^ w := by
      rw [Nat.pow_succ] at h
      exact Nat.div_lt_of_lt_mul (by omega)
    have hdigit : (UInt8.ofNat (n % 256)).toNat = n % 256 := by
      rw [UInt8.toNat_ofNat']
      exact Nat.mod_eq_of_lt (by omega)
    rw [beBytes, beNat_snoc, ih hdiv, hdigit]
    omega

/-- Re-encoding a number read off the wire gives the bytes it was read from. -/
theorem beBytes_beNat (bs : Bytes) : beBytes bs.length (beNat bs) = bs := by
  induction bs using List.reverseRecOn with
  | nil => rfl
  | append_singleton bs b ih =>
    have hb := b.toNat_lt
    have hdiv : (beNat bs * 256 + b.toNat) / 256 = beNat bs := by omega
    have hmod : (beNat bs * 256 + b.toNat) % 256 = b.toNat := by omega
    rw [List.length_append, List.length_singleton, beNat_snoc, beBytes, hdiv, hmod, ih,
      UInt8.ofNat_toNat]

/-! ## Machine words -/

/-- `u64::to_be_bytes`. -/
def u64ToBe (x : UInt64) : ByteArr 8 := ⟨beBytes 8 x.toNat, length_beBytes _ _⟩

/-- `u64::from_be_bytes`. -/
def u64OfBe (v : ByteArr 8) : UInt64 := UInt64.ofNat (beNat v.toList)

/-- `u32::to_be_bytes`. -/
def u32ToBe (x : UInt32) : ByteArr 4 := ⟨beBytes 4 x.toNat, length_beBytes _ _⟩

/-- `u32::from_be_bytes`. -/
def u32OfBe (v : ByteArr 4) : UInt32 := UInt32.ofNat (beNat v.toList)

@[simp] theorem u64OfBe_u64ToBe (x : UInt64) : u64OfBe (u64ToBe x) = x := by
  have hx := x.toNat_lt
  simp only [u64OfBe, u64ToBe, List.Vector.toList_mk]
  rw [beNat_beBytes (by omega), UInt64.ofNat_toNat]

@[simp] theorem u64ToBe_u64OfBe (v : ByteArr 8) : u64ToBe (u64OfBe v) = v := by
  have hv := beNat_lt v.toList
  have hlen : v.toList.length = 8 := v.toList_length
  have hnat : (u64OfBe v).toNat = beNat v.toList := by
    rw [u64OfBe, UInt64.toNat_ofNat']
    exact Nat.mod_eq_of_lt (by rw [hlen] at hv; omega)
  apply ByteArr.toList_inj.mp
  rw [u64ToBe, List.Vector.toList_mk, hnat]
  simpa only [hlen] using beBytes_beNat v.toList

@[simp] theorem u32OfBe_u32ToBe (x : UInt32) : u32OfBe (u32ToBe x) = x := by
  have hx := x.toNat_lt
  simp only [u32OfBe, u32ToBe, List.Vector.toList_mk]
  rw [beNat_beBytes (by omega), UInt32.ofNat_toNat]

@[simp] theorem u32ToBe_u32OfBe (v : ByteArr 4) : u32ToBe (u32OfBe v) = v := by
  have hv := beNat_lt v.toList
  have hlen : v.toList.length = 4 := v.toList_length
  have hnat : (u32OfBe v).toNat = beNat v.toList := by
    rw [u32OfBe, UInt32.toNat_ofNat']
    exact Nat.mod_eq_of_lt (by rw [hlen] at hv; omega)
  apply ByteArr.toList_inj.mp
  rw [u32ToBe, List.Vector.toList_mk, hnat]
  simpa only [hlen] using beBytes_beNat v.toList

theorem u64ToBe_inj {x y : UInt64} : u64ToBe x = u64ToBe y ↔ x = y :=
  ⟨fun h => by rw [← u64OfBe_u64ToBe x, h, u64OfBe_u64ToBe], fun h => h ▸ rfl⟩

theorem u32ToBe_inj {x y : UInt32} : u32ToBe x = u32ToBe y ↔ x = y :=
  ⟨fun h => by rw [← u32OfBe_u32ToBe x, h, u32OfBe_u32ToBe], fun h => h ▸ rfl⟩

end Lib
