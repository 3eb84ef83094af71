import Mathlib.Algebra.Group.Int.Defs
import Mathlib.Algebra.Group.Nat.Defs

/-!
# Arithmetic of fixed width

Machine operations wrap around, and casts between the types of one width keep the bits and may
change the value. `Checked` carries along whether that has happened: its `value` is what the
machine computes, and `fits` says that every operation up to it was exact, so that a computation
which `fits` is one on integers.
-/

set_option autoImplicit false

namespace Lib

universe u

structure Checked (α : Type u) where
  value : α
  /-- Nothing has wrapped around. -/
  fits : Bool
deriving DecidableEq, Repr

namespace Checked

instance : Monad Checked where
  pure a := ⟨a, true⟩
  bind x f := ⟨(f x.value).value, x.fits && (f x.value).fits⟩

variable {α β : Type u}

@[simp] theorem fits_bind (x : Checked α) (f : α → Checked β) :
    (x >>= f).fits = (x.fits && (f x.value).fits) := rfl

end Checked

/-! ## Unsigned -/

def addU64 (a b : UInt64) : Checked UInt64 := ⟨a + b, decide (a.toNat + b.toNat < 2 ^ 64)⟩

def mulU64 (a b : UInt64) : Checked UInt64 := ⟨a * b, decide (a.toNat * b.toNat < 2 ^ 64)⟩

/-- `a << n`, where the width of the shift is what must fit: bits may fall off. -/
def shlU64 (a : UInt64) (n : UInt32) : Checked UInt64 :=
  ⟨a <<< n.toUInt64, decide (n.toNat < 64)⟩

def saturatingMul (a b : UInt64) : UInt64 := UInt64.ofNat (min (a.toNat * b.toNat) (2 ^ 64 - 1))

theorem toNat_addU64 {a b : UInt64} (h : a.toNat + b.toNat < 2 ^ 64) :
    (addU64 a b).value.toNat = a.toNat + b.toNat := by
  rw [addU64, UInt64.toNat_add, Nat.mod_eq_of_lt h]

theorem toNat_mulU64 {a b : UInt64} (h : a.toNat * b.toNat < 2 ^ 64) :
    (mulU64 a b).value.toNat = a.toNat * b.toNat := by
  rw [mulU64, UInt64.toNat_mul, Nat.mod_eq_of_lt h]

theorem toNat_saturatingMul (a b : UInt64) :
    (saturatingMul a b).toNat = min (a.toNat * b.toNat) (2 ^ 64 - 1) := by
  rw [saturatingMul, UInt64.toNat_ofNat_of_lt']
  exact Nat.lt_of_le_of_lt (Nat.min_le_right _ _) (by decide)

theorem toNat_minU64 (a b : UInt64) : (min a b).toNat = min a.toNat b.toNat := by
  have hmin : min a b = if a ≤ b then a else b := rfl
  rw [hmin]
  split
  · rename_i hle
    exact (Nat.min_eq_left hle).symm
  · rename_i hle
    exact (Nat.min_eq_right (Nat.le_of_not_le hle)).symm

theorem toNat_maxU64 (a b : UInt64) : (max a b).toNat = max a.toNat b.toNat := by
  have hmax : max a b = if a ≤ b then b else a := rfl
  rw [hmax]
  split
  · rename_i hle
    exact (Nat.max_eq_right hle).symm
  · rename_i hle
    exact (Nat.max_eq_left (Nat.le_of_not_le hle)).symm

/-- A cap that is in range makes up for the saturation: where the product saturates, the minimum
is the cap either way. -/
theorem toNat_min_saturatingMul (a b cap : UInt64) :
    (min (saturatingMul a b) cap).toNat = min (a.toNat * b.toNat) cap.toNat := by
  have hcap : cap.toNat ≤ 2 ^ 64 - 1 := Nat.le_sub_one_of_lt cap.toNat_lt
  rw [toNat_minU64, toNat_saturatingMul, Nat.min_assoc, Nat.min_eq_right hcap]

/-! ## Signed -/

def InI64 (n : Int) : Prop := -2 ^ 63 ≤ n ∧ n < 2 ^ 63

instance (n : Int) : Decidable (InI64 n) := inferInstanceAs (Decidable (_ ∧ _))

def addI64 (a b : Int64) : Checked Int64 := ⟨a + b, decide (InI64 (a.toInt + b.toInt))⟩

def subI64 (a b : Int64) : Checked Int64 := ⟨a - b, decide (InI64 (a.toInt - b.toInt))⟩

/-- `a as i64`. The cast never fails in Rust; the flag says whether it kept the value. -/
def toI64 (a : UInt64) : Checked Int64 := ⟨a.toInt64, decide (a.toNat < 2 ^ 63)⟩

/-- `a as u64`. Like `toI64`, with the flag for a number that is not negative. -/
def toU64 (a : Int64) : Checked UInt64 := ⟨a.toUInt64, decide (0 ≤ a.toInt)⟩

theorem toInt_addI64 {a b : Int64} (h : InI64 (a.toInt + b.toInt)) :
    (addI64 a b).value.toInt = a.toInt + b.toInt := by
  obtain ⟨hlow, hhigh⟩ := h
  rw [addI64, Int64.toInt_add]
  exact Int.bmod_eq_of_le (by omega) (by omega)

theorem toInt_subI64 {a b : Int64} (h : InI64 (a.toInt - b.toInt)) :
    (subI64 a b).value.toInt = a.toInt - b.toInt := by
  obtain ⟨hlow, hhigh⟩ := h
  rw [subI64, Int64.toInt_sub]
  exact Int.bmod_eq_of_le (by omega) (by omega)

theorem toInt_toI64 {a : UInt64} (h : a.toNat < 2 ^ 63) : (toI64 a).value.toInt = a.toNat := by
  have ha : a.toInt64 = Int64.ofNat a.toNat := by
    rw [← UInt64.toInt64_ofNat', UInt64.ofNat_toNat]
  rw [toI64, ha, Int64.toInt_ofNat_of_lt h]

theorem toNat_toU64 {a : Int64} (h : 0 ≤ a.toInt) : ((toU64 a).value.toNat : Int) = a.toInt := by
  have hle : 0 ≤ a := Int64.le_iff_toInt_le.mpr h
  rw [toU64, Int64.toNat_toUInt64_of_le hle, Int64.cast_toNatClampNeg _ hle]

theorem toInt_maxI64 (a b : Int64) : (max a b).toInt = max a.toInt b.toInt := by
  have hmax : max a b = if a ≤ b then b else a := rfl
  rw [hmax]
  split
  · rename_i hle
    exact (Int.max_eq_right (Int64.le_iff_toInt_le.mp hle)).symm
  · rename_i hle
    rw [Int64.le_iff_toInt_le] at hle
    exact (Int.max_eq_left (by omega)).symm

end Lib
