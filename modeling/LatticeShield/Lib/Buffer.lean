import LatticeShield.Lib.Bytes

/-!
# Fixed buffers, written and read by ranges

A message of fixed size is often put together by hand: a zeroed `[u8; n]`, then one
`copy_from_slice` per field at a computed offset; and taken apart by hand on the other side, one
range per field. `copyFromSlice` and `slice` are these two operations with the offsets the program
gives them, and the lemmas are the ones of a store: a range that was written reads back as what was
written, and a write elsewhere does not show.

`Rng` is the other thing such messages are made of: a random generator as the bytes it has still to
give.
-/

set_option autoImplicit false

namespace Lib

namespace ByteArr

variable {n m k lo lo' : Nat}

/-- `[0u8; n]`. -/
def zeros (n : Nat) : ByteArr n := ⟨List.replicate n 0, List.length_replicate⟩

/-- `buf[lo..lo + m].copy_from_slice(src)`. -/
def copyFromSlice (buf : ByteArr n) (lo : Nat) (src : ByteArr m) (h : lo + m ≤ n := by decide) :
    ByteArr n :=
  ⟨buf.toList.take lo ++ (src.toList ++ buf.toList.drop (lo + m)), by simp; omega⟩

/-- `buf[lo..lo + m]`, as the array it is converted to. The bounds are known when it is written,
so it cannot fail. -/
def slice (buf : ByteArr n) (lo m : Nat) (h : lo + m ≤ n := by decide) : ByteArr m :=
  ⟨(buf.toList.drop lo).take m, by simp; omega⟩

/-- `bytes.try_into()` an array. -/
def tryInto (n : Nat) (bytes : Bytes) : Option (ByteArr n) :=
  if h : bytes.length = n then some ⟨bytes, h⟩ else none

@[simp] theorem tryInto_toList (v : ByteArr n) : tryInto n v.toList = some v := by
  rw [tryInto, dif_pos v.toList_length]
  rfl

theorem tryInto_eq_some {bytes : Bytes} {v : ByteArr n} :
    tryInto n bytes = some v ↔ bytes = v.toList := by
  constructor
  · intro h
    unfold tryInto at h
    split at h
    · rw [← Option.some.inj h]
      rfl
    · exact absurd h (by simp)
  · rintro rfl
    exact tryInto_toList v

theorem tryInto_eq_none {bytes : Bytes} : tryInto n bytes = none ↔ bytes.length ≠ n := by
  unfold tryInto
  split
  · rename_i h; exact iff_of_false (by simp) (by simp [h])
  · rename_i h; exact iff_of_true rfl h

theorem toList_slice (buf : ByteArr n) (h : lo + m ≤ n) :
    (buf.slice lo m h).toList = (buf.toList.drop lo).take m := rfl

theorem toList_copyFromSlice (buf : ByteArr n) (src : ByteArr m) (h : lo + m ≤ n) :
    (buf.copyFromSlice lo src h).toList =
      buf.toList.take lo ++ (src.toList ++ buf.toList.drop (lo + m)) := rfl

@[simp] theorem slice_copyFromSlice (buf : ByteArr n) (src : ByteArr m) (h h' : lo + m ≤ n) :
    (buf.copyFromSlice lo src h).slice lo m h' = src := by
  apply toList_inj.mp
  have htake : (buf.toList.take lo).length = lo := by simp; omega
  rw [toList_slice, toList_copyFromSlice, List.drop_left' htake,
    List.take_left' src.toList_length]

/-- A write behind a range does not show in it. -/
theorem slice_copyFromSlice_before (buf : ByteArr n) (src : ByteArr m) (h : lo + m ≤ n)
    (h' : lo' + k ≤ n) (hle : lo' + k ≤ lo) :
    (buf.copyFromSlice lo src h).slice lo' k h' = buf.slice lo' k h' := by
  apply toList_inj.mp
  have htake : (buf.toList.take lo).length = lo := by simp; omega
  rw [toList_slice, toList_slice, toList_copyFromSlice,
    List.drop_append_of_le_length (by omega), List.take_append_of_le_length (by simp; omega),
    List.drop_take, List.take_take, Nat.min_eq_left (by omega)]

/-- A buffer of two fields is the two fields. -/
theorem toList_eq_slices (buf : ByteArr (m + k)) :
    buf.toList = (buf.slice 0 m (by omega)).toList ++ (buf.slice m k le_rfl).toList := by
  have hlen : (buf.toList.drop m).length ≤ k := by simp
  rw [toList_slice, toList_slice, List.drop_zero, List.take_of_length_le hlen,
    List.take_append_drop]

theorem toList_fill (buf : ByteArr (m + k)) (u : ByteArr m) (v : ByteArr k) (hu : 0 + m ≤ m + k)
    (hv : m + k ≤ m + k) :
    ((buf.copyFromSlice 0 u hu).copyFromSlice m v hv).toList = u.toList ++ v.toList := by
  rw [toList_eq_slices, slice_copyFromSlice, slice_copyFromSlice_before _ _ _ _ (by omega),
    slice_copyFromSlice]

end ByteArr

/-! ## Random bytes -/

/-- A random generator: the bytes it has still to give. Drawing from it gives some of them and the
generator that is left. -/
abbrev Rng := Nat → UInt8

/-- `fill_bytes` on a `[u8; n]`. -/
def Rng.fill (n : Nat) (rng : Rng) : ByteArr n × Rng :=
  (⟨List.ofFn fun i : Fin n => rng i, List.length_ofFn⟩, fun i => rng (n + i))

/-- A generator that gives these bytes, and then zeroes. -/
def Rng.ofBytes (bytes : Bytes) : Rng := fun i => bytes.getD i 0

theorem Rng.fill_ofBytes {n : Nat} (v : ByteArr n) : ((Rng.ofBytes v.toList).fill n).1 = v := by
  apply ByteArr.toList_inj.mp
  show List.ofFn (fun i : Fin n => v.toList.getD i 0) = v.toList
  apply List.ext_getElem
  · simp
  · intro i _ h
    rw [List.getElem_ofFn, List.getD_eq_getElem?_getD, List.getElem?_eq_getElem h,
      Option.getD_some]

end Lib
