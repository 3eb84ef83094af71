import LatticeShield.Lib.Bytes

/-!
# Text as bytes

`s.toUTF8.toList` is the wire form of a text. `decodeUtf8` reads it back, and refuses bytes that
are no UTF-8. The list of a byte array is built by a loop; `toList_eq` has it out of the way.
-/

set_option autoImplicit false

namespace Lib

theorem toList_loop_eq (bs : ByteArray) (i : Nat) (acc : Bytes) :
    ByteArray.toList.loop bs i acc = acc.reverse ++ bs.data.toList.drop i := by
  fun_induction ByteArray.toList.loop bs i acc with
  | case1 i acc h ih =>
    have hi : i < bs.data.toList.length := by simpa using h
    have hget : bs.get! i = bs.data.toList[i] := by
      simp [ByteArray.get!, getElem!_pos bs.data i hi]
    rw [ih, hget, List.drop_eq_getElem_cons hi]
    simp
  | case2 i acc h =>
    rw [List.drop_of_length_le (by simpa using h), List.append_nil]

theorem toList_eq (bs : ByteArray) : bs.toList = bs.data.toList := by
  rw [ByteArray.toList, toList_loop_eq]
  rfl

theorem toUTF8_append (s t : String) :
    (s ++ t).toUTF8.toList = s.toUTF8.toList ++ t.toUTF8.toList := by
  simp [toList_eq, String.toUTF8]

/-- The text of these bytes. -/
def decodeUtf8 (bs : Bytes) : Option String := String.fromUTF8? bs.toByteArray

@[simp] theorem decodeUtf8_toUTF8 (s : String) : decodeUtf8 s.toUTF8.toList = some s := by
  have hbytes : s.toUTF8.toList.toByteArray = s.toUTF8 := by
    rw [toList_eq]
    apply ByteArray.ext
    apply Array.toList_inj.mp
    exact List.toList_data_toByteArray
  have hvalid : s.toUTF8.IsValidUTF8 := s.isValidUTF8
  rw [decodeUtf8, hbytes, String.fromUTF8?, dif_pos hvalid]
  rfl

/-! ## ASCII -/

/-- The bytes of a text are those of its characters. -/
theorem toUTF8_ofList (cs : List Char) :
    (String.ofList cs).toUTF8.toList = cs.flatMap String.utf8EncodeChar := by
  rw [toList_eq]
  show (List.utf8Encode cs).data.toList = _
  rw [List.utf8Encode]
  exact List.toList_data_toByteArray

/-- A text in ASCII has a byte for each character. -/
theorem length_toUTF8_ascii {cs : List Char} (h : ∀ c ∈ cs, c.val ≤ 127) :
    (String.ofList cs).toUTF8.toList.length = cs.length := by
  rw [toUTF8_ofList]
  induction cs with
  | nil => rfl
  | cons c cs ih =>
    rw [List.forall_mem_cons] at h
    have hsize : c.utf8Size = 1 := Char.utf8Size_eq_one_iff.mpr h.1
    rw [List.flatMap_cons, List.length_append, ih h.2, String.length_utf8EncodeChar, hsize,
      List.length_cons, Nat.add_comm]

theorem length_toUTF8 (s : String) : s.toUTF8.toList.length = s.utf8ByteSize := by
  rw [toList_eq, Array.length_toList]
  exact s.size_toByteArray

/-- A machine word has at most twenty digits. -/
theorem utf8ByteSize_toString_le (n : UInt64) : (toString n).utf8ByteSize ≤ 20 := by
  have hascii : ∀ c ∈ Nat.toDigits 10 n.toNat, c.val ≤ 127 := by
    intro c hc
    have hdigit := Nat.isDigit_of_mem_toDigits (by decide) (by decide) hc
    simp only [Char.isDigit, Bool.and_eq_true, decide_eq_true_eq] at hdigit
    exact UInt32.le_trans hdigit.2 (by decide)
  rw [← length_toUTF8, show toString n = String.ofList (Nat.toDigits 10 n.toNat) from rfl,
    length_toUTF8_ascii hascii, Nat.length_toDigits_le_iff (by decide) (by decide)]
  exact Nat.lt_trans n.toNat_lt (by decide)

end Lib
